import Isolate.Location
import Isolate.Project.Basic
import Isolate.Script.Code
import Isolate.Wasm.Outline

/-!
# Values and the world of a worker

Everything that running code can reach or change is kept in one `World`: objects, scopes, units of
code, and the jobs that wait for the code to finish. Values name objects by their number in the world,
and closures name scopes the same way. An `Action` on a world may end abruptly.
-/

namespace Isolate.Script

abbrev ObjectId := Nat

abbrev ScopeId := Nat

inductive Value where
  | undefined
  | null
  | bool (value : Bool)
  | number (value : Number)
  | string (value : Text.Units)
  | object (id : ObjectId)
  deriving Repr, Inhabited

def Literal.toValue : Literal → Value
  | .undefined => .undefined
  | .null => .null
  | .bool b => .bool b
  | .number n => .number n
  | .string s => .string s

/-- Where a unit of code comes from. -/
inductive CodeOrigin where
  | file (path : Path)
  /-- Code without a path. -/
  | unnamed
  /-- Code that other code compiled from a string. -/
  | evaluated
  deriving Repr, DecidableEq

/-- A place in a unit of code. -/
structure Site where
  origin : CodeOrigin
  place : Position
  deriving Repr, DecidableEq

def Site.describe (site : Site) : String :=
  match site.origin with
  | .file path => s!"{path.text}:{site.place.line}:{site.place.column}"
  | .unnamed => s!"unknown at :{site.place.line}:{site.place.column}"
  | .evaluated => s!"eval at :{site.place.line}:{site.place.column}"

/-- A member of an object. -/
structure Property where
  value : Value
  writable : Bool := true
  enumerable : Bool := true
  configurable : Bool := true
  deriving Repr

/-- The members of an object by their names, in the order in which they were added. -/
abbrev Properties := List (Text.Units × Property)

inductive ErrorKind where
  | error | type | range | reference | syntaxError | eval | uri | aggregate
  deriving Repr, DecidableEq

def ErrorKind.name : ErrorKind → String
  | error => "Error"
  | type => "TypeError"
  | range => "RangeError"
  | reference => "ReferenceError"
  | syntaxError => "SyntaxError"
  | eval => "EvalError"
  | uri => "URIError"
  | aggregate => "AggregateError"

/-- The functions that every world has. -/
inductive Builtin where
  | objectConstructor | objectKeys | objectHasOwn | objectToString | objectValueOf
  | functionConstructor | asyncFunctionConstructor | generatorConstructor
  | asyncGeneratorConstructor | functionPrototype | functionCall | functionApply | functionBind
  | functionToString
  | arrayConstructor | arrayIsArray | arrayPush | arrayMap | arrayJoin | arrayToString
  | stringConstructor | stringRepeat | stringToString
  | numberConstructor | numberToString | booleanConstructor | booleanToString
  | errorConstructor (kind : ErrorKind) | errorToString
  | promiseConstructor | promiseThen | promiseCatch | promiseFinally | promiseResolve | promiseReject
  | bufferConstructor
  | jsonStringify
  | isNaN | isFinite | eval
  deriving Repr, DecidableEq

/-- What calling a function does. -/
inductive Callable where
  /-- Code of a unit with the scope that it stands in; `this` is given for functions that have none of
  their own. -/
  | closure (unit : Nat) (code : FunctionCode) (scope : ScopeId) (this : Option Value)
  | builtin (builtin : Builtin)
  | bound (target this : Value) (args : List Value)
  /-- Settle a promise, unless its other function was called before. -/
  | settle (promise : ObjectId) (guard : ObjectId) (rejects : Bool)
  /-- Call a function and go on with the outcome that led here. -/
  | finally (action : Value) (rejects : Bool)
  /-- Return or throw a fixed value. -/
  | constant (value : Value) (rejects : Bool)
  /-- Append an argument to the log of the host. -/
  | record

/-- What a failure inside a guarded part of code leads to. -/
structure Guard where
  target : Nat
  stack : List Value
  scope : ScopeId
  /-- The sites of the failures that are being passed on. -/
  pending : List (Option Site)
  /-- Whether the failure is passed on in the end. -/
  passesOn : Bool

/-- A call of a function that is under way. -/
structure Activation where
  unit : Nat
  origin : CodeOrigin
  code : FunctionCode
  scope : ScopeId
  this : Value
  args : List Value := []
  /-- The site from which the call was made. -/
  outer : Option Site := none
  /-- The promise of an asynchronous call. -/
  promise : Option ObjectId := none
  next : Nat := 0
  stack : List Value := []
  handlers : List Guard := []
  /-- The sites of the failures that are being passed on. -/
  pending : List (Option Site) := []
  /-- The rounds of loops so far. -/
  rounds : Nat := 0
  completion : Value := .undefined

/-- What waits for a promise. -/
inductive Reaction where
  /-- Functions, and the promise for their outcome. -/
  | functions (onFulfilled onRejected : Value) (result : Option ObjectId)
  /-- An asynchronous call. -/
  | resume (activation : Activation)
  /-- A module whose own code waits. -/
  | evaluated (module : Nat)
  /-- An import that waits for a module and what it requests to be loaded. -/
  | loaded (module : Nat) (result : ObjectId)
  /-- An import that waits for a module to be evaluated. -/
  | imported (module : Nat) (result : ObjectId)

inductive PromiseState where
  | pending (reactions : List Reaction)
  | fulfilled (value : Value)
  | rejected (reason : Value)

/-- What makes an object more than its members. -/
inductive Nature where
  | plain
  | array (length : Nat)
  | function (callable : Callable)
  /-- An error and the site where it was made. -/
  | error (kind : ErrorKind) (site : Option Site)
  | promise (state : PromiseState)
  | buffer (bytes : List UInt8)
  /-- An object around a value that is none. -/
  | wrapper (value : Value)
  | arguments
  | json
  /-- The exports of a module: the scopes and names of their bindings, or an object. -/
  | space (exports : List (Text.Units × (ScopeId × String)))
  /-- A WebAssembly module that is compiled and not instantiated. -/
  | wasmModule (outline : Wasm.Outline)
  /-- A flag that two functions share. -/
  | flag (raised : Bool)

structure Object where
  proto : Option ObjectId
  nature : Nature := .plain
  extensible : Bool := true
  properties : Properties := []
  /-- Whether this is the error of a failure that no code has got to see. -/
  fresh : Bool := false

instance : Inhabited Object := ⟨{ proto := none }⟩

/-- What a name stands for in a scope. -/
inductive Binding where
  /-- A value, absent until the declaration has run. -/
  | held (value : Option Value) (kind : BindingKind)
  /-- A binding of another scope. -/
  | alias (scope : ScopeId) (name : String)

def Binding.isLasting : Binding → Bool
  | .held (some _) .fixed => true
  | .held _ _ => false
  | .alias _ _ => true

structure Scope where
  parent : Option ScopeId
  bindings : List (String × Binding) := []
  /-- The object whose members are names here too. -/
  object : Option ObjectId := none
  /-- Whether `var` declarations of code evaluated inside end here. -/
  isFunction : Bool := false
  deriving Inhabited

structure CodeUnit where
  origin : CodeOrigin
  functions : Array FunctionCode
  /-- Where the code's imports are resolved from. -/
  referrer : Origin := .anonymous

/-- What a module runs when it is evaluated. -/
inductive ModuleBody where
  /-- The own code of a unit. -/
  | code (unit : Nat)
  /-- A function of an object for the exports and of one for the module. -/
  | commonJs (wrapper : Value)
  /-- Nothing: the default export is known. -/
  | fixed (value : Value)
  deriving Inhabited

/-- How far a module has come. -/
inductive ModuleStatus where
  | unlinked
  | linked
  | evaluating
  /-- Evaluated except for what waits for promises. -/
  | evaluatingAsync
  | evaluated
  deriving Repr, DecidableEq

/-- A module in the world. -/
structure Module where
  body : ModuleBody
  /-- The scope of the module's own names. -/
  scope : ScopeId
  requests : List Text.Units := []
  imports : List ImportEntry := []
  exports : List ExportEntry := []
  /-- Whether the module awaits outside its functions. -/
  awaits : Bool := false
  /-- The modules that its specifiers stand for, as far as they are loaded. -/
  loaded : List (Text.Units × Nat) := []
  /-- The object of the module's exports, once something asked for it. -/
  space : Option ObjectId := none
  status : ModuleStatus := .unlinked
  /-- The position among the modules whose evaluation has begun and not ended. -/
  depthIndex : Nat := 0
  /-- The lowest such position that can be reached from the module. -/
  lowestIndex : Nat := 0
  /-- The module at which the module's cycle was entered. -/
  cycleRoot : Option Nat := none
  /-- The place in the order in which modules began to wait, if the module waits or waited. -/
  waitOrder : Option Nat := none
  /-- The modules that wait for this one. -/
  waiters : List Nat := []
  /-- The number of modules that this one waits for. -/
  pending : Nat := 0
  /-- The promise of the evaluation that began at this module. -/
  result : Option ObjectId := none
  failure : Option Value := none
  deriving Inhabited

/-- A request by running code to load a module. -/
structure ImportRequest where
  referrer : Origin
  specifier : Text.Units
  /-- The promise for the module's namespace. -/
  result : ObjectId

/-- A piece of work that waits for the running code to finish. -/
inductive Job where
  /-- Hand the outcome of a promise to something that waited for it. -/
  | react (reaction : Reaction) (outcome : Except Value Value)
  /-- Let a promise follow an object's method `then`. -/
  | follow (promise : ObjectId) (object method : Value)

/-- Limits whose excess ends a run at once. -/
inductive Excess where
  | rounds (limit : Nat)
  | calls
  | values
  deriving Repr, DecidableEq

def Excess.message : Excess → String
  | rounds limit => s!"Maximum loop iteration limit {limit} exceeded"
  | calls => "exceeded maximum number of recursive calls"
  | values => "exceeded maximum call stack length"

/-- How an action ends without a value. -/
inductive Abrupt where
  /-- Code failed with a value, at a site. -/
  | thrown (value : Value) (site : Option Site)
  /-- A limit was exceeded, at a site. No code can go on from there. -/
  | stopped (excess : Excess) (site : Option Site)
  /-- The steps that a run may take were used up. -/
  | exhausted

/-- A refusal of the host to compile a string. -/
structure Refusal where
  /-- The innermost known place of the code that asked for it. -/
  site : Option Site
  /-- The error that the refusal failed with. -/
  error : Value

/-- All that running code can reach. -/
structure World where
  objects : Array Object
  scopes : Array Scope
  units : Array CodeUnit := #[]
  modules : Array Module := #[]
  /-- The number of modules that have begun to wait. -/
  waits : Nat := 0
  /-- The modules whose own code has begun to run, latest first. -/
  executed : List Nat := []
  limits : Limits := {}
  allowsCodeGeneration : Bool := false
  /-- The calls that are under way, innermost first, each with the number of values that it keeps. -/
  calls : List Nat := []
  /-- The innermost known place of the code that is running. -/
  here : Option Site := none
  /-- The unit of the code that is running. -/
  running : Nat := 0
  jobs : List Job := []
  requests : List ImportRequest := []
  /-- What the host's functions recorded. -/
  log : List Text.Units := []
  /-- The refused compilations, latest first. -/
  refusals : List Refusal := []

abbrev Action := EStateM Abrupt World

end Isolate.Script
