import Isolate.Script.Promise
import Isolate.Script.Stringify

/-!
# The builtin functions

What the functions do that every world has. Those that compile code from strings are not here, since
they need the means to run it.
-/

namespace Isolate.Script

def argument (args : List Value) (index : Nat) : Value := args.getD index .undefined

namespace Library

/-- The word in brackets for what an object is. -/
def tag (w : World) : Value → String
  | .undefined => "[object Undefined]"
  | .null => "[object Null]"
  | .bool _ => "[object Boolean]"
  | .number _ => "[object Number]"
  | .string _ => "[object String]"
  | .object id =>
    match (w.object id).nature with
    | .array _ => "[object Array]"
    | .function (.closure _ code _ _) =>
      if code.isAsync && code.isGenerator then "[object AsyncGeneratorFunction]"
      else if code.isAsync then "[object AsyncFunction]"
      else if code.isGenerator then "[object GeneratorFunction]"
      else "[object Function]"
    | .function _ => "[object Function]"
    | .error _ _ => "[object Error]"
    | .promise _ => "[object Promise]"
    | .buffer _ => "[object ArrayBuffer]"
    | .wrapper (.string _) => "[object String]"
    | .wrapper (.number _) => "[object Number]"
    | .wrapper (.bool _) => "[object Boolean]"
    | .arguments => "[object Arguments]"
    | .json => "[object JSON]"
    | .space _ => "[object Module]"
    | .wasmModule _ => "[object WebAssembly.Module]"
    | _ => if id = Intrinsic.promisePrototype.id then "[object Promise]" else "[object Object]"

def functionText (w : World) (value : Value) : Action Text.Units := do
  match callable? w value with
  | some (.closure _ code _ _) => pure code.source
  | some _ => do
    match ← getMember value (Text.Units.ofString "name") with
    | .string name =>
      pure (Text.Units.ofString "function " ++ name
        ++ Text.Units.ofString "() \x7b [native code] \x7d")
    | _ => pure (Text.Units.ofString "function () \x7b [native code] \x7d")
  | none => failWith .type "not a function"

def makeError (call : Invoke) (kind : ErrorKind) (message options : Value) : Action Value := do
  let here := (← get).here
  let properties : Properties ←
    match message with
    | .undefined => pure []
    | message => do
      pure [(Text.Units.ofString "message", .hidden (.string (← toText call message)))]
  let cause : Properties ←
    match options with
    | .object id => do
      let name := Text.Units.ofString "cause"
      if ← hasMember name (← get).searchDepth (some id) then
        pure [(name, .hidden (← getMember options name))]
      else pure []
    | _ => pure []
  let id ← allocate
    { proto := some (Intrinsic.errorPrototype kind).id, nature := .error kind here
      properties := properties ++ cause }
  pure (.object id)

def errorText (call : Invoke) (value : Value) : Action Value := do
  let part (name : String) (default : String) : Action Text.Units := do
    match ← getMember value (Text.Units.ofString name) with
    | .undefined => pure (Text.Units.ofString default)
    | found => toText call found
  let name ← part "name" "Error"
  let message ← part "message" ""
  if name.isEmpty then pure (.string message)
  else if message.isEmpty then pure (.string name)
  else pure (.string (name ++ Text.Units.ofString ": " ++ message))

def lengthOf (call : Invoke) (id : ObjectId) : Action Nat := do
  let n ← toNumber call (← getMember (.object id) lengthName)
  pure ((n.toInteger (Int.pow 2 53 - 1)).toNat)

def push (call : Invoke) (this : Value) (items : List Value) : Action Value := do
  let id ← toObject this
  let length ← lengthOf call id
  for (item, offset) in items.zipIdx do
    setMember true (.object id) (indexName (length + offset)) item
  let length : Value := .number (.ofNat (length + items.length))
  setMember true (.object id) lengthName length
  pure length

/-- A new array of what a function makes of each element. -/
def map (call : Invoke) (this action owner : Value) : Action Value := do
  let id ← toObject this
  let length ← lengthOf call id
  if !(← isCallable action) then
    failWith .type "Array.prototype.map: Callback function is not callable"
  let result ← newArray []
  setLength result length
  for index in List.range length do
    let name := indexName index
    if ← hasMember name (← get).searchDepth (some id) then
      let item ← getMember (.object id) name
      let value ← call action owner [item, .number (.ofNat index), .object id]
      defineMember result name value
  pure (.object result)

def join (call : Invoke) (this separator : Value) : Action Value := do
  let id ← toObject this
  let length ← lengthOf call id
  let separator ←
    match separator with
    | .undefined => pure (Text.Units.ofString ",")
    | separator => toText call separator
  let parts ← (List.range length).mapM fun index => do
    let item ← getMember (.object id) (indexName index)
    if item.isNothing then pure [] else toText call item
  pure (.string (List.intercalate separator parts))

/-- The text of an array: its elements joined if it still has the method for that. -/
def arrayText (call : Invoke) (this : Value) : Action Value := do
  let id ← toObject this
  let method ← getMember (.object id) (Text.Units.ofString "join")
  if ← isCallable method then call method (.object id) []
  else pure (.ofString (tag (← get) (.object id)))

/-- A text several times in a row. -/
def repeatText (call : Invoke) (this count : Value) : Action Value := do
  if this.isNothing then failNoObject
  let text ← toText call this
  let count ← toNumber call count
  let tooMany : Action Value :=
    failWith .range
      "repeat count must be a positive finite number that doesn't overflow the maximum string length (2^32 - 1)"
  match count.toInteger (Int.pow 2 53) with
  | .ofNat n =>
    if n = Nat.pow 2 53 || n * text.length ≥ Nat.pow 2 32 then tooMany
    else pure (.string (List.replicate n text).flatten)
  | .negSucc _ => tooMany

def unwrapped (value : Value) : Action Value := do
  match value with
  | .object id =>
    match ((← get).object id).nature with
    | .wrapper inner => pure inner
    | _ => pure value
  | value => pure value

/-- A value around which a constructor puts an object, unless it is called as a function. -/
def wrapIf (isNew : Bool) (value : Value) : Action Value := do
  if isNew then pure (.object (← toObject value)) else pure value

def promiseId (this : Value) : Action ObjectId := do
  match this with
  | .object id =>
    if ((← get).promiseState? id).isSome then pure id
    else failWith .type "IsPromise(this) is false"
  | _ => failWith .type "IsPromise(this) is false"

def makePromise (call : Invoke) (action : Value) : Action Value := do
  if !(← isCallable action) then failWith .type "Promise executor is not callable"
  let id ← newPromise
  let (resolve, reject) ← resolvingFunctions id
  match ← attempt (call action .undefined [resolve, reject]) with
  | .ok _ => pure ()
  | .error reason => do
    let _ ← call reject .undefined [reason]
  pure (.object id)

def makeArray (args : List Value) : Action Value := do
  match args with
  | [.number n] =>
    match n with
    | .int (.ofNat length) => do
      let id ← newArray []
      setLength id length
      pure (.object id)
    | _ => failWith .range "invalid array length"
  | args => do pure (.object (← newArray args))

def elementsOf (call : Invoke) (value : Value) : Action (List Value) := do
  match value with
  | .object id => do
    let length ← lengthOf call id
    (List.range length).mapM fun index => getMember value (indexName index)
  | _ => pure []

/-- A function that calls another one with fixed arguments first. -/
def bindFunction (this owner : Value) (args : List Value) : Action Value := do
  if !(← isCallable this) then failWith .type "cannot bind `this` without a `[[Call]]` internal method"
  let name ← getMember this (Text.Units.ofString "name")
  let name := match name with
    | .string name => name
    | _ => []
  let length := match ← getMember this lengthName with
    | .number (.int (.ofNat n)) => n - args.length
    | _ => 0
  newFunction (.bound this owner args) (Text.Units.ofString "bound " ++ name) length

end Library

def Builtin.run (call : Invoke) (isNew : Bool) (this : Value) (args : List Value) :
    Builtin → Action Value
  | objectConstructor => do
    let value := argument args 0
    if value.isNothing then pure (.object (← newObject)) else pure (.object (← toObject value))
  | objectKeys => do
    let names ← visibleNames (← toObject (argument args 0))
    pure (.object (← newArray (names.map .string)))
  | objectHasOwn => do
    let name ← toText call (argument args 0)
    pure (.bool (← hasOwn (← toObject this) name))
  | objectToString => do pure (.ofString (Library.tag (← get) this))
  | objectValueOf => do
    match ← Library.unwrapped this with
    | .object id => pure (.object id)
    | value => if this.isNothing then failNoObject else pure value
  | functionPrototype => pure .undefined
  | functionCall =>
    if args.isEmpty then call this .undefined [] else call this (argument args 0) (args.drop 1)
  | functionApply => do
    call this (argument args 0) (← Library.elementsOf call (argument args 1))
  | functionBind => Library.bindFunction this (argument args 0) (args.drop 1)
  | functionToString => do pure (.string (← Library.functionText (← get) this))
  | arrayConstructor => Library.makeArray args
  | arrayIsArray => do
    match argument args 0 with
    | .object id =>
      match ((← get).object id).nature with
      | .array _ => pure (.bool true)
      | _ => pure (.bool false)
    | _ => pure (.bool false)
  | arrayPush => Library.push call this args
  | arrayMap => Library.map call this (argument args 0) (argument args 1)
  | arrayJoin => Library.join call this (argument args 0)
  | arrayToString => Library.arrayText call this
  | stringConstructor => do
    let value ← if args.isEmpty then pure (.string []) else do
      pure (.string (← toText call (argument args 0)))
    Library.wrapIf isNew value
  | stringRepeat => Library.repeatText call this (argument args 0)
  | stringToString => do
    match ← Library.unwrapped this with
    | .string s => pure (.string s)
    | _ => failWith .type "'this' is not a string"
  | numberConstructor => do
    let value ← if args.isEmpty then pure (.number (.int 0)) else do
      pure (.number (← toNumber call (argument args 0)))
    Library.wrapIf isNew value
  | numberToString => do
    match ← Library.unwrapped this with
    | .number n => pure (.string n.toUnits)
    | _ => failWith .type "'this' is not a number"
  | booleanConstructor => Library.wrapIf isNew (.bool (argument args 0).isTrue)
  | booleanToString => do
    match ← Library.unwrapped this with
    | .bool b => pure (.string (Value.bool b).plainText)
    | _ => failWith .type "'this' is not a boolean"
  | errorConstructor .aggregate => do
    let error ← Library.makeError call .aggregate (argument args 1) (argument args 2)
    let errors ← newArray (← Library.elementsOf call (argument args 0))
    match error with
    | .object id => putOwn id (Text.Units.ofString "errors") (.hidden (.object errors))
    | _ => pure ()
    pure error
  | errorConstructor kind => Library.makeError call kind (argument args 0) (argument args 1)
  | errorToString => Library.errorText call this
  | promiseConstructor =>
    if isNew then Library.makePromise call (argument args 0)
    else failWith .type "Promise NewTarget cannot be undefined"
  | promiseThen => do
    Script.promiseThen (← Library.promiseId this) (argument args 0) (argument args 1)
  | promiseCatch => do
    call (← getMember this (Text.Units.ofString "then")) this [.undefined, argument args 0]
  | promiseFinally => do
    let action := argument args 0
    let method ← getMember this (Text.Units.ofString "then")
    if ← isCallable action then
      let passed ← newFunction (.finally action false) [] 1
      let failed ← newFunction (.finally action true) [] 1
      call method this [passed, failed]
    else call method this [action, action]
  | promiseResolve => do pure (.object (← promiseOf (argument args 0)))
  | promiseReject => do
    let id ← newPromise
    settle id (.error (argument args 0))
    pure (.object id)
  | bufferConstructor => do
    let n ← toNumber call (argument args 0)
    let id ← allocate
      { proto := some Intrinsic.bufferPrototype.id
        nature := .buffer (List.replicate ((n.toInteger 0).toNat) 0) }
    pure (.object id)
  | jsonStringify => Stringify.text call (argument args 0) (argument args 1) (argument args 2)
  | isNaN => do pure (.bool (← toNumber call (argument args 0)).isNaN)
  | isFinite => do pure (.bool (← toNumber call (argument args 0)).isFinite)
  | functionConstructor => pure .undefined
  | asyncFunctionConstructor => pure .undefined
  | generatorConstructor => pure .undefined
  | asyncGeneratorConstructor => pure .undefined
  | eval => pure (argument args 0)

end Isolate.Script
