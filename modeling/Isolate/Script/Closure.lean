import Isolate.Script.Library
import Isolate.Script.Scope

/-!
# Functions made of code

A closure is a piece of code with the scope that it stands in. Calling it opens a scope of its own with
its parameters and declarations.
-/

namespace Isolate.Script

def FunctionCode.isConstructor (code : FunctionCode) : Bool :=
  !(code.isArrow || code.isMethod || code.isAsync || code.isGenerator)

def FunctionCode.prototype (code : FunctionCode) : ObjectId :=
  if code.isAsync && code.isGenerator then Intrinsic.asyncGeneratorFunctionPrototype.id
  else if code.isAsync then Intrinsic.asyncFunctionPrototype.id
  else if code.isGenerator then Intrinsic.generatorFunctionPrototype.id
  else Builtin.functionPrototype.id

/-- The name of the member that objects made by a function inherit from. -/
def prototypeName : Text.Units := Text.Units.ofString "prototype"

def newClosure (unit : Nat) (code : FunctionCode) (scope : ScopeId) (this : Value) :
    Action Value := do
  let id ← allocate
    { proto := some code.prototype
      nature := .function (.closure unit code scope (if code.isArrow then some this else none))
      properties := Builtin.functionMembers code.name code.length }
  let shared : Value → Property := fun value =>
    { value, enumerable := false, configurable := false }
  if code.isConstructor then
    let proto ← newObject
    putOwn proto (Text.Units.ofString "constructor") (.hidden (.object id))
    putOwn id prototypeName (shared (.object proto))
  else if code.isGenerator then
    let proto ← allocate { proto := some Intrinsic.generatorPrototype.id }
    putOwn id prototypeName (shared (.object proto))
  pure (.object id)

def functionCode (unit index : Nat) : Action FunctionCode := do
  let w ← get
  pure ((w.units[unit]?.bind (·.functions[index]?)).getD {})

def bindFunctions (unit : Nat) (scope : ScopeId) (this : Value) (declared : List (String × Nat))
    (put : String → Value → Action PUnit) : Action PUnit :=
  declared.forM fun (name, index) => do
    put name (← newClosure unit (← functionCode unit index) scope this)

def newArguments (args : List Value) : Action Value := do
  let id ← allocate
    { proto := some Intrinsic.objectPrototype.id, nature := .arguments
      properties := args.mapIdx (fun index value => (indexName index, { value }))
        ++ [(lengthName, .hidden (.number (.ofNat args.length)))] }
  pure (.object id)

def thisFor (code : FunctionCode) (captured : Option Value) (this : Value) : Action Value := do
  match captured with
  | some this => pure this
  | none =>
    if code.isStrict then pure this
    else if this.isNothing then pure Intrinsic.global.value
    else pure (.object (← toObject this))

def distinctBindings : List (String × Binding) → List (String × Binding)
  | [] => []
  | (name, binding) :: rest =>
    (name, binding) :: (distinctBindings rest).filter (·.1 ≠ name)

/-- The call of a closure, ready to run. -/
def activate (callee : Value) (unit : Nat) (code : FunctionCode) (scope : ScopeId)
    (captured : Option Value) (this : Value) (args : List Value) : Action Activation := do
  let w ← get
  let origin := (w.units[unit]?.map (·.origin)).getD .unnamed
  let this ← thisFor code captured this
  let parent ←
    match code.selfName with
    | some name =>
      newScope { parent := some scope, bindings := [(name, .held (some callee) .selfName)] }
    | none => pure scope
  let arguments : List (String × Binding) ←
    if code.usesArguments then do
      pure [("arguments", .held (some (← newArguments args)) .mutable)]
    else pure []
  let empty (name : String) : String × Binding := (name, .held (some .undefined) .mutable)
  let own ← newScope
    { parent := some parent, isFunction := true
      bindings := distinctBindings (code.params.map empty ++ arguments ++ code.vars.map empty
        ++ code.lexicals.map fun (name, kind) => (name, .held none kind)) }
  bindFunctions unit own this code.functions fun name value =>
    bind own name (.held (some value) .mutable)
  pure { unit, origin, code, scope := own, this, args, outer := w.here }

end Isolate.Script
