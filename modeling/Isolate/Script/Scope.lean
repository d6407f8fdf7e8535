import Isolate.Script.Property

/-!
# Names and scopes

A name is looked for in the scope in force and then in the scopes around it. The outermost scope also
has the members of the global object as names.
-/

namespace Isolate.Script

inductive Found where
  /-- A binding that is kept in a scope under a name. -/
  | bound (scope : ScopeId) (name : String) (value : Option Value) (kind : BindingKind)
  /-- A member of the global object. -/
  | member (object : ObjectId)

def World.findHere? (w : World) (id : ScopeId) (name : String) : Option Found :=
  let scope := w.scope id
  match scope.bindings.lookup name with
  | some (.held value kind) => some (.bound id name value kind)
  | some (.alias target original) =>
    match (w.scope target).bindings.lookup original with
    | some (.held value _) => some (.bound target original value .constant)
    | _ => none
  | none =>
    scope.object.bind fun o =>
      if (Properties.get? (w.object o).properties (Text.Units.ofString name)).isSome then
        some (.member o)
      else none

def World.find? (w : World) (name : String) : (fuel : Nat) → Option ScopeId → Option Found
  | 0, _ => none
  | _, none => none
  | fuel + 1, some id =>
    match w.findHere? id name with
    | some found => some found
    | none => w.find? name fuel (w.scope id).parent

def findName? (scope : ScopeId) (name : String) : Action (Option Found) := do
  let w ← get
  pure (w.find? name (w.scopes.size + 1) (some scope))

def failUndefined {α : Type} (name : String) : Action α :=
  failWith .reference s!"{name} is not defined"

def loadNameIfBound (scope : ScopeId) (name : String) : Action (Option Value) := do
  match ← findName? scope name with
  | some (.bound _ _ (some value) _) => pure (some value)
  | some (.bound _ _ none _) => failUndefined name
  | some (.member object) => do
    pure (some (← getMember (.object object) (Text.Units.ofString name)))
  | none => do
    -- names may also come from the prototypes of the global object
    memberFrom Intrinsic.global.value (Text.Units.ofString name) (← get).searchDepth
      (some Intrinsic.global.id)

def loadName (scope : ScopeId) (name : String) : Action Value := do
  match ← loadNameIfBound scope name with
  | some value => pure value
  | none => failUndefined name

/-- Put a binding among others, in the place of one of the same name. -/
def Scope.insert (name : String) (binding : Binding) :
    List (String × Binding) → List (String × Binding)
  | [] => [(name, binding)]
  | (key, old) :: rest =>
    if name = key then (key, binding) :: rest else (key, old) :: insert name binding rest

def putBinding (scope : ScopeId) (name : String) (binding : Binding) : Action PUnit :=
  modify fun w => w.modifyScope scope fun s =>
    { s with bindings := Scope.insert name binding s.bindings }

def bind (scope : ScopeId) (name : String) (binding : Binding) : Action PUnit := do
  let old := ((← get).scope scope).bindings.lookup name
  if !old.any Binding.isLasting then putBinding scope name binding

def storeName (isStrict : Bool) (scope : ScopeId) (name : String) (value : Value) :
    Action PUnit := do
  match ← findName? scope name with
  | some (.bound _ _ none _) =>
    failWith .reference s!"cannot assign to uninitialized binding `{name}`"
  | some (.bound holder original (some _) .mutable) => bind holder original (.held value .mutable)
  | some (.bound _ _ (some _) kind) =>
    if kind ≠ .selfName || isStrict then
      failWith .type s!"cannot mutate an immutable binding '{name}'"
  | some (.member object) =>
    setMember isStrict (.object object) (Text.Units.ofString name) value
  | none =>
    if isStrict then
      failWith .reference s!"cannot assign to uninitialized global property `{name}`"
    else setMember false Intrinsic.global.value (Text.Units.ofString name) value

def initName (scope : ScopeId) (name : String) (value : Value) : Action PUnit := do
  match ← findName? scope name with
  | some (.bound holder original _ kind) => bind holder original (.held value kind)
  | _ => pure ()

def deleteName (scope : ScopeId) (name : String) : Action Bool := do
  match ← findName? scope name with
  | some (.bound _ _ _ _) => pure false
  | some (.member object) => deleteMember false (.object object) (Text.Units.ofString name)
  | none => pure true

def World.functionScope (w : World) : (fuel : Nat) → ScopeId → ScopeId
  | 0, id => id
  | fuel + 1, id =>
    let scope := w.scope id
    if scope.isFunction then id
    else
      match scope.parent with
      | some parent => w.functionScope fuel parent
      | none => id

def declareVar (scope : ScopeId) (isDeletable : Bool) (name : String) : Action PUnit := do
  let found := (← get).scope scope
  match found.object with
  | some object => do
    let units := Text.Units.ofString name
    if !(← hasOwn object units) then
      putOwn object units { value := .undefined, configurable := isDeletable }
  | none =>
    if !found.bindings.any (·.1 = name) then bind scope name (.held (some .undefined) .mutable)

def declareFunction (scope : ScopeId) (isDeletable : Bool) (name : String) (value : Value) :
    Action PUnit := do
  match ((← get).scope scope).object with
  | some object => do
    let units := Text.Units.ofString name
    match ← ownMember? object units with
    | some old => putOwn object units (if old.configurable then
        { value, configurable := isDeletable } else { old with value })
    | none => putOwn object units { value, configurable := isDeletable }
  | none => bind scope name (.held (some value) .mutable)

end Isolate.Script
