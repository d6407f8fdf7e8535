import Isolate.Script.Realm

/-!
# Members of objects

Reading, writing, defining and deleting members. A member that an object lacks is read from its
prototype, and so on. Arrays keep their length one above their last index, and the exports of a module
are read from the scopes that bind them.
-/

namespace Isolate.Script

namespace Properties

def get? (members : Properties) (name : Text.Units) : Option Property := members.lookup name

/-- The members with one of them replaced, or added behind the others. -/
def insert (members : Properties) (name : Text.Units) (property : Property) : Properties :=
  match members with
  | [] => [(name, property)]
  | (key, old) :: rest =>
    if key = name then (name, property) :: rest else (key, old) :: insert rest name property

def erase (members : Properties) (name : Text.Units) : Properties := members.filter (·.1 ≠ name)

end Properties

def digitsValue? (value : Nat) : Text.Units → Option Nat
  | [] => some value
  | u :: rest =>
    if 0x30 ≤ u && u ≤ 0x39 then digitsValue? (10 * value + (u.toNat - 0x30)) rest else none

/-- The index that a name is written as: decimal digits without a leading zero. -/
def indexOf? (name : Text.Units) : Option Nat :=
  match name with
  | [] => none
  | [0x30] => some 0
  | u :: rest => if u = 0x30 || rest.length > 9 then none else digitsValue? 0 (u :: rest)

def indexName (index : Nat) : Text.Units := Text.Units.ofString (toString index)

/-- The name of the member that holds how long something is. -/
def lengthName : Text.Units := Text.Units.ofString "length"

def protoName : Text.Units := Text.Units.ofString "__proto__"

namespace World

def object (w : World) (id : ObjectId) : Object := w.objects.getD id default

def modifyObject (w : World) (id : ObjectId) (f : Object → Object) : World :=
  { w with objects := w.objects.modify id f }

/-- Let code see a value. An error that no code has seen is an object like any other from then on. -/
def expose (w : World) : Value → World
  | .object id => w.modifyObject id fun o => { o with fresh := false }
  | _ => w

def scope (w : World) (id : ScopeId) : Scope := w.scopes.getD id default

def modifyScope (w : World) (id : ScopeId) (f : Scope → Scope) : World :=
  { w with scopes := w.scopes.modify id f }

/-- What a name is bound to in a scope itself, past an alias. -/
def binding? (w : World) (id : ScopeId) (name : String) : Option Binding :=
  match (w.scope id).bindings.lookup name with
  | some (.alias target original) => (w.scope target).bindings.lookup original
  | found => found

def hasAncestor (w : World) (id : ObjectId) : (fuel : Nat) → Option ObjectId → Bool
  | 0, _ => false
  | _, none => false
  | fuel + 1, some o => o = id || hasAncestor w id fuel (w.object o).proto

end World

def allocate (object : Object) : Action ObjectId := do
  let w ← get
  set { w with objects := w.objects.push object }
  pure w.objects.size

def newObject : Action ObjectId := allocate { proto := some Intrinsic.objectPrototype.id }

def newArray (items : List Value) : Action ObjectId :=
  allocate
    { proto := some Intrinsic.arrayPrototype.id, nature := .array items.length
      properties := items.mapIdx fun index item => (indexName index, { value := item }) }

def newScope (scope : Scope) : Action ScopeId := do
  let w ← get
  set { w with scopes := w.scopes.push scope }
  pure w.scopes.size

def fail {α : Type} (value : Value) : Action α := do throw (.thrown value (← get).here)

/-- An error that says a text and knows no site. -/
def Object.error (kind : ErrorKind) (message : String) : Object :=
  { proto := some (Intrinsic.errorPrototype kind).id, nature := .error kind none
    properties :=
      [(Text.Units.ofString "message", .hidden (.string (Text.Units.ofString message)))] }

def newError (kind : ErrorKind) (message : String) : Action Value := do
  pure (.object (← allocate (.error kind message)))

def newFailure (kind : ErrorKind) (message : String) : Action Value := do
  pure (.object (← allocate { Object.error kind message with fresh := true }))

def failWith {α : Type} (kind : ErrorKind) (message : String) : Action α := do
  fail (← newFailure kind message)

/-- Fail because a value has no members. -/
def failNoObject {α : Type} : Action α :=
  failWith .type "cannot convert 'null' or 'undefined' to object"

/-- The value that a module exports under a name, if it has one yet. -/
def exportedValue (name : Text.Units) (scope : ScopeId) (localName : String) : Action Value := do
  match (← get).binding? scope localName with
  | some (.held (some value) _) => pure value
  | _ =>
    let shown := name.toString
    failWith .reference s!"cannot get uninitialized import `{shown}`"

def ownMember? (id : ObjectId) (name : Text.Units) : Action (Option Property) := do
  let object := (← get).object id
  match object.nature with
  | .array length =>
    if name = lengthName then
      pure (some
        { value := .number (.ofNat length), enumerable := false, configurable := false })
    else pure (Properties.get? object.properties name)
  | .wrapper (.string s) =>
    if name = lengthName then pure (some (.permanent (.number (.ofNat s.length))))
    else
      match (indexOf? name).bind (s[·]?) with
      | some u =>
        pure (some { value := .string [u], writable := false, configurable := false })
      | none => pure (Properties.get? object.properties name)
  | .space exports =>
    match exports.lookup name with
    | some (scope, localName) =>
      pure (some { value := ← exportedValue name scope localName, configurable := false })
    | none => pure none
  | _ => pure (Properties.get? object.properties name)

def hasOwn (id : ObjectId) (name : Text.Units) : Action Bool := do
  match ((← get).object id).nature with
  | .space exports => pure (exports.lookup name).isSome
  | _ => pure (← ownMember? id name).isSome

def computedMember? (holder : ObjectId) (receiver : Value) (name : Text.Units) :
    Action (Option Value) := do
  let w ← get
  match receiver with
  | .object id =>
    if holder = Intrinsic.objectPrototype.id && name = protoName then
      match (w.object id).proto with
      | some proto => pure (some (.object proto))
      | none => pure (some .null)
    else if holder = Intrinsic.bufferPrototype.id && name = Text.Units.ofString "byteLength" then
      match (w.object id).nature with
      | .buffer bytes => pure (some (.number (.ofNat bytes.length)))
      | _ => pure none
    else pure none
  | _ => pure none

def memberFrom (receiver : Value) (name : Text.Units) :
    (fuel : Nat) → Option ObjectId → Action (Option Value)
  | 0, _ => pure none
  | _, none => pure none
  | fuel + 1, some id => do
    match ← ownMember? id name with
    | some property => pure (some property.value)
    | none =>
      match ← computedMember? id receiver name with
      | some value => pure (some value)
      | none => memberFrom receiver name fuel ((← get).object id).proto

def prototypeOf? : Value → Option ObjectId
  | .bool _ => some Intrinsic.booleanPrototype.id
  | .number _ => some Intrinsic.numberPrototype.id
  | .string _ => some Intrinsic.stringPrototype.id
  | .object id => some id
  | .undefined => none
  | .null => none

def getMember (base : Value) (name : Text.Units) : Action Value := do
  match base with
  | .undefined => failNoObject
  | .null => failNoObject
  | base =>
    let direct : Option Value :=
      match base with
      | .string s =>
        if name = lengthName then some (.number (.ofNat s.length))
        else ((indexOf? name).bind (s[·]?)).map fun u => .string [u]
      | _ => none
    match direct with
    | some value => pure value
    | none =>
      let found ← memberFrom base name ((← get).objects.size + 1) (prototypeOf? base)
      pure (found.getD .undefined)

def hasMember (name : Text.Units) : (fuel : Nat) → Option ObjectId → Action Bool
  | 0, _ => pure false
  | _, none => pure false
  | fuel + 1, some id => do
    if ← hasOwn id name then pure true
    else if (← computedMember? id (.object id) name).isSome then pure true
    else hasMember name fuel ((← get).object id).proto

def World.searchDepth (w : World) : Nat := w.objects.size + 1

/-- Write a member that an object has of its own, or add it. -/
def putOwn (id : ObjectId) (name : Text.Units) (property : Property) : Action PUnit :=
  modify fun w => w.modifyObject id fun o =>
    { o with
      properties := Properties.insert o.properties name property
      nature :=
        match o.nature, indexOf? name with
        | .array length, some index => .array (max length (index + 1))
        | nature, _ => nature }

def setLength (id : ObjectId) (length : Nat) : Action PUnit :=
  modify fun w => w.modifyObject id fun o =>
    match o.nature with
    | .array _ =>
      { o with
        nature := .array length
        properties := o.properties.filter fun (name, _) =>
          match indexOf? name with
          | some index => index < length
          | none => true }
    | _ => o

/-- Whether some prototype keeps a member from being assigned, or takes the assignment over. -/
inductive Assignment where
  | add
  | refuse
  | setPrototype

def assignmentFrom (name : Text.Units) : (fuel : Nat) → Option ObjectId → Action Assignment
  | 0, _ => pure .add
  | _, none => pure .add
  | fuel + 1, some id => do
    match ← ownMember? id name with
    | some property => pure (if property.writable then .add else .refuse)
    | none =>
      if id = Intrinsic.objectPrototype.id && name = protoName then pure .setPrototype
      else if id = Intrinsic.bufferPrototype.id && name = Text.Units.ofString "byteLength" then
        pure .refuse
      else assignmentFrom name fuel ((← get).object id).proto

def changePrototype (id : ObjectId) (value : Value) : Action PUnit := do
  let put (proto : Option ObjectId) : Action PUnit :=
    modify fun w => w.modifyObject id fun o => { o with proto }
  match value with
  | .null => put none
  | .object proto => do
    let w ← get
    if w.hasAncestor id w.searchDepth (some proto) then
      failWith .type "cyclic prototype chain"
    else put (some proto)
  | _ => pure ()

/-- Assign a member of an object. The result says whether the object took it. -/
def setOwnOrAdd (id : ObjectId) (name : Text.Units) (value : Value) : Action Bool := do
  let w ← get
  let object := w.object id
  match object.nature with
  | .space _ => pure false
  | _ =>
    match ← ownMember? id name with
    | some property =>
      if !property.writable then pure false
      else
        match object.nature, value with
        | .array _, .number n =>
          if name = lengthName then
            match n with
            | .int (.ofNat length) => do
              setLength id length
              pure true
            | _ => failWith .range "invalid array length"
          else do
            putOwn id name { property with value }
            pure true
        | _, _ => do
          putOwn id name { property with value }
          pure true
    | none =>
      match ← assignmentFrom name w.searchDepth object.proto with
      | .refuse => pure false
      | .setPrototype => do
        changePrototype id value
        pure true
      | .add =>
        if object.extensible then do
          putOwn id name { value }
          pure true
        else pure false

/-- Assign a member; strict code fails if it cannot be assigned. -/
def setMember (isStrict : Bool) (base : Value) (name : Text.Units) (value : Value) : Action PUnit := do
  let done ←
    match base with
    | .undefined => failNoObject
    | .null => failNoObject
    | .object id => setOwnOrAdd id name value
    | _ => pure false
  if !done && isStrict then
    let shown := name.toString
    failWith .type s!"cannot set non-writable property: {shown}"

/-- Delete a member; strict code fails if it cannot be deleted. -/
def deleteMember (isStrict : Bool) (base : Value) (name : Text.Units) : Action Bool := do
  let done ←
    match base with
    | .undefined => failNoObject
    | .null => failNoObject
    | .object id =>
      match ((← get).object id).nature with
      | .space exports => pure (exports.lookup name).isNone
      | _ =>
        match ← ownMember? id name with
        | none => pure true
        | some property =>
          if property.configurable then do
            modify fun w => w.modifyObject id fun o =>
              { o with properties := Properties.erase o.properties name }
            pure true
          else pure false
    | .string s =>
      pure (name ≠ lengthName && ((indexOf? name).bind (s[·]?)).isNone)
    | _ => pure true
  if !done && isStrict then failWith .type "Cannot delete property" else pure done

def insertIndex (index : Nat) : List Nat → List Nat
  | [] => [index]
  | i :: rest => if index ≤ i then index :: i :: rest else i :: insertIndex index rest

/-- The names of an object's own members: indices in ascending order, then the other names in the
order in which they were added. -/
def ownNames (object : Object) : List Text.Units :=
  match object.nature with
  | .space exports => exports.map (·.1)
  | nature =>
    let names := object.properties.map (·.1)
    let indices := (names.filterMap indexOf?).foldl (fun sorted index => insertIndex index sorted) []
    let characters :=
      match nature with
      | .wrapper (.string s) => (List.range s.length).map indexName
      | _ => []
    characters ++ indices.map indexName ++ names.filter fun name => (indexOf? name).isNone

/-- The names of an object's own members that loops over it see. -/
def visibleNames (id : ObjectId) : Action (List Text.Units) := do
  (ownNames ((← get).object id)).filterM fun name => do
    match ← ownMember? id name with
    | some property => pure property.enumerable
    | none => pure false

def defineMember (id : ObjectId) (name : Text.Units) (value : Value) : Action PUnit :=
  putOwn id name { value }

def callable? (w : World) : Value → Option Callable
  | .object id =>
    match (w.object id).nature with
    | .function callable => some callable
    | _ => none
  | _ => none

def isCallable (value : Value) : Action Bool := do pure (callable? (← get) value).isSome

end Isolate.Script
