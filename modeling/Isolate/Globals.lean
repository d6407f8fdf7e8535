import Isolate.Json.Printer
import Isolate.Script.Machine

/-!
# Global names given by the host

The host gives a worker's code values and functions under global names. A later binding of a name
takes the place of an earlier one.
-/

namespace Isolate

/-- What a global name is bound to. -/
inductive Globals.Entry where
  | value (json : Json)
  /-- A function with a declared number of parameters that records its first argument. -/
  | recorder (length : Nat)

abbrev Globals := List (String × Globals.Entry)

namespace Globals
open Script

mutual

def toValue : Json → Action Value
  | .null => pure .null
  | .bool b => pure (.bool b)
  | .int n => pure (.number (.ofInt n))
  | .real f => pure (.number (.ofFloat f))
  | .string s => pure (.ofString s)
  | .array items => do pure (.object (← newArray (← itemValues items)))
  | .object members => do
    let id ← newObject
    defineMembers id members
    pure (.object id)

/-- The values of JSON values. -/
def itemValues : List Json → Action (List Value)
  | [] => pure []
  | item :: rest => do
    let value ← toValue item
    pure (value :: (← itemValues rest))

def defineMembers (id : ObjectId) : List (String × Json) → Action PUnit
  | [] => pure ()
  | (name, value) :: rest => do
    defineMember id (Text.Units.ofString name) (← toValue value)
    defineMembers id rest

end

def define (name : Text.Units) (property : Property) : Action PUnit := do
  let global := Intrinsic.global.id
  match ← ownMember? global name with
  | some old =>
    if !old.configurable then
      let shown := name.toString
      failWith .type s!"cannot redefine property: {shown}"
  | none => pure ()
  putOwn global name property

def bindEntry (name : String) (entry : Entry) : Action PUnit := do
  let units := Text.Units.ofString name
  match entry with
  | .value json => do define units { value := ← toValue json.sorted }
  | .recorder length => do define units (.hidden (← newFunction .record units length))

def install (globals : Globals) : Action PUnit :=
  globals.forM fun (name, entry) => bindEntry name entry

end Globals
end Isolate
