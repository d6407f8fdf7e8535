/-!
# JSON values

A value keeps the members of an object in the order in which they were written, repeated names
included. A number is an integer when it was written without point and exponent and fits in 64 bits,
signed or unsigned, and a double otherwise; a negative zero is a double.
-/

namespace Isolate

/-- A JSON value. -/
inductive Json where
  | null
  | bool (value : Bool)
  | int (value : Int)
  | real (value : Float)
  | string (value : String)
  | array (items : List Json)
  | object (members : List (String × Json))
  deriving Repr, Inhabited, BEq

namespace Json

def lookup (name : String) : List (String × Json) → Option Json
  | [] => none
  | (key, value) :: rest =>
    match lookup name rest with
    | some later => some later
    | none => if key = name then some value else none

def get? (json : Json) (name : String) : Option Json :=
  match json with
  | object members => lookup name members
  | _ => none

def objectOfPresent (members : List (String × Option Json)) : Json :=
  object (members.filterMap fun (name, value) => value.map (name, ·))

def orNull : Option Json → Json
  | some value => value
  | none => null

end Json
end Isolate
