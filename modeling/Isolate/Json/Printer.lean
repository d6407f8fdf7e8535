import Isolate.Json.Value
import Isolate.Decimal.Layout
import Isolate.Text.Quoted

/-!
# Writing JSON values

The compact form has no blanks. The indented form puts every element and member on a line of its own,
two more blanks in than the bracket around it; an empty list or object stays on one line. In a string
a quotation mark, a backslash and the control characters are escaped, and all else stands for itself.
-/

namespace Isolate.Json

def escapeStringChar (c : Char) : List Char :=
  match c with
  | '"' => ['\\', '"']
  | '\\' => ['\\', '\\']
  | '\n' => ['\\', 'n']
  | '\t' => ['\\', 't']
  | '\r' => ['\\', 'r']
  | '\x08' => ['\\', 'b']
  | '\x0c' => ['\\', 'f']
  | c =>
    if c.toNat < 32 then
      ['\\', 'u', '0', '0', Text.hexDigit (c.toNat / 16), Text.hexDigit (c.toNat % 16)]
    else [c]

def writeString (text : String) : List Char :=
  '"' :: text.toList.flatMap escapeStringChar ++ ['"']

/-- A double; JSON has no text for one that is not finite, and null stands for it. -/
def writeReal (f : Float) : List Char :=
  match Decimal.Parts.ofBits f.toBits with
  | .notANumber => "null".toList
  | .infinite _ => "null".toList
  | parts => Decimal.jsonLayout.writeParts parts

def writeInt : Int → List Char
  | .ofNat n => Nat.toDigits 10 n
  | .negSucc n => '-' :: Nat.toDigits 10 (n + 1)

mutual

def write : Json → List Char
  | .null => "null".toList
  | .bool true => "true".toList
  | .bool false => "false".toList
  | .int n => writeInt n
  | .real f => writeReal f
  | .string text => writeString text
  | .array items => '[' :: writeItems items
  | .object members => '{' :: writeMembers members

def writeItems : List Json → List Char
  | [] => [']']
  | [item] => write item ++ [']']
  | item :: next :: rest => write item ++ ',' :: writeItems (next :: rest)

def writeMembers : List (String × Json) → List Char
  | [] => ['}']
  | [(name, value)] => writeString name ++ ':' :: (write value ++ ['}'])
  | (name, value) :: next :: rest =>
    writeString name ++ ':' :: (write value ++ ',' :: writeMembers (next :: rest))

end

def toText (json : Json) : String := String.ofList (write json)

def newLine (depth : Nat) : List Char := '\n' :: List.replicate (2 * depth) ' '

mutual

/-- The indented form of a value inside `depth` brackets. -/
def writeIndented (depth : Nat) : Json → List Char
  | .array [] => ['[', ']']
  | .array (item :: rest) => '[' :: writeIndentedItems depth (item :: rest)
  | .object [] => ['{', '}']
  | .object (member :: rest) => '{' :: writeIndentedMembers depth (member :: rest)
  | json => write json

/-- The elements of a list, each on its line, and the closing bracket. -/
def writeIndentedItems (depth : Nat) : List Json → List Char
  | [] => newLine depth ++ [']']
  | [item] => newLine (depth + 1) ++ writeIndented (depth + 1) item ++ newLine depth ++ [']']
  | item :: next :: rest =>
    newLine (depth + 1) ++ writeIndented (depth + 1) item
      ++ ',' :: writeIndentedItems depth (next :: rest)

/-- The members of an object, each on its line, and the closing brace. -/
def writeIndentedMembers (depth : Nat) : List (String × Json) → List Char
  | [] => newLine depth ++ ['}']
  | [(name, value)] =>
    newLine (depth + 1) ++ writeString name ++ ':' :: ' ' :: writeIndented (depth + 1) value
      ++ newLine depth ++ ['}']
  | (name, value) :: next :: rest =>
    newLine (depth + 1) ++ writeString name ++ ':' :: ' ' :: writeIndented (depth + 1) value
      ++ ',' :: writeIndentedMembers depth (next :: rest)

end

def toIndentedText (json : Json) : String := String.ofList (writeIndented 0 json)

def insertMember (name : String) (value : Json) : List (String × Json) → List (String × Json)
  | [] => [(name, value)]
  | (key, old) :: rest =>
    if name < key then (name, value) :: (key, old) :: rest
    else if name = key then (key, value) :: rest
    else (key, old) :: insertMember name value rest

mutual

/-- The value with the members of every object in ascending order of their names, the last of each
name kept. -/
def sorted : Json → Json
  | .array items => .array (sortedItems items)
  | .object members => .object (sortedMembers members)
  | json => json

def sortedItems : List Json → List Json
  | [] => []
  | item :: rest => sorted item :: sortedItems rest

def sortedMembers : List (String × Json) → List (String × Json)
  | [] => []
  | (name, value) :: rest =>
    let rest := sortedMembers rest
    if rest.any (·.1 = name) then rest else insertMember name (sorted value) rest

end

end Isolate.Json
