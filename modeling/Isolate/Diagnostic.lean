import Isolate.Location
import Isolate.Text.Digit

/-!
# Where a diagnostic text points

A diagnostic text of the script engine says in words where a failure is: a parser ends its message
with `line 3, col 14`, and a stack frame is a path, a line and a column between parentheses. Of the
frames the first that lies in user code counts.
-/

namespace Isolate.Diagnostic

def afterStart? : List Char → List Char → Option (List Char)
  | [], text => some text
  | _ :: _, [] => none
  | a :: start, b :: text => if a = b then afterStart? start text else none

/-- The first line that is not blank, without the blanks around it. -/
def headline (text : List Char) : List Char :=
  match ((Text.lines text).map Text.trim).find? (!·.isEmpty) with
  | some line => line
  | none => "unknown error".toList

def digitsAtStart? (text : List Char) : Option (List Char × List Char) :=
  let digits := text.takeWhile Text.isDecimalDigit
  if digits.isEmpty then none else some (digits, text.dropWhile Text.isDecimalDigit)

def positionAtStart? (text : List Char) : Option (List Char × List Char) := do
  let (line, rest) ← digitsAtStart? (← afterStart? "line ".toList text)
  let rest ← afterStart? ", col".toList rest
  let rest ← (afterStart? "umn ".toList rest).or (afterStart? " ".toList rest)
  let (column, _) ← digitsAtStart? rest
  some (line, column)

def firstPosition? : List Char → Option (List Char × List Char)
  | [] => none
  | c :: rest =>
    match positionAtStart? (c :: rest) with
    | some position => some position
    | none => firstPosition? rest

/-- Where a parser message points inside the unit labelled `label`. If its first position holds a
number beyond 64 bits it points nowhere. -/
def compileLocation (text : List Char) (label : String) : Location :=
  match firstPosition? text with
  | none => ⟨label, none, none⟩
  | some (line, column) =>
    match Text.word? line, Text.word? column with
    | some line, some column => ⟨label, some line, some column⟩
    | _, _ => ⟨label, none, none⟩

structure Frame where
  place : List Char
  line : List Char
  column : List Char
  deriving Repr, DecidableEq

def splitAtLastColon (text : List Char) : Option (List Char × List Char) :=
  let reversed := text.reverse
  match reversed.dropWhile (· ≠ ':') with
  | [] => none
  | _ :: before => some (before.reverse, (reversed.takeWhile (· ≠ ':')).reverse)

def isNumeral (text : List Char) : Bool := !text.isEmpty && text.all Text.isDecimalDigit

/-- A place without the words for code that has no file of its own. -/
def bareName (place : List Char) : List Char :=
  ((afterStart? "unknown at ".toList place).or (afterStart? "eval at ".toList place)).getD place

def Frame.ofInside? (inside : List Char) : Option Frame := do
  let (front, column) ← splitAtLastColon inside
  let (place, line) ← splitAtLastColon front
  if isNumeral line && isNumeral column then some ⟨bareName place, line, column⟩ else none

def frames : List Char → List Frame
  | [] => []
  | c :: rest =>
    if c = '(' then
      let inside := rest.takeWhile fun c => c ≠ '(' && c ≠ ')'
      if (rest.dropWhile fun c => c ≠ '(' && c ≠ ')').head? = some ')' then
        (Frame.ofInside? inside).toList ++ frames rest
      else frames rest
    else frames rest

/-- The label of a frame: an absolute path names its own unit, and anything else the unit that was
run. -/
def Frame.label (frame : Frame) (origin : String) : String :=
  if frame.place.head? = some '/' then String.ofList frame.place else origin

/-- The location of a frame in user code; a frame of the engine itself, and one whose numbers exceed
64 bits, has none. -/
def Frame.location? (frame : Frame) (origin : String) : Option Location :=
  if (afterStart? "native".toList frame.place).isSome then none
  else
    match Text.word? frame.line, Text.word? frame.column with
    | some line, some column => some ⟨frame.label origin, some line, some column⟩
    | _, _ => none

/-- Where a failure at run time happened: in the first frame of user code, else where a parser
message points. -/
def runtimeLocation (text : List Char) (origin : String) : Location :=
  match (frames text).findSome? (·.location? origin) with
  | some location => location
  | none => compileLocation text origin

end Isolate.Diagnostic
