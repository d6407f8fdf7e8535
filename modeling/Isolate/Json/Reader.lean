import Isolate.Json.Cursor
import Isolate.Json.Value

/-!
# Reading JSON values

Readers of lists, of the members of an object, of any value, and of a value to be passed over. A
value read as such may hold at most 127 lists and objects inside each other; a value passed over may
hold any number.
-/

namespace Isolate.Json

/-- The longest chain of lists and objects inside each other, plus one. -/
def depthLimit : Nat := 128

def closeList : Reader Unit := fun cursor =>
  let cursor := cursor.skipSpaces
  match cursor.peek with
  | none => cursor.faultAhead .endInList
  | some b =>
    if b = 0x5d then .value () cursor.next
    else if b = 0x2c then
      let cursor := cursor.next.skipSpaces
      if cursor.sees (· = 0x5d) then cursor.faultAhead .trailingComma
      else cursor.faultAhead .trailingCharacters
    else cursor.faultAhead .trailingCharacters

def closeObject : Reader Unit := fun cursor =>
  let cursor := cursor.skipSpaces
  match cursor.peek with
  | none => cursor.faultAhead .endInObject
  | some b =>
    if b = 0x7d then .value () cursor.next
    else if b = 0x2c then cursor.faultAhead .trailingComma
    else cursor.faultAhead .trailingCharacters

def stopInList (cursor : Cursor) : Cursor :=
  let cursor := cursor.skipSpaces
  if cursor.sees (· = 0x5d) then cursor.next
  else if cursor.sees (· = 0x2c) then cursor.next.skipSpaces
  else cursor

def stopInObject (cursor : Cursor) : Cursor :=
  let cursor := cursor.skipSpaces
  if cursor.sees (· = 0x7d) then cursor.next else cursor

/-- Read the inside of a list whose bracket is in front, then its end. -/
def inList {α : Type} (inside : Reader α) : Reader α := fun cursor =>
  match inside cursor.next with
  | .value a after => (closeList after).map fun _ => a
  | .fault f => .fault f
  | .unplaced cause after =>
    let stop := stopInList after
    .fault ⟨cause, stop.line, stop.column⟩

/-- Read the inside of an object whose brace is in front, then its end. -/
def inObject {α : Type} (inside : Reader α) : Reader α := fun cursor =>
  match inside cursor.next with
  | .value a after => (closeObject after).map fun _ => a
  | .fault f => .fault f
  | .unplaced cause after =>
    let stop := stopInObject after
    .fault ⟨cause, stop.line, stop.column⟩

/-- Whether a further element of a list follows; the cursor then stands before it. -/
def nextElement (first : Bool) : Reader Bool := fun cursor =>
  let cursor := cursor.skipSpaces
  match cursor.peek with
  | none => cursor.faultAhead .endInList
  | some b =>
    if b = 0x5d then .value false cursor
    else if first then .value true cursor
    else if b = 0x2c then
      let cursor := cursor.next.skipSpaces
      match cursor.peek with
      | none => cursor.faultAhead .endInValue
      | some b => if b = 0x5d then cursor.faultAhead .trailingComma else .value true cursor
    else cursor.faultAhead .expectedCommaOrBracket

/-- Whether a further member of an object follows; the cursor then stands before its name. -/
def nextMember (first : Bool) : Reader Bool := fun cursor =>
  let cursor := cursor.skipSpaces
  match cursor.peek with
  | none => cursor.faultAhead .endInObject
  | some b =>
    if b = 0x7d then .value false cursor
    else if first then
      if b = 0x22 then .value true cursor else cursor.faultAhead .keyNotString
    else if b = 0x2c then
      let cursor := cursor.next.skipSpaces
      match cursor.peek with
      | none => cursor.faultAhead .endInValue
      | some b =>
        if b = 0x22 then .value true cursor
        else if b = 0x7d then cursor.faultAhead .trailingComma
        else cursor.faultAhead .keyNotString
    else cursor.faultAhead .expectedCommaOrBrace

def colon : Reader Unit := fun cursor =>
  let cursor := cursor.skipSpaces
  match cursor.peek with
  | none => cursor.faultAhead .endInObject
  | some b => if b = 0x3a then .value () cursor.next else cursor.faultAhead .expectedColon

/-- Read the elements of a list up to its end. The fuel is at least the number of bytes left. -/
def elements {α : Type} (element : Reader α) : (fuel : Nat) → (first : Bool) → Reader (List α)
  | 0, _, cursor => cursor.faultHere .endInList
  | fuel + 1, first, cursor =>
    (nextElement first cursor).andThen fun more cursor =>
      if more then
        (element cursor).andThen fun a cursor =>
          (elements element fuel false cursor).map (a :: ·)
      else .value [] cursor

/-- Read the members of an object up to its end, folding them into a state. The fuel is at least the
number of bytes left. -/
def members {σ : Type} (member : String → σ → Reader σ) :
    (fuel : Nat) → (first : Bool) → σ → Reader σ
  | 0, _, _, cursor => cursor.faultHere .endInObject
  | fuel + 1, first, state, cursor =>
    (nextMember first cursor).andThen fun more cursor =>
      if more then
        (stringTail cursor.next).andThen fun name cursor =>
          (member name state cursor).andThen fun state cursor =>
            members member fuel false state cursor
      else .value state cursor

def Numeral.toJson : Numeral → Json
  | .int n => .int n
  | .real f => .real f

/-- Read a value; `depth` more lists and objects may be opened inside each other. -/
def anyValue : (depth : Nat) → Reader Json
  | 0, cursor => cursor.faultAhead .tooDeep
  | depth + 1, cursor =>
    let cursor := cursor.skipSpaces
    match cursor.peek with
    | none => cursor.faultAhead .endInValue
    | some b =>
      if b = 0x6e then (word [0x75, 0x6c, 0x6c] cursor.next).map fun _ => .null
      else if b = 0x74 then (word [0x72, 0x75, 0x65] cursor.next).map fun _ => .bool true
      else if b = 0x66 then (word [0x61, 0x6c, 0x73, 0x65] cursor.next).map fun _ => .bool false
      else if b = 0x2d || isDigitByte b then (numeral cursor).map Numeral.toJson
      else if b = 0x22 then (stringTail cursor.next).map .string
      else if b = 0x5b then
        if depth = 0 then cursor.faultAhead .tooDeep
        else
          inList (fun cursor =>
            (elements (anyValue depth) (cursor.rest.length + 1) true cursor).map .array) cursor
      else if b = 0x7b then
        if depth = 0 then cursor.faultAhead .tooDeep
        else
          inObject (fun cursor =>
            (members (fun name (found : List (String × Json)) cursor =>
                (colon cursor).andThen fun _ cursor =>
                  (anyValue depth cursor).map fun value => (name, value) :: found)
              (cursor.rest.length + 1) true [] cursor).map fun found => .object found.reverse) cursor
      else cursor.faultAhead .expectedValue

/-- Nothing but blanks may follow. -/
def finish {α : Type} (outcome : Outcome α) : Except Fault α :=
  match outcome.placed with
  | .value a cursor =>
    let cursor := cursor.skipSpaces
    match cursor.peek with
    | none => .ok a
    | some _ =>
      let stop := cursor.next
      .error ⟨.trailingCharacters, stop.line, stop.column⟩
  | .fault f => .error f
  | .unplaced cause cursor => .error ⟨cause, cursor.line, cursor.column⟩

def readText {α : Type} (reader : Reader α) (text : String) : Except Fault α :=
  finish (reader (Cursor.start (Text.Utf8.encode text.toList)))

def ofText (text : String) : Except Fault Json := readText (anyValue depthLimit) text

/-- A list or an object around the place reached. -/
inductive Frame where
  | list
  | object
  deriving DecidableEq

def someDigits (cause : Cursor → Outcome Unit) (next : Reader Unit) : Reader Unit := fun cursor =>
  if cursor.sees isDigitByte then next cursor.skipDigits else cause cursor

def skipExponent : Reader Unit := fun cursor =>
  let cursor := cursor.next
  let cursor := if cursor.sees (fun b => b = 0x2b || b = 0x2d) then cursor.next else cursor
  someDigits (fun cursor => cursor.next.faultHere .invalidNumber) (fun cursor => .value () cursor)
    cursor

/-- Pass what follows the whole part of a number. -/
def skipFraction : Reader Unit := fun cursor =>
  if cursor.sees (· = 0x2e) then
    someDigits (fun cursor => cursor.faultAhead .invalidNumber)
      (fun cursor => if cursor.sees isExponentMark then skipExponent cursor else .value () cursor)
      cursor.next
  else if cursor.sees isExponentMark then skipExponent cursor
  else .value () cursor

def skipNumeral : Reader Unit := fun cursor =>
  if cursor.sees (· = 0x30) then
    let cursor := cursor.next
    if cursor.sees isDigitByte then cursor.faultAhead .invalidNumber else skipFraction cursor
  else if cursor.sees isDigitByte then skipFraction cursor.skipDigits
  else cursor.next.faultHere .invalidNumber

/-- Pass a value that is no list and no object, or the opening of one. -/
def skipOpening : Reader (Option Frame) := fun cursor =>
  let cursor := cursor.skipSpaces
  match cursor.peek with
  | none => cursor.faultAhead .endInValue
  | some b =>
    if b = 0x6e then (word [0x75, 0x6c, 0x6c] cursor.next).map fun _ => none
    else if b = 0x74 then (word [0x72, 0x75, 0x65] cursor.next).map fun _ => none
    else if b = 0x66 then (word [0x61, 0x6c, 0x73, 0x65] cursor.next).map fun _ => none
    else if b = 0x2d then (skipNumeral cursor.next).map fun _ => none
    else if isDigitByte b then (skipNumeral cursor).map fun _ => none
    else if b = 0x22 then (skipString (cursor.rest.length + 1) cursor.next).map fun _ => none
    else if b = 0x5b then .value (some .list) cursor.next
    else if b = 0x7b then .value (some .object) cursor.next
    else cursor.faultAhead .expectedValue

/-- Pass the ends of lists and objects, innermost first, up to the comma before a further element or
up to the first element. The result holds the frames still open. -/
def skipClosings : (afterElement : Bool) → List Frame → Reader (List Frame)
  | _, [], cursor => .value [] cursor
  | afterElement, frame :: outer, cursor =>
    let cursor := cursor.skipSpaces
    match cursor.peek with
    | none => cursor.faultAhead (match frame with | .list => .endInList | .object => .endInObject)
    | some b =>
      if afterElement && b = 0x2c then .value (frame :: outer) cursor.next
      else if (b = 0x5d && frame = .list) || (b = 0x7d && frame = .object) then
        skipClosings true outer cursor.next
      else if afterElement then
        cursor.faultAhead
          (match frame with | .list => .expectedCommaOrBracket | .object => .expectedCommaOrBrace)
      else .value (frame :: outer) cursor

def skipName : Reader Unit := fun cursor =>
  let cursor := cursor.skipSpaces
  match cursor.peek with
  | none => cursor.faultAhead .endInObject
  | some b =>
    if b = 0x22 then
      (skipString (cursor.rest.length + 1) cursor.next).andThen fun _ cursor =>
        let cursor := cursor.skipSpaces
        match cursor.peek with
        | none => cursor.faultAhead .endInObject
        | some b => if b = 0x3a then .value () cursor.next else cursor.faultAhead .expectedColon
    else cursor.faultAhead .keyNotString

/-- Pass a value inside the given frames and everything up to their ends. The fuel is at least the
number of bytes left. -/
def skipWithin : (fuel : Nat) → List Frame → Reader Unit
  | 0, _, cursor => cursor.faultHere .endInValue
  | fuel + 1, frames, cursor =>
    (skipOpening cursor).andThen fun opened cursor =>
      let (afterElement, frames) :=
        match opened with
        | some frame => (false, frame :: frames)
        | none => (true, frames)
      (skipClosings afterElement frames cursor).andThen fun frames cursor =>
        match frames with
        | [] => .value () cursor
        | .object :: _ => (skipName cursor).andThen fun _ cursor => skipWithin fuel frames cursor
        | .list :: _ => skipWithin fuel frames cursor

def skipValue : Reader Unit := fun cursor => skipWithin (cursor.rest.length + 1) [] cursor

/-- Refuse the value in front because another type was expected. -/
def wrongType {α : Type} (expected : String) : Reader α := fun cursor =>
  let refuse (found : Found) : Reader α := fun cursor =>
    cursor.faultHere (.invalidType found expected)
  match cursor.peek with
  | none => cursor.faultAhead .expectedValue
  | some b =>
    if b = 0x6e then
      (word [0x75, 0x6c, 0x6c] cursor.next).andThen fun _ => refuse .null
    else if b = 0x74 then
      (word [0x72, 0x75, 0x65] cursor.next).andThen fun _ => refuse (.bool true)
    else if b = 0x66 then
      (word [0x61, 0x6c, 0x73, 0x65] cursor.next).andThen fun _ => refuse (.bool false)
    else if b = 0x2d || isDigitByte b then
      (numeral cursor).andThen fun
        | .int n => refuse (.int n)
        | .real f => refuse (.real f)
    else if b = 0x22 then (stringTail cursor.next).andThen fun text => refuse (.string text)
    else if b = 0x5b then refuse .sequence cursor
    else if b = 0x7b then refuse .map cursor
    else cursor.faultAhead .expectedValue

/-- Read the value in front of the cursor, blanks passed, by its first byte. -/
def onFirstByte {α : Type} (read : UInt8 → Reader α) : Reader α := fun cursor =>
  let cursor := cursor.skipSpaces
  match cursor.peek with
  | none => cursor.faultAhead .endInValue
  | some b => read b cursor

def stringValue (expected : String) : Reader String :=
  onFirstByte fun b cursor =>
    if b = 0x22 then stringTail cursor.next else wrongType expected cursor

def boolValue : Reader Bool :=
  onFirstByte fun b cursor =>
    if b = 0x74 then (word [0x72, 0x75, 0x65] cursor.next).map fun _ => true
    else if b = 0x66 then (word [0x61, 0x6c, 0x73, 0x65] cursor.next).map fun _ => false
    else wrongType "a boolean" cursor

def unsignedValue (expected : String) : Reader Nat :=
  onFirstByte fun b cursor =>
    if b = 0x2d || isDigitByte b then
      (numeral cursor).andThen fun
        | .int (.ofNat n) => fun cursor => .value n cursor
        | .int (.negSucc n) => fun cursor =>
          cursor.faultHere (.invalidValue (.int (.negSucc n)) expected)
        | .real f => fun cursor => cursor.faultHere (.invalidType (.real f) expected)
    else wrongType expected cursor

def listValue {α : Type} (element : Reader α) : Reader (List α) :=
  onFirstByte fun b cursor =>
    if b = 0x5b then
      inList (fun cursor => elements element (cursor.rest.length + 1) true cursor) cursor
    else wrongType "a sequence" cursor

/-- Read a record, written as an object or as the list of its fields in order. -/
def recordValue {α : Type} (name : String) (fromList fromObject : Reader α) : Reader α :=
  onFirstByte fun b cursor =>
    if b = 0x5b then inList fromList cursor
    else if b = 0x7b then inObject fromObject cursor
    else wrongType s!"struct {name}" cursor

def fieldOnce {α : Type} (name : String) (field : Option α) (value : Reader α) : Reader α :=
  fun cursor =>
    if field.isSome then .unplaced (.duplicateField name) cursor
    else (colon cursor).andThen fun _ cursor => value cursor

def fieldIgnored : Reader Unit := fun cursor =>
  (colon cursor).andThen fun _ cursor => skipValue cursor

/-- Read the element of a list for a field, if the list goes on. -/
def element? {α : Type} (first : Bool) (value : Reader α) : Reader (Option α) := fun cursor =>
  (nextElement first cursor).andThen fun more cursor =>
    if more then (value cursor).map some else .value none cursor

end Isolate.Json
