import Isolate.Json.Fault
import Isolate.Text.Utf8

/-!
# Reading a JSON text byte by byte

A cursor stands before a byte of the text and knows the line and the bytes already passed on it. The
readers here take blanks, words, numbers and strings. A fault is placed either at the cursor or just
behind the byte in front of it; a fault in what a text describes is first `unplaced`, because its
place is where the enclosing value ends.
-/

namespace Isolate.Json

/-- A place in a text. -/
structure Cursor where
  rest : List UInt8
  line : Nat
  column : Nat

/-- What a reader finds: a value and the place behind it, a placed fault, or a fault to be placed
where the reading stops. -/
inductive Outcome (α : Type) where
  | value (result : α) (cursor : Cursor)
  | fault (fault : Fault)
  | unplaced (cause : Cause) (cursor : Cursor)

abbrev Reader (α : Type) := Cursor → Outcome α

namespace Outcome

def andThen {α β : Type} : Outcome α → (α → Reader β) → Outcome β
  | value a cursor, next => next a cursor
  | fault f, _ => fault f
  | unplaced cause cursor, _ => unplaced cause cursor

def placed {α : Type} : Outcome α → Outcome α
  | unplaced cause cursor => fault ⟨cause, cursor.line, cursor.column⟩
  | outcome => outcome

def map {α β : Type} (f : α → β) : Outcome α → Outcome β
  | value a cursor => value (f a) cursor
  | fault f => fault f
  | unplaced cause cursor => unplaced cause cursor

end Outcome

instance : Monad Reader where
  pure a := fun cursor => .value a cursor
  bind reader next := fun cursor => (reader cursor).andThen next

namespace Cursor

def start (bytes : List UInt8) : Cursor := ⟨bytes, 1, 0⟩

def peek (cursor : Cursor) : Option UInt8 := cursor.rest.head?

/-- The place behind the byte in front. -/
def next (cursor : Cursor) : Cursor :=
  match cursor.rest with
  | [] => cursor
  | b :: rest =>
    if b = 0x0a then ⟨rest, cursor.line + 1, 0⟩ else ⟨rest, cursor.line, cursor.column + 1⟩

def faultHere {α : Type} (cursor : Cursor) (cause : Cause) : Outcome α :=
  .fault ⟨cause, cursor.line, cursor.column⟩

def faultAhead {α : Type} (cursor : Cursor) (cause : Cause) : Outcome α :=
  cursor.next.faultHere cause

def isSpace (b : UInt8) : Bool := b = 0x20 || b = 0x0a || b = 0x09 || b = 0x0d

def passSpaces : List UInt8 → (line column : Nat) → Cursor
  | [], line, column => ⟨[], line, column⟩
  | b :: rest, line, column =>
    if b = 0x0a then passSpaces rest (line + 1) 0
    else if isSpace b then passSpaces rest line (column + 1)
    else ⟨b :: rest, line, column⟩

def skipSpaces (cursor : Cursor) : Cursor := passSpaces cursor.rest cursor.line cursor.column

end Cursor

/-- An ASCII digit. -/
def isDigitByte (b : UInt8) : Bool := 0x30 ≤ b && b ≤ 0x39

def Cursor.sees (cursor : Cursor) (p : UInt8 → Bool) : Bool :=
  match cursor.peek with
  | some b => p b
  | none => false

def isExponentMark (b : UInt8) : Bool := b = 0x65 || b = 0x45

/-- Read the bytes of a word whose first byte is behind the cursor. -/
def word : List UInt8 → Reader Unit
  | [], cursor => .value () cursor
  | b :: more, cursor =>
    match cursor.peek with
    | none => cursor.faultHere .endInValue
    | some found =>
      if found = b then word more cursor.next else cursor.next.faultHere .expectedWord

inductive Numeral where
  | int (value : Int)
  | real (value : Float)

def maxUnsigned : Nat := Nat.pow 2 64 - 1

/-- The double `± significand · 10 ^ exponent`, computed with one division or multiplication by an
exact or rounded power of ten for each 308 decimal orders; `none` if it is out of range. -/
def scaleByTen : (fuel : Nat) → Float → Int → Option Float
  | 0, f, _ => some f
  | fuel + 1, f, exponent =>
    if exponent.natAbs ≤ 308 then
      let power := Float.ofScientific 1 false exponent.natAbs
      if 0 ≤ exponent then
        let product := f * power
        if product.isInf then none else some product
      else some (f / power)
    else if f == 0.0 then some f
    else if 0 ≤ exponent then none
    else scaleByTen fuel (f / 1e308) (exponent + 308)

def finishReal (positive : Bool) (significand : Nat) (exponent : Int) : Reader Numeral :=
  fun cursor =>
    match scaleByTen (exponent.natAbs / 308 + 2) significand.toUInt64.toFloat exponent with
    | some f => .value (.real (if positive then f else -f)) cursor
    | none => cursor.faultHere .numberOutOfRange

def passDigits : List UInt8 → (line column : Nat) → Cursor
  | [], line, column => ⟨[], line, column⟩
  | b :: rest, line, column =>
    if isDigitByte b then passDigits rest line (column + 1) else ⟨b :: rest, line, column⟩

def Cursor.skipDigits (cursor : Cursor) : Cursor :=
  passDigits cursor.rest cursor.line cursor.column

def maxExponent : Nat := Nat.pow 2 31 - 1

def exponentDigits (positive positiveExponent : Bool) (significand : Nat) (start : Int) :
    (value : Nat) → List UInt8 → (line column : Nat) → Outcome Numeral
  | value, [], line, column =>
    finishReal positive significand (if positiveExponent then start + value else start - value)
      ⟨[], line, column⟩
  | value, b :: rest, line, column =>
    if isDigitByte b then
      let value := 10 * value + (b.toNat - 0x30)
      if maxExponent < value then
        let cursor : Cursor := ⟨rest, line, column + 1⟩
        if significand ≠ 0 ∧ positiveExponent then cursor.faultHere .numberOutOfRange
        else .value (.real (if positive then 0.0 else -0.0)) cursor.skipDigits
      else exponentDigits positive positiveExponent significand start value rest line (column + 1)
    else
      finishReal positive significand (if positiveExponent then start + value else start - value)
        ⟨b :: rest, line, column⟩

def exponentPart (positive : Bool) (significand : Nat) (start : Int) : Reader Numeral :=
  fun cursor =>
    let cursor := cursor.next
    let negativeExponent := cursor.sees (· = 0x2d)
    let cursor := if negativeExponent || cursor.sees (· = 0x2b) then cursor.next else cursor
    match cursor.peek with
    | none => cursor.faultHere .endInValue
    | some b =>
      if isDigitByte b then
        let after := cursor.next
        exponentDigits positive (!negativeExponent) significand start (b.toNat - 0x30)
          after.rest after.line after.column
      else cursor.next.faultHere .invalidNumber

def afterFraction (positive : Bool) (significand : Nat) (exponent : Int) : Reader Numeral :=
  fun cursor =>
    if cursor.sees isExponentMark then exponentPart positive significand exponent cursor
    else finishReal positive significand exponent cursor

/-- Read the digits behind a point. Digits that no longer fit in the significand are dropped. -/
def fractionDigits (positive : Bool) (start : Int) :
    (significand count : Nat) → List UInt8 → (line column : Nat) → Outcome Numeral
  | significand, count, [], line, column =>
    if count = 0 then (Cursor.mk [] line column).faultAhead .endInValue
    else afterFraction positive significand (start - count) ⟨[], line, column⟩
  | significand, count, b :: rest, line, column =>
    if isDigitByte b then
      let larger := 10 * significand + (b.toNat - 0x30)
      if maxUnsigned < larger then
        afterFraction positive significand (start - count)
          (Cursor.mk (b :: rest) line column).skipDigits
      else fractionDigits positive start larger (count + 1) rest line (column + 1)
    else if count = 0 then (Cursor.mk (b :: rest) line column).faultAhead .invalidNumber
    else afterFraction positive significand (start - count) ⟨b :: rest, line, column⟩

def fractionPart (positive : Bool) (significand : Nat) (start : Int) : Reader Numeral :=
  fun cursor =>
    let cursor := cursor.next
    fractionDigits positive start significand 0 cursor.rest cursor.line cursor.column

/-- Read the digits of a whole part that no longer fit in the significand; each counts as a power of
ten. -/
def longDigits (positive : Bool) (significand : Nat) :
    (dropped : Nat) → List UInt8 → (line column : Nat) → Outcome Numeral
  | dropped, [], line, column => finishReal positive significand dropped ⟨[], line, column⟩
  | dropped, b :: rest, line, column =>
    if isDigitByte b then longDigits positive significand (dropped + 1) rest line (column + 1)
    else
      let cursor : Cursor := ⟨b :: rest, line, column⟩
      if b = 0x2e then fractionPart positive significand dropped cursor
      else if isExponentMark b then exponentPart positive significand dropped cursor
      else finishReal positive significand dropped cursor

def afterWhole (positive : Bool) (significand : Nat) : Reader Numeral :=
  fun cursor =>
    if cursor.sees (· = 0x2e) then fractionPart positive significand 0 cursor
    else if cursor.sees isExponentMark then exponentPart positive significand 0 cursor
    else if positive then .value (.int significand) cursor
    else if significand = 0 ∨ Nat.pow 2 63 < significand then
      .value (.real (-significand.toUInt64.toFloat)) cursor
    else .value (.int (-(significand : Int))) cursor

def wholeDigits (positive : Bool) :
    (significand : Nat) → List UInt8 → (line column : Nat) → Outcome Numeral
  | significand, [], line, column => afterWhole positive significand ⟨[], line, column⟩
  | significand, b :: rest, line, column =>
    if isDigitByte b then
      let larger := 10 * significand + (b.toNat - 0x30)
      if maxUnsigned < larger then
        longDigits positive significand 0 (b :: rest) line column
      else wholeDigits positive larger rest line (column + 1)
    else afterWhole positive significand ⟨b :: rest, line, column⟩

def unsignedNumeral (positive : Bool) : Reader Numeral :=
  fun cursor =>
    match cursor.peek with
    | none => cursor.faultHere .endInValue
    | some b =>
      let after := cursor.next
      if b = 0x30 then
        if after.sees isDigitByte then after.faultAhead .invalidNumber
        else afterWhole positive 0 after
      else if isDigitByte b then
        wholeDigits positive (b.toNat - 0x30) after.rest after.line after.column
      else after.faultHere .invalidNumber

def numeral : Reader Numeral :=
  fun cursor =>
    if cursor.sees (· = 0x2d) then unsignedNumeral false cursor.next
    else unsignedNumeral true cursor

def hexValue? (b : UInt8) : Option Nat :=
  if isDigitByte b then some (b.toNat - 0x30)
  else if 0x61 ≤ b ∧ b ≤ 0x66 then some (b.toNat - 0x57)
  else if 0x41 ≤ b ∧ b ≤ 0x46 then some (b.toNat - 0x37)
  else none

def simpleEscape? (b : UInt8) : Option UInt8 :=
  if b = 0x22 || b = 0x5c || b = 0x2f then some b
  else if b = 0x62 then some 0x08
  else if b = 0x66 then some 0x0c
  else if b = 0x6e then some 0x0a
  else if b = 0x72 then some 0x0d
  else if b = 0x74 then some 0x09
  else none

/-- A place behind `n` bytes that hold no newline worth counting: the bytes of an escape. -/
def Cursor.advance : Nat → Cursor → Cursor
  | 0, cursor => cursor
  | n + 1, cursor => Cursor.advance n cursor.next

def hexEscape : Reader Nat :=
  fun cursor =>
    match cursor.rest with
    | a :: b :: c :: d :: _ =>
      let after := cursor.advance 4
      match hexValue? a, hexValue? b, hexValue? c, hexValue? d with
      | some a, some b, some c, some d => .value (a * 0x1000 + b * 0x100 + c * 0x10 + d) after
      | _, _, _, _ => after.faultHere .invalidEscape
    | short => (cursor.advance short.length).faultHere .endInString

/-- Read the second half of a pair of surrogates. -/
def secondSurrogate (leading : Nat) : Reader (List UInt8) :=
  fun cursor =>
    match cursor.peek with
    | none => cursor.faultHere .endInString
    | some b =>
      if b ≠ 0x5c then cursor.next.faultHere .endOfHexEscape
      else
        let cursor := cursor.next
        match cursor.peek with
        | none => cursor.faultHere .endInString
        | some b =>
          if b ≠ 0x75 then cursor.next.faultHere .endOfHexEscape
          else
            (hexEscape cursor.next).andThen fun trailing after =>
              if trailing < 0xdc00 ∨ 0xdfff < trailing then after.faultHere .loneSurrogate
              else
                let code := 0x10000 + (leading - 0xd800) * 0x400 + (trailing - 0xdc00)
                .value (Text.Utf8.encodeChar (Char.ofNat code)) after

/-- Read the bytes of an escape whose backslash is behind the cursor. -/
def escape : Reader (List UInt8) :=
  fun cursor =>
    match cursor.peek with
    | none => cursor.faultHere .endInString
    | some b =>
      match simpleEscape? b with
      | some c => .value [c] cursor.next
      | none =>
        if b = 0x75 then
          (hexEscape cursor.next).andThen fun code after =>
            if 0xdc00 ≤ code ∧ code ≤ 0xdfff then after.faultHere .loneSurrogate
            else if 0xd800 ≤ code ∧ code ≤ 0xdbff then secondSurrogate code after
            else .value (Text.Utf8.encodeChar (Char.ofNat code)) after
        else cursor.next.faultHere .invalidEscape

/-- Read the rest of a string, its opening quotation mark behind the cursor. The fuel is at least the
number of bytes left. -/
def stringBytes : (fuel : Nat) → Reader (List UInt8)
  | 0, cursor => cursor.faultHere .endInString
  | fuel + 1, cursor =>
    match cursor.peek with
    | none => cursor.faultHere .endInString
    | some b =>
      if b = 0x22 then .value [] cursor.next
      else if b = 0x5c then
        (escape cursor.next).andThen fun bytes after =>
          (stringBytes fuel after).map (bytes ++ ·)
      else if b < 0x20 then cursor.next.faultHere .controlCharacter
      else (stringBytes fuel cursor.next).map (b :: ·)

def stringTail : Reader String :=
  fun cursor =>
    (stringBytes (cursor.rest.length + 1) cursor).map fun bytes =>
      match Text.Utf8.decode bytes with
      | .ok text => String.ofList text
      | .error _ => ""

/-- Pass the rest of a string without looking at what its escapes mean. -/
def skipString : (fuel : Nat) → Reader Unit
  | 0, cursor => cursor.faultHere .endInString
  | fuel + 1, cursor =>
    match cursor.peek with
    | none => cursor.faultHere .endInString
    | some b =>
      if b = 0x22 then .value () cursor.next
      else if b = 0x5c then
        let cursor := cursor.next
        match cursor.peek with
        | none => cursor.faultHere .endInString
        | some e =>
          if (simpleEscape? e).isSome then skipString fuel cursor.next
          else if e = 0x75 then
            (hexEscape cursor.next).andThen fun _ after => skipString fuel after
          else cursor.next.faultHere .invalidEscape
      else if b < 0x20 then cursor.faultHere .controlCharacter
      else skipString fuel cursor.next

end Isolate.Json
