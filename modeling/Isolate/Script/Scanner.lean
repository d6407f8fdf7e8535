import Isolate.Script.Token
import Isolate.Text.Identifier

/-!
# Reading tokens

A script's characters are read into tokens one after the other; blanks and comments between them are
passed over. At text that is no token the reading stops.
-/

namespace Isolate.Script

/-- A place between the characters of a script. -/
structure Scanner where
  rest : List Char
  offset : Nat
  position : Position
  deriving Repr

namespace Scanner

def start (text : List Char) : Scanner := ⟨text, 0, ⟨1, 1⟩⟩

def isLineEnd (c : Char) : Bool :=
  c == '\n' || c == '\r' || c.toNat == 0x2028 || c.toNat == 0x2029

def isSpace (c : Char) : Bool :=
  let n := c.toNat
  n == 0x9 || n == 0xb || n == 0xc || n == 0x20 || n == 0xa0 || n == 0xfeff || n == 0x1680
    || (0x2000 ≤ n && n ≤ 0x200a) || n == 0x202f || n == 0x205f || n == 0x3000

/-- The place behind the next character. A carriage return and a newline end one line together. -/
def next (s : Scanner) : Scanner :=
  match s.rest with
  | [] => s
  | c :: rest =>
    let position : Position :=
      if isLineEnd c ∧ ¬(c = '\r' ∧ rest.head? = some '\n') then ⟨s.position.line + 1, 1⟩
      else ⟨s.position.line, s.position.column + 1⟩
    ⟨rest, s.offset + 1, position⟩

def skip : Nat → Scanner → Scanner
  | 0, s => s
  | n + 1, s => skip n s.next

def after? : List Char → List Char → Option (List Char)
  | [], text => some text
  | _ :: _, [] => none
  | a :: start, b :: text => if a = b then after? start text else none

/-- Pass blanks and comments. The result says whether a line ended, and is absent if a comment is not
closed. -/
def skipBlanks : (fuel : Nat) → (newline inLine inBlock : Bool) → Scanner → Option (Bool × Scanner)
  | 0, newline, _, _, s => some (newline, s)
  | fuel + 1, newline, inLine, inBlock, s =>
    match s.rest with
    | [] => if inBlock then none else some (newline, s)
    | c :: rest =>
      if inBlock then
        if c = '*' ∧ rest.head? = some '/' then
          skipBlanks fuel newline false false (s.skip 2)
        else skipBlanks fuel (newline || isLineEnd c) false true s.next
      else if isLineEnd c then skipBlanks fuel true false false s.next
      else if inLine then skipBlanks fuel newline true false s.next
      else if isSpace c then skipBlanks fuel newline false false s.next
      else if c = '/' ∧ rest.head? = some '/' then skipBlanks fuel newline true false (s.skip 2)
      else if c = '/' ∧ rest.head? = some '*' then skipBlanks fuel newline false true (s.skip 2)
      else some (newline, s)

def hexValue? (c : Char) : Option Nat :=
  if c.isDigit then some (c.toNat - 48)
  else if 'a' ≤ c ∧ c ≤ 'f' then some (c.toNat - 87)
  else if 'A' ≤ c ∧ c ≤ 'F' then some (c.toNat - 55)
  else none

def hexNumber? (digits : List Char) : Option Nat :=
  digits.foldlM (fun value c => (hexValue? c).map (16 * value + ·)) 0

def unitsOfCode (code : Nat) : Text.Units :=
  if code < 0x10000 then [code.toUInt16] else Text.Units.ofChar (Char.ofNat code)

def letterEscape? : Char → Option Nat
  | 'n' => some 0x0a
  | 't' => some 0x09
  | 'r' => some 0x0d
  | 'b' => some 0x08
  | 'v' => some 0x0b
  | 'f' => some 0x0c
  | _ => none

/-- The units of an escape whose backslash is behind the place, and the number of characters it
has. -/
def escape? (rest : List Char) : Option (Text.Units × Nat) :=
  match rest with
  | [] => none
  | 'x' :: a :: b :: _ => (hexNumber? [a, b]).map fun n => (unitsOfCode n, 3)
  | 'u' :: '{' :: digits =>
    let body := digits.takeWhile (· ≠ '}')
    match hexNumber? body with
    | some n =>
      if body.isEmpty ∨ 0x10ffff < n then none else some (unitsOfCode n, body.length + 3)
    | none => none
  | 'u' :: a :: b :: c :: d :: _ => (hexNumber? [a, b, c, d]).map fun n => (unitsOfCode n, 5)
  | '0' :: more =>
    if (more.head?.map Char.isDigit).getD false then none else some ([0], 1)
  | '\r' :: '\n' :: _ => some ([], 2)
  | c :: _ =>
    if isLineEnd c then some ([], 1)
    else if c = 'x' ∨ c = 'u' ∨ c.isDigit then none
    else
      match letterEscape? c with
      | some n => some ([n.toUInt16], 1)
      | none => some (Text.Units.ofChar c, 1)

/-- Read the rest of a string up to its closing quotation mark; the units are collected last one
first. -/
def stringTail (quote : Char) : (fuel : Nat) → Text.Units → Scanner → Token × Scanner
  | 0, _, s => (.unreadable none, s)
  | fuel + 1, units, s =>
    match s.rest with
    | [] => (.unreadable none, s)
    | c :: rest =>
      if c = quote then (.string units.reverse, s.next)
      else if c = '\n' ∨ c = '\r' then (.unreadable none, s)
      else if c = '\\' then
        match escape? rest with
        | some (escaped, length) =>
          stringTail quote fuel (escaped.reverse ++ units) (s.skip (length + 1))
        | none => (.unreadable (if rest.isEmpty then none else some s.position), s)
      else stringTail quote fuel ((Text.Units.ofChar c).reverse ++ units) s.next

/-- The digits in front, separators between digits left out, and the number of characters. -/
def digitRun (isDigit : Char → Bool) (text : List Char) : List Char × Nat :=
  let run := text.takeWhile fun c => isDigit c || c == '_'
  (run.filter (· ≠ '_'), run.length)

def baseNumber (base : Nat) (s : Scanner) : Token × Scanner :=
  let isDigit (c : Char) : Bool := (Number.digitsIn base [c]).isSome
  let (digits, length) := digitRun isDigit (s.rest.drop 2)
  let s := s.skip (length + 2)
  match digits.isEmpty, Number.digitsIn base digits with
  | false, some n => (.number (Number.ofNatRounded n), s)
  | _, _ => (.unreadable (if s.rest.isEmpty then none else some s.position), s)

def decimalNumber (s : Scanner) : Token × Scanner :=
  let (whole, n) := digitRun Char.isDigit s.rest
  let rest := s.rest.drop n
  let (fraction, n) :=
    match rest with
    | '.' :: more =>
      let (fraction, m) := digitRun Char.isDigit more
      (fraction, n + m + 1)
    | _ => ([], n)
  let rest := s.rest.drop n
  let exponent :=
    match rest with
    | e :: more =>
      if e = 'e' ∨ e = 'E' then
        let (sign, more) :=
          match more with
          | '+' :: more => ([], more)
          | '-' :: more => (['-'], more)
          | more => ([], more)
        let (digits, m) := digitRun Char.isDigit more
        let length := rest.length - more.length + m
        some (Number.exponentOf? (sign ++ digits), length)
      else none
    | [] => none
  match exponent with
  | some (none, length) =>
    let s := s.skip (n + length)
    (.unreadable (if s.rest.isEmpty then none else some s.position), s)
  | some (some exponent, length) =>
    match Number.digitsIn 10 (whole ++ fraction) with
    | some digits =>
      (.number (Number.ofDecimal digits (exponent - fraction.length)), s.skip (n + length))
    | none => (.unreadable (some s.position), s)
  | none =>
    match Number.digitsIn 10 (whole ++ fraction) with
    | some digits => (.number (Number.ofDecimal digits (-(fraction.length : Int))), s.skip n)
    | none => (.unreadable (some s.position), s)

/-- A number at the place. No digit and no identifier may follow it directly. -/
def number (s : Scanner) : Token × Scanner :=
  let (token, s) :=
    match s.rest with
    | '0' :: c :: _ =>
      if c = 'x' ∨ c = 'X' then baseNumber 16 s
      else if c = 'o' ∨ c = 'O' then baseNumber 8 s
      else if c = 'b' ∨ c = 'B' then baseNumber 2 s
      else decimalNumber s
    | _ => decimalNumber s
  match token, s.rest with
  | .number _, c :: _ =>
    if Text.isIdentifierStart c ∨ c.isDigit then (.unreadable (some s.position), s) else (token, s)
  | _, _ => (token, s)

def punctuator? (text : List Char) : Option (Punctuator × Nat) :=
  (Punctuator.spellings.find? fun (spelling, _) => (after? spelling text).isSome).map
    fun (spelling, p) => (p, spelling.length)

/-- The token at a place that is no blank, and the place behind it. -/
def token (s : Scanner) : Token × Scanner :=
  match s.rest with
  | [] => (.endOfText, s)
  | c :: rest =>
    if Text.isIdentifierStart c then
      let name := s.rest.takeWhile Text.isIdentifierPart
      (.word (String.ofList name), s.skip name.length)
    else if c.isDigit || (c = '.' && (rest.head?.map Char.isDigit).getD false) then s.number
    else if c = '"' ∨ c = '\'' then stringTail c (rest.length + 1) [] s.next
    else
      match punctuator? s.rest with
      | some (p, length) => (.punctuator p, s.skip length)
      | none => (.unreadable (some s.position), s)

/-- Read tokens up to the end, or up to text that is none. The fuel is more than the number of
characters. -/
def tokensFrom : (fuel : Nat) → Scanner → List Lexeme
  | 0, _ => []
  | fuel + 1, s =>
    match skipBlanks (s.rest.length + 1) false false false s with
    | none => [⟨.unreadable none, s.position, s.offset, s.offset, false⟩]
    | some (newline, s) =>
      let (token, after) := s.token
      let lexeme : Lexeme := ⟨token, s.position, s.offset, after.offset, newline⟩
      match token with
      | .endOfText => [lexeme]
      | .unreadable _ => [lexeme]
      | _ => lexeme :: tokensFrom fuel after

def tokens (text : List Char) : List Lexeme := tokensFrom (text.length + 2) (start text)

end Scanner
end Isolate.Script
