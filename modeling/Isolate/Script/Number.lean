import Isolate.Decimal.Layout
import Isolate.Text.Units

/-!
# Numbers of scripts

A number of a script is a double. The integers up to `2 ^ 53` in absolute value, other than a
negative zero, are kept as integers, and every other double as itself, so that each number has one
form. Sums, differences and products of integers are exact while they stay in that range, which is
what rounding to a double gives.
-/

namespace Isolate.Script

inductive Number where
  /-- An integer of absolute value at most `2 ^ 53`. -/
  | int (value : Int)
  /-- Any other double. -/
  | real (value : Float)
  deriving Repr, Inhabited

namespace Number

/-- The largest integer below which every integer is a double. -/
def exactBound : Nat := Nat.pow 2 53

def toFloat : Number → Float
  | int n => Float.ofInt n
  | real f => f

def nan : Number := real (0.0 / 0.0)

def infinity : Number := real (1.0 / 0.0)

def negativeZero : Number := real (-0.0)

def ofInt (n : Int) : Number :=
  if n.natAbs ≤ exactBound then int n else real (Float.ofInt n)

def ofNat (n : Nat) : Number := ofInt n

/-- The integer nearest to zero of a finite double, exactly. -/
def truncated (f : Float) : Int :=
  match Decimal.Parts.ofBits f.toBits with
  | .finite negative significand exponent =>
    let magnitude : Nat :=
      if 0 ≤ exponent then significand * Nat.pow 2 exponent.toNat
      else significand / Nat.pow 2 (-exponent).toNat
    if negative then -magnitude else magnitude
  | _ => 0

def ofFloat (f : Float) : Number :=
  if f.isFinite && f.abs ≤ 9007199254740992.0 && f.floor == f then
    let n := truncated f
    if n = 0 ∧ f.toBits ≠ 0 then real f else int n
  else real f

def isNaN : Number → Bool
  | int _ => false
  | real f => f.isNaN

def isFinite : Number → Bool
  | int _ => true
  | real f => f.isFinite

def isZero : Number → Bool
  | int n => n = 0
  | real f => f == 0.0

def toText : Number → List Char
  | int (.ofNat n) => Nat.toDigits 10 n
  | int (.negSucc n) => '-' :: Nat.toDigits 10 (n + 1)
  | real f => Decimal.scriptLayout.writeParts (.ofBits f.toBits)

/-- The text of a number when it is shown; a negative zero keeps its sign. -/
def shown : Number → String
  | int n => String.ofList (int n).toText
  | real f => if f == 0.0 then "-0" else String.ofList (real f).toText

def toUnits (n : Number) : Text.Units := Text.Units.ofList n.toText

def neg : Number → Number
  | int n => if n = 0 then negativeZero else int (-n)
  | real f => ofFloat (-f)

def add : Number → Number → Number
  | int a, int b => ofInt (a + b)
  | a, b => ofFloat (a.toFloat + b.toFloat)

def sub : Number → Number → Number
  | int a, int b => ofInt (a - b)
  | a, b => ofFloat (a.toFloat - b.toFloat)

def mul (x y : Number) : Number :=
  match x, y with
  | int a, int b =>
    let product := a * b
    if product = 0 then if a < 0 ∨ b < 0 then negativeZero else int 0
    else if product.natAbs ≤ exactBound then int product
    else real (Float.ofInt a * Float.ofInt b)
  | a, b => ofFloat (a.toFloat * b.toFloat)

def div (x y : Number) : Number :=
  match x, y with
  | int a, int b =>
    if b ≠ 0 ∧ a ≠ 0 ∧ a % b = 0 then int (a / b)
    else ofFloat (Float.ofInt a / Float.ofInt b)
  | a, b => ofFloat (a.toFloat / b.toFloat)

/-- The remainder of finite doubles with the sign of the dividend, exactly. -/
def remainder (a b : Float) : Float :=
  match Decimal.Parts.ofBits a.toBits, Decimal.Parts.ofBits b.toBits with
  | .finite negative m e, .finite _ n d =>
    if n = 0 then 0.0 / 0.0
    else
      let low := min e d
      let rest := (m * Nat.pow 2 (e - low).toNat) % (n * Nat.pow 2 (d - low).toNat)
      let f := (Float.ofNat rest).scaleB low
      if negative then -f else f
  | .finite _ _ _, .infinite _ => a
  | _, _ => 0.0 / 0.0

def mod (x y : Number) : Number :=
  match x, y with
  | int a, int b =>
    if b = 0 then nan
    else
      let rest := Int.tmod a b
      if rest = 0 ∧ a < 0 then negativeZero else int rest
  | a, b => ofFloat (remainder a.toFloat b.toFloat)

/-- The power. A base of absolute value one has no infinite power. -/
def pow (x y : Number) : Number :=
  let f := y.toFloat
  if f.isNaN then nan
  else if f == 0.0 then int 1
  else if f.isInf && x.toFloat.abs == 1.0 then nan
  else ofFloat (Float.pow x.toFloat f)

def eq : Number → Number → Bool
  | int a, int b => a = b
  | a, b => a.toFloat == b.toFloat

def lt : Number → Number → Bool
  | int a, int b => a < b
  | a, b => a.toFloat < b.toFloat

def le : Number → Number → Bool
  | int a, int b => a ≤ b
  | a, b => a.toFloat ≤ b.toFloat

/-- Whether two numbers are the same, zeros of both signs told apart. -/
def same : Number → Number → Bool
  | int a, int b => a = b
  | real a, real b => a.toBits == b.toBits || (a.isNaN && b.isNaN)
  | _, _ => false

/-- The integer part; an infinity is clamped to `bound`, and what is not a number is zero. -/
def toInteger (bound : Int) : Number → Int
  | int n => n
  | real f =>
    if f.isNaN then 0
    else if f.isInf then if 0.0 < f then bound else -bound
    else truncated f

def toWord (x : Number) : Nat := (x.toInteger 0 % Int.pow 2 32).toNat

/-- The low 32 bits of the integer part as a signed number. -/
def toSigned (x : Number) : Int :=
  let w := x.toWord
  if Nat.pow 2 31 ≤ w then (w : Int) - Int.pow 2 32 else w

/-- Combine two numbers bit by bit. -/
def bitwise (op : Nat → Nat → Nat) (x y : Number) : Number :=
  let w : Nat := op x.toWord y.toWord % Nat.pow 2 32
  int (if Nat.pow 2 31 ≤ w then (w : Int) - Int.pow 2 32 else w)

def shiftLeft (x y : Number) : Number :=
  bitwise (fun a b => a * Nat.pow 2 (b % 32)) x y

def shiftRight (x y : Number) : Number :=
  int (x.toSigned / ((Nat.pow 2 (y.toWord % 32) : Nat) : Int))

def shiftRightUnsigned (x y : Number) : Number :=
  int ((x.toWord / Nat.pow 2 (y.toWord % 32) : Nat) : Int)

def ofNatRounded (n : Nat) : Number :=
  if n ≤ exactBound then int n else ofFloat (Float.ofScientific n false 0)

/-- The number `± digits · 10 ^ exponent`. An exponent far out of range is not computed. -/
def ofDecimal (digits : Nat) (exponent : Int) : Number :=
  if digits = 0 then int 0
  else if 0 ≤ exponent ∧ exponent ≤ 16 then ofNatRounded (digits * Nat.pow 10 exponent.toNat)
  else
    let place : Int := (Nat.toDigits 10 digits).length + exponent
    if 400 < place then infinity
    else if place < -400 then int 0
    else if 0 ≤ exponent then ofFloat (Float.ofScientific digits false exponent.toNat)
    else ofFloat (Float.ofScientific digits true (-exponent).toNat)

def digitsIn (base : Nat) (text : List Char) : Option Nat :=
  text.foldlM (fun value c =>
    let d :=
      if c.isDigit then c.toNat - 48
      else if 'a' ≤ c ∧ c ≤ 'z' then c.toNat - 87
      else if 'A' ≤ c ∧ c ≤ 'Z' then c.toNat - 55
      else base
    if d < base then some (base * value + d) else none) 0

def exponentOf? : List Char → Option Int
  | '+' :: digits => if digits.isEmpty then none else (digitsIn 10 digits).map fun n => (n : Int)
  | '-' :: digits => if digits.isEmpty then none else (digitsIn 10 digits).map fun n => -(n : Int)
  | digits => if digits.isEmpty then none else (digitsIn 10 digits).map fun n => (n : Int)

/-- Read an unsigned decimal text: digits with at most one point, and an exponent. -/
def ofDecimalText? (text : List Char) : Option Number := do
  let mantissa := text.takeWhile fun c => c ≠ 'e' ∧ c ≠ 'E'
  let exponent ←
    match text.dropWhile fun c => c ≠ 'e' ∧ c ≠ 'E' with
    | [] => some 0
    | _ :: rest => exponentOf? rest
  let whole := mantissa.takeWhile (· ≠ '.')
  let fraction := (mantissa.dropWhile (· ≠ '.')).drop 1
  if whole.isEmpty && fraction.isEmpty then none
  else
    let digits ← digitsIn 10 (whole ++ fraction)
    some (ofDecimal digits (exponent - fraction.length))

/-- A blank of scripts: white space, a line end or a byte order mark. -/
def isBlankUnit (u : UInt16) : Bool :=
  let n := u.toNat
  (0x9 ≤ n && n ≤ 0xd) || n == 0x20 || n == 0xa0 || n == 0x1680 || (0x2000 ≤ n && n ≤ 0x200a)
    || n == 0x2028 || n == 0x2029 || n == 0x202f || n == 0x205f || n == 0x3000 || n == 0xfeff

/-- The sequence without the blanks at its two ends. -/
def trimUnits (units : Text.Units) : Text.Units :=
  ((units.dropWhile isBlankUnit).reverse.dropWhile isBlankUnit).reverse

/-- The number that a text without blanks around it stands for. -/
def ofTrimmedText (text : List Char) : Number :=
  let signed (text : List Char) : Option Number :=
    if text = "Infinity".toList then some infinity else ofDecimalText? text
  let inBase (base : Nat) (digits : List Char) : Option Number :=
    if digits.isEmpty then none else (digitsIn base digits).map ofNatRounded
  let found :=
    match text with
    | [] => some (int 0)
    | '0' :: 'x' :: digits => inBase 16 digits
    | '0' :: 'X' :: digits => inBase 16 digits
    | '0' :: 'o' :: digits => inBase 8 digits
    | '0' :: 'O' :: digits => inBase 8 digits
    | '0' :: 'b' :: digits => inBase 2 digits
    | '0' :: 'B' :: digits => inBase 2 digits
    | '+' :: rest => signed rest
    | '-' :: rest => (signed rest).map neg
    | text => signed text
  found.getD nan

def ofUnits (units : Text.Units) : Number :=
  match (trimUnits units).toList? with
  | some text => ofTrimmedText text
  | none => nan

end Number
end Isolate.Script
