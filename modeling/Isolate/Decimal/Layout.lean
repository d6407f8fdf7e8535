import Isolate.Decimal.Shortest

/-!
# Written decimals

A decimal is written with its digits around a point while the point stays near them, and otherwise
with one digit in front of the point and an exponent. A layout says how near is near, how a whole
number ends and how a positive exponent is marked.
-/

namespace Isolate.Decimal

/-- How decimals are written. -/
structure Layout where
  /-- The last place of the point, counted from the first digit, still written without exponent. -/
  lastPlace : Int
  /-- The first such place. -/
  firstPlace : Int
  /-- What follows the digits of a whole number. -/
  wholeEnd : List Char
  /-- The mark of a positive exponent. -/
  positiveMark : List Char
  /-- The sign of a negative zero. -/
  zeroSign : List Char

/-- Drop the zeros at the end of a decimal's digits. -/
def Scaled.trim : (fuel : Nat) → Scaled → Scaled
  | 0, s => s
  | fuel + 1, s =>
    if s.digits ≠ 0 ∧ s.digits % 10 = 0 then Scaled.trim fuel ⟨s.digits / 10, s.exponent + 1⟩ else s

def Layout.write (layout : Layout) (scaled : Scaled) : List Char :=
  let scaled := scaled.trim 400
  let digits := Nat.toDigits 10 scaled.digits
  let place : Int := digits.length + scaled.exponent
  if layout.firstPlace ≤ place ∧ place ≤ layout.lastPlace then
    if 0 ≤ scaled.exponent then
      digits ++ List.replicate scaled.exponent.toNat '0' ++ layout.wholeEnd
    else if 0 < place then
      digits.take place.toNat ++ '.' :: digits.drop place.toNat
    else '0' :: '.' :: List.replicate (-place).toNat '0' ++ digits
  else
    let mantissa :=
      match digits with
      | [] => []
      | [d] => [d]
      | d :: rest => d :: '.' :: rest
    let exponent := place - 1
    mantissa ++ 'e' :: (if exponent < 0 then ['-'] else layout.positiveMark)
      ++ Nat.toDigits 10 exponent.natAbs

def Layout.writeParts (layout : Layout) : Parts → List Char
  | .notANumber => "NaN".toList
  | .infinite negative => (if negative then ['-'] else []) ++ "Infinity".toList
  | .finite negative significand exponent =>
    if significand = 0 then
      (if negative then layout.zeroSign else []) ++ '0' :: layout.wholeEnd
    else
      (if negative then ['-'] else [])
        ++ layout.write (Interval.ofBinary significand exponent).shortest

/-- The layout of a script's numbers: positional from 1e-6 up to 1e21, and no sign on zero. -/
def scriptLayout : Layout :=
  { lastPlace := 21, firstPlace := -5, wholeEnd := [], positiveMark := ['+'], zeroSign := [] }

/-- The layout of numbers in JSON: positional from 1e-5 up to 1e16, a whole number with `.0`. -/
def jsonLayout : Layout :=
  { lastPlace := 16, firstPlace := -4, wholeEnd := ['.', '0'], positiveMark := [], zeroSign := ['-'] }

end Isolate.Decimal
