/-!
# The shortest decimal of a double

A positive double stands for the interval of reals that round to it. Its shortest decimal is the
decimal with the fewest digits inside that interval, and of two such decimals the nearer one. The
interval holds its ends exactly when the significand is even. All arithmetic is exact, on naturals.
-/

namespace Isolate.Decimal

structure Scaled where
  digits : Nat
  exponent : Int
  deriving Repr, DecidableEq

/-- A positive rational with the two ends of its interval, all three over one denominator. -/
structure Interval where
  low : Nat
  value : Nat
  high : Nat
  denominator : Nat
  /-- Whether the ends belong to the interval. -/
  closed : Bool
  deriving Repr

/-- The interval of the double `significand · 2 ^ exponent`. The lower neighbour of a power of two
is half as far away as the upper one, unless the exponent is already the least. -/
def Interval.ofBinary (significand : Nat) (exponent : Int) : Interval :=
  let lower := if significand = Nat.pow 2 52 ∧ -1074 < exponent then 1 else 2
  let scale := Nat.pow 2 (exponent - 2).toNat
  { low := (4 * significand - lower) * scale
    value := 4 * significand * scale
    high := (4 * significand + 2) * scale
    denominator := Nat.pow 2 (2 - exponent).toNat
    closed := significand % 2 = 0 }

namespace Interval

def holds (i : Interval) (digits : Nat) (exponent : Int) : Bool :=
  let point := digits * Nat.pow 10 exponent.toNat * i.denominator
  let unit := Nat.pow 10 (-exponent).toNat
  if i.closed then i.low * unit ≤ point && point ≤ i.high * unit
  else i.low * unit < point && point < i.high * unit

/-- The largest multiple of `10 ^ exponent` that is at most the value, in units of that power. -/
def floorAt (i : Interval) (exponent : Int) : Nat :=
  i.value * Nat.pow 10 (-exponent).toNat / (i.denominator * Nat.pow 10 exponent.toNat)

/-- Whether the value is nearer to the next multiple of `10 ^ exponent` than to `digits` of them;
halfway, the even one is taken. -/
def roundsUp (i : Interval) (digits : Nat) (exponent : Int) : Bool :=
  let step := i.denominator * Nat.pow 10 exponent.toNat
  let twice := 2 * i.value * Nat.pow 10 (-exponent).toNat
  let middle := (2 * digits + 1) * step
  middle < twice || (middle = twice && digits % 2 = 1)

/-- A decimal on the grid `10 ^ exponent` inside the interval, the nearer one of two. -/
def onGrid? (i : Interval) (exponent : Int) : Option Nat :=
  let below := i.floorAt exponent
  match i.holds below exponent, i.holds (below + 1) exponent with
  | true, true => some (if i.roundsUp below exponent then below + 1 else below)
  | true, false => some below
  | false, true => some (below + 1)
  | false, false => none

/-- The number of decimal digits in front of the point; at most zero for a value below one. -/
def magnitude (i : Interval) : (fuel : Nat) → (guess : Int) → Int
  | 0, guess => guess
  | fuel + 1, guess =>
    if i.denominator * Nat.pow 10 guess.toNat ≤ i.value * Nat.pow 10 (-guess).toNat then
      magnitude i fuel (guess + 1)
    else if i.value * Nat.pow 10 (1 - guess).toNat < i.denominator * Nat.pow 10 (guess - 1).toNat then
      magnitude i fuel (guess - 1)
    else guess

def search (i : Interval) : (fuel : Nat) → (exponent : Int) → Scaled
  | 0, exponent => ⟨i.floorAt exponent, exponent⟩
  | fuel + 1, exponent =>
    match i.onGrid? exponent with
    | some digits => ⟨digits, exponent⟩
    | none => search i fuel (exponent - 1)

def shortest (i : Interval) : Scaled :=
  let guess : Int := ((i.value.log2 : Int) - i.denominator.log2) * 1233 / 4096
  search i 18 (i.magnitude 800 guess - 1)

end Interval

/-- A double, taken apart. -/
inductive Parts where
  | notANumber
  | infinite (negative : Bool)
  /-- `± significand · 2 ^ exponent`; the significand of a zero is zero. -/
  | finite (negative : Bool) (significand : Nat) (exponent : Int)
  deriving Repr, DecidableEq

def Parts.ofBits (bits : UInt64) : Parts :=
  let n := bits.toNat
  let negative : Bool := Nat.pow 2 63 ≤ n
  let biased : Nat := n / Nat.pow 2 52 % Nat.pow 2 11
  let fraction : Nat := n % Nat.pow 2 52
  if biased = 2047 then if fraction = 0 then .infinite negative else .notANumber
  else if biased = 0 then .finite negative fraction (-1074)
  else .finite negative (fraction + Nat.pow 2 52) ((biased : Int) - 1075)

end Isolate.Decimal
