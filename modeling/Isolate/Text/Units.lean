import Isolate.Text.Quoted

/-!
# Texts of 16-bit units

A script's strings are sequences of 16-bit units. A character beyond the first 65536 is a pair of
surrogates; a surrogate outside a pair stands for no character. `Units.decode` reads a sequence as
characters and lone surrogates, so that nothing is lost.
-/

namespace Isolate.Text

abbrev Units := List UInt16

namespace Units

/-- The units of one character: itself, or a surrogate pair. -/
def ofChar (c : Char) : Units :=
  let n := c.toNat
  if n < 0x10000 then [n.toUInt16]
  else [(0xd800 + (n - 0x10000) / 0x400).toUInt16, (0xdc00 + (n - 0x10000) % 0x400).toUInt16]

def ofList (text : List Char) : Units := text.flatMap ofChar

def ofString (text : String) : Units := ofList text.toList

def isLeading (u : UInt16) : Bool := 0xd800 ≤ u && u ≤ 0xdbff

def isTrailing (u : UInt16) : Bool := 0xdc00 ≤ u && u ≤ 0xdfff

def pair (u v : UInt16) : Char :=
  Char.ofNat (0x10000 + (u.toNat - 0xd800) * 0x400 + (v.toNat - 0xdc00))

/-- What a sequence of units says, piece by piece. -/
inductive Piece where
  | char (c : Char)
  | lone (unit : UInt16)
  deriving Repr, DecidableEq

def pieces : Units → List Piece
  | [] => []
  | [u] => [if isLeading u || isTrailing u then .lone u else .char (Char.ofNat u.toNat)]
  | u :: v :: rest =>
    if isLeading u && isTrailing v then .char (pair u v) :: pieces rest
    else (if isLeading u || isTrailing u then .lone u else .char (Char.ofNat u.toNat))
      :: pieces (v :: rest)

/-- The characters of a sequence without lone surrogates. -/
def toList? (units : Units) : Option (List Char) :=
  (pieces units).mapM fun
    | .char c => some c
    | .lone _ => none

def upperHexDigit (n : Nat) : Char :=
  if n < 10 then Char.ofNat (48 + n) else Char.ofNat (55 + n)

/-- The written form of a piece: a lone surrogate is a backslash, `u` and four upper-case digits. -/
def Piece.toList : Piece → List Char
  | .char c => [c]
  | .lone u =>
    let n := u.toNat
    ['\\', 'u', upperHexDigit (n / 0x1000), upperHexDigit (n / 0x100 % 16),
      upperHexDigit (n / 16 % 16), upperHexDigit (n % 16)]

/-- The text of a sequence, lone surrogates written out. -/
def toString (units : Units) : String :=
  String.ofList ((pieces units).flatMap Piece.toList)

def compare : Units → Units → Ordering
  | [], [] => .eq
  | [], _ :: _ => .lt
  | _ :: _, [] => .gt
  | u :: us, v :: vs => if u < v then .lt else if v < u then .gt else compare us vs

/-- A unit that is no surrogate is a character of its own. -/
theorem pieces_cons {u : UInt16} (leading : isLeading u = false) (trailing : isTrailing u = false)
    (rest : Units) : pieces (u :: rest) = .char (Char.ofNat u.toNat) :: pieces rest := by
  cases rest <;> simp [pieces, leading, trailing]

/-- The units of a character are read as the character. -/
theorem pieces_ofChar (c : Char) (rest : Units) :
    pieces (ofChar c ++ rest) = .char c :: pieces rest := by
  have bound : c.toNat < 0xd800 ∨ 0xdfff < c.toNat ∧ c.toNat < 0x110000 := c.valid
  have same : Char.ofNat c.toNat = c := Char.ofNat_toNat c
  rw [ofChar]
  split
  next small =>
    have toNat : c.toNat.toUInt16.toNat = c.toNat := UInt16.toNat_ofNat_of_lt' small
    rw [List.singleton_append, pieces_cons, toNat, same]
    · rw [isLeading, Bool.and_eq_false_iff, decide_eq_false_iff_not, decide_eq_false_iff_not,
        UInt16.le_iff_toNat_le, UInt16.le_iff_toNat_le, toNat]
      simp
      omega
    · rw [isTrailing, Bool.and_eq_false_iff, decide_eq_false_iff_not, decide_eq_false_iff_not,
        UInt16.le_iff_toNat_le, UInt16.le_iff_toNat_le, toNat]
      simp
      omega
  next large =>
    have high : (0xd800 + (c.toNat - 0x10000) / 0x400).toUInt16.toNat =
        0xd800 + (c.toNat - 0x10000) / 0x400 :=
      UInt16.toNat_ofNat_of_lt' (by rw [UInt16.size]; omega)
    have low : (0xdc00 + (c.toNat - 0x10000) % 0x400).toUInt16.toNat =
        0xdc00 + (c.toNat - 0x10000) % 0x400 :=
      UInt16.toNat_ofNat_of_lt' (by rw [UInt16.size]; omega)
    have leading : isLeading (0xd800 + (c.toNat - 0x10000) / 0x400).toUInt16 = true := by
      rw [isLeading, Bool.and_eq_true, decide_eq_true_iff, decide_eq_true_iff,
        UInt16.le_iff_toNat_le, UInt16.le_iff_toNat_le, high]
      simp
      omega
    have trailing : isTrailing (0xdc00 + (c.toNat - 0x10000) % 0x400).toUInt16 = true := by
      rw [isTrailing, Bool.and_eq_true, decide_eq_true_iff, decide_eq_true_iff,
        UInt16.le_iff_toNat_le, UInt16.le_iff_toNat_le, low]
      simp
      omega
    have number : 0x10000 + (0xd800 + (c.toNat - 0x10000) / 0x400 - 0xd800) * 0x400 +
        (0xdc00 + (c.toNat - 0x10000) % 0x400 - 0xdc00) = c.toNat := by omega
    rw [List.cons_append, List.singleton_append, pieces, leading, trailing, Bool.and_true, if_pos rfl,
      pair, high, low, number, same]

theorem pieces_ofList (text : List Char) : pieces (ofList text) = text.map .char := by
  induction text with
  | nil => rfl
  | cons c text ih =>
    have split : ofList (c :: text) = ofChar c ++ ofList text := rfl
    rw [split, pieces_ofChar, ih, List.map_cons]

/-- A text is read back from its units. -/
theorem toList?_ofString (text : String) : toList? (ofString text) = some text.toList := by
  rw [toList?, ofString, pieces_ofList]
  induction text.toList with
  | nil => rfl
  | cons c rest ih => rw [List.map_cons, List.mapM_cons, ih]; rfl

@[simp] theorem toString_ofString (text : String) : toString (ofString text) = text := by
  rw [toString, ofString, pieces_ofList, List.flatMap_map]
  change String.ofList (text.toList.flatMap fun c => [c]) = text
  rw [List.flatMap_singleton', String.ofList_toList]

end Units
end Isolate.Text
