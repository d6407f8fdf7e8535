import Isolate.Proofs.Json.Syntax

/-!
# Numbers in JSON texts

A number without point and exponent that fits in 64 bits is read as an integer, and no other is.
-/

namespace Isolate.Json

open Text

variable {cursor : Cursor} {c : Char} {rest later text : List Char}

theorem isDigit_of_mem_toDigits {n : Nat} (member : c ∈ Nat.toDigits 10 n) : isDigit c = true := by
  have digit := Nat.isDigit_of_mem_toDigits (by omega) (by omega) member
  rw [Char.isDigit_iff_toNat] at digit
  exact isDigit_iff.mpr digit

/-- The numeral of a number that is not zero begins with another digit. -/
theorem toDigits_eq_cons {n : Nat} (positive : 0 < n) :
    ∃ c later, Nat.toDigits 10 n = c :: later ∧ c ≠ '0' := by
  induction n using Nat.strongRecOn with
  | ind n ih =>
    by_cases small : n < 10
    · have notZero : ∀ n < 10, 0 < n → n.digitChar ≠ '0' := by decide
      exact ⟨n.digitChar, [], Nat.toDigits_of_lt_base small, notZero n small positive⟩
    · obtain ⟨c, later, split, notZero⟩ := ih (n / 10) (by omega) (by omega)
      refine ⟨c, later ++ [(n % 10).digitChar], ?_, notZero⟩
      rw [Nat.toDigits_of_base_le (by omega) (by omega), split, List.cons_append]

theorem digitChar_of_isDigit (digit : isDigit c = true) : (c.toNat - '0'.toNat).digitChar = c := by
  have low := isDigit_iff.mp digit
  have same : ∀ n < 0x3a, 0x30 ≤ n → (n - 0x30).digitChar = Char.ofNat n := by decide
  exact (same c.toNat (by omega) low.1).trans (Char.ofNat_toNat c)

/-- Digits behind a number that is not zero add to its numeral. -/
theorem toDigits_ofDigitChars {digits : List Char} {n : Nat}
    (areDigits : ∀ c ∈ digits, isDigit c = true) (positive : 0 < n) :
    Nat.toDigits 10 (Nat.ofDigitChars 10 digits n) = Nat.toDigits 10 n ++ digits := by
  induction digits generalizing n with
  | nil => simp
  | cons c digits ih =>
    have digit := areDigits c List.mem_cons_self
    have low := isDigit_iff.mp digit
    have small : c.toNat - '0'.toNat < 10 := by
      have zero : '0'.toNat = 0x30 := rfl
      omega
    rw [Nat.ofDigitChars_cons, ih (fun c member => areDigits c (List.mem_cons_of_mem _ member))
      (by omega), ← Nat.toDigits_append_toDigits (by omega) positive small,
      Nat.toDigits_of_lt_base small, digitChar_of_isDigit digit, List.append_assoc]
    rfl

theorem le_ofDigitChars (digits : List Char) (n : Nat) : n ≤ Nat.ofDigitChars 10 digits n := by
  induction digits generalizing n with
  | nil => simp
  | cons c digits ih =>
    rw [Nat.ofDigitChars_cons]
    exact Nat.le_trans (by omega) (ih _)

def NoInt (outcome : Outcome Numeral) : Prop := ∀ n cursor, outcome ≠ .value (.int n) cursor

variable {positive positiveExponent : Bool} {significand : Nat} {start : Int}

theorem noInt_finishReal (exponent : Int) : NoInt (finishReal positive significand exponent cursor) := by
  rw [finishReal]
  split <;> exact nofun

theorem noInt_exponentDigits (value : Nat) (bytes : List UInt8) (line column : Nat) :
    NoInt
      (exponentDigits positive positiveExponent significand start value bytes line column) := by
  induction bytes generalizing value column with
  | nil => exact noInt_finishReal _
  | cons b bytes ih =>
    rw [exponentDigits]
    split
    · dsimp only
      split
      · split <;> exact nofun
      · exact ih _ _
    · exact noInt_finishReal _

theorem noInt_exponentPart : NoInt (exponentPart positive significand start cursor) := by
  rw [exponentPart]
  dsimp only
  split
  · exact nofun
  · split
    · exact noInt_exponentDigits _ _ _ _
    · exact nofun

theorem noInt_afterFraction (exponent : Int) :
    NoInt (afterFraction positive significand exponent cursor) := by
  rw [afterFraction]
  split
  · exact noInt_exponentPart
  · exact noInt_finishReal _

theorem noInt_fractionDigits (significand count : Nat) (bytes : List UInt8) (line column : Nat) :
    NoInt (fractionDigits positive start significand count bytes line column) := by
  induction bytes generalizing significand count column with
  | nil =>
    rw [fractionDigits]
    split
    · exact nofun
    · exact noInt_afterFraction _
  | cons b bytes ih =>
    rw [fractionDigits]
    split
    · dsimp only
      split
      · exact noInt_afterFraction _
      · exact ih _ _ _
    · split
      · exact nofun
      · exact noInt_afterFraction _

theorem noInt_fractionPart : NoInt (fractionPart positive significand start cursor) :=
  noInt_fractionDigits _ _ _ _ _

theorem noInt_longDigits (dropped : Nat) (bytes : List UInt8) (line column : Nat) :
    NoInt (longDigits positive significand dropped bytes line column) := by
  induction bytes generalizing dropped column with
  | nil => exact noInt_finishReal _
  | cons b bytes ih =>
    rw [longDigits]
    split
    · exact ih _ _
    · dsimp only
      split
      · exact noInt_fractionPart
      · split
        · exact noInt_exponentPart
        · exact noInt_finishReal _

/-- The outcome is this integer, found in front of this text, or no integer is found. -/
def TellsInt (outcome : Outcome Numeral) (found : Option Int) (rest : List Char) : Prop :=
  match found with
  | some n => outcome.Tells (some (.int n)) rest
  | none => NoInt outcome

def Stops (rest : List Char) : Prop :=
  ∀ c ∈ rest.head?, isDigit c = false ∧ c ≠ '.' ∧ isMark c = false

theorem Ends.stops (ends : Ends rest) : Stops rest := by
  intro c member
  obtain blank | rfl | rfl | rfl := ends c member
  · simp only [isBlank, Bool.or_eq_true, decide_eq_true_eq] at blank
    obtain ((rfl | rfl) | rfl) | rfl := blank <;> decide
  all_goals decide

theorem byte_digit (digit : isDigit c = true) (later : List Char) :
    Utf8.encode (c :: later) = byte c :: Utf8.encode later ∧ isDigitByte (byte c) = true ∧
      (byte c).toNat - 0x30 = c.toNat - '0'.toNat := by
  have low := detects_isDigitByte.low c digit
  have same := detects_isDigitByte.same c.toNat low
  rw [Char.ofNat_toNat, digit] at same
  refine ⟨Utf8.encode_cons_ascii low later, same, ?_⟩
  rw [byte, Utf8.toNat_toUInt8 (by omega)]
  rfl

/-- Behind its digits the whole part of a number ends. -/
theorem wholeDigits_stop (positive : Bool) (stops : ∀ c ∈ later.head?, isDigit c = false)
    (significand line column : Nat) :
    ∃ cursor : Cursor, cursor.Before later ∧
      wholeDigits positive significand (Utf8.encode later) line column =
        afterWhole positive significand cursor := by
  obtain _ | ⟨c, later⟩ := later
  · exact ⟨⟨[], line, column⟩, rfl, rfl⟩
  · obtain ⟨b, more, split, isByte, high⟩ := exists_encode_cons c later
    have same := detects_isDigitByte.head_eq (fun low => (isByte low).1) high
    rw [stops c rfl] at same
    refine ⟨⟨b :: more, line, column⟩, split.symm, ?_⟩
    rw [split, wholeDigits, same]
    rfl

/-- The whole part of a number is the number of its digits, or too large to be an integer. -/
theorem wholeDigits_eq (positive : Bool) {digits : List Char} (areDigits : ∀ c ∈ digits, isDigit c = true)
    (stops : ∀ c ∈ later.head?, isDigit c = false) {significand : Nat}
    (fits : significand ≤ maxUnsigned) (line column : Nat) :
    if Nat.ofDigitChars 10 digits significand ≤ maxUnsigned then
      ∃ cursor : Cursor, cursor.Before later ∧
        wholeDigits positive significand (Utf8.encode (digits ++ later)) line column =
          afterWhole positive (Nat.ofDigitChars 10 digits significand) cursor
    else NoInt (wholeDigits positive significand (Utf8.encode (digits ++ later)) line column) := by
  induction digits generalizing significand column with
  | nil =>
    rw [Nat.ofDigitChars_nil, if_pos fits]
    exact wholeDigits_stop positive stops significand line column
  | cons c digits ih =>
    obtain ⟨split, digit, value⟩ :=
      byte_digit (areDigits c List.mem_cons_self) (digits ++ later)
    rw [Nat.ofDigitChars_cons, List.cons_append, split, wholeDigits, if_pos digit, value]
    dsimp only
    by_cases larger : maxUnsigned < 10 * significand + (c.toNat - '0'.toNat)
    · have grows := le_ofDigitChars digits (10 * significand + (c.toNat - '0'.toNat))
      rw [if_pos larger, if_neg (by omega)]
      exact noInt_longDigits _ _ _ _
    · rw [if_neg larger]
      exact ih (fun c member => areDigits c (List.mem_cons_of_mem _ member)) (by omega) _

namespace NumberText

variable {number : NumberText}

theorem tail_fraction {digits : Digits} (fraction : number.fraction = some digits) :
    number.tail = '.' :: (digits.chars ++ number.exponent.elim [] Exponent.chars) := by
  rw [tail, fraction]
  rfl

theorem tail_exponent {exponent : Exponent} (fraction : number.fraction = none)
    (is : number.exponent = some exponent) :
    ∃ mark later, number.tail = mark :: later ∧ isMark mark = true ∧ mark ≠ '.' := by
  rw [tail, fraction, is]
  refine ⟨_, _, rfl, ?_⟩
  split <;> decide

theorem tail_none (fraction : number.fraction = none) (exponent : number.exponent = none) :
    number.tail = [] := by
  rw [tail, fraction, exponent]
  rfl

theorem int?_of_real (real : number.fraction ≠ none ∨ number.exponent ≠ none) :
    number.int? = none := by
  rw [int?, if_pos]
  rwa [Bool.or_eq_true, ← Option.ne_none_iff_isSome, ← Option.ne_none_iff_isSome]

end NumberText

theorem Stops.any_eq_false {q : Char → Bool} (stops : Stops rest)
    (other : ∀ c, isDigit c = false ∧ c ≠ '.' ∧ isMark c = false → q c = false) :
    rest.head?.any q = false := by
  cases front : rest.head? with
  | none => rfl
  | some c => exact other c (stops c front)

theorem stops_tail (number : NumberText) (stops : Stops rest) :
    ∀ c ∈ (number.tail ++ rest).head?, isDigit c = false := by
  cases fraction : number.fraction with
  | some digits =>
    rw [NumberText.tail_fraction fraction]
    rintro c ⟨⟩
    decide
  | none =>
    cases exponent : number.exponent with
    | some exponent =>
      obtain ⟨mark, later, split, isMark, -⟩ := NumberText.tail_exponent fraction exponent
      rw [split]
      rintro c ⟨⟩
      simp only [Json.isMark, Bool.or_eq_true, decide_eq_true_eq] at isMark
      obtain rfl | rfl := isMark <;> decide
    | none =>
      rw [NumberText.tail_none fraction exponent]
      exact fun c member => (stops c member).1

/-- What stands behind the whole part makes the number an integer or none. -/
theorem afterWhole_tells {number : NumberText} (stops : Stops rest)
    (before : cursor.Before (number.tail ++ rest)) (fits : number.whole ≤ maxUnsigned) :
    TellsInt (afterWhole (!number.isNegative) number.whole cursor) number.int? rest := by
  have point := before.sees_eq (detects_eq 0x2e '.' rfl (by decide))
  have mark := before.sees_eq detects_isExponentMark
  rw [afterWhole, point, mark]
  cases fraction : number.fraction with
  | some digits =>
    rw [NumberText.int?_of_real (.inl (by rw [fraction]; exact nofun)),
      NumberText.tail_fraction fraction]
    exact noInt_fractionPart
  | none =>
    cases exponent : number.exponent with
    | some exponent =>
      obtain ⟨c, later, split, isMark, notPoint⟩ := NumberText.tail_exponent fraction exponent
      rw [NumberText.int?_of_real (.inr (by rw [exponent]; exact nofun)), split, List.cons_append,
        List.head?_cons, Option.any_some, Option.any_some, if_neg (by simpa using notPoint),
        if_pos isMark]
      exact noInt_exponentPart
    | none =>
      rw [NumberText.tail_none fraction exponent] at before ⊢
      rw [NumberText.int?, fraction, exponent, List.nil_append,
        stops.any_eq_false (fun c other => decide_eq_false other.2.1),
        stops.any_eq_false (fun c other => other.2.2)]
      cases sign : number.isNegative with
      | false =>
        rw [if_pos fits]
        exact .value before
      | true =>
        by_cases outside : number.whole = 0 ∨ Nat.pow 2 63 < number.whole
        · simp only [Bool.not_true, Bool.false_eq_true, if_false, if_true, if_pos outside,
            Option.isSome_none, Bool.or_self]
          exact nofun
        · simp only [Bool.not_true, Bool.false_eq_true, if_false, if_true, if_neg outside,
            Option.isSome_none, Bool.or_self]
          exact .value before

theorem int?_of_large {number : NumberText} (large : maxUnsigned < number.whole) :
    number.int? = none := by
  have beyond : Nat.pow 2 63 < number.whole := Nat.lt_of_le_of_lt (by decide) large
  have outside : number.whole = 0 ∨ Nat.pow 2 63 < number.whole := .inr beyond
  rw [NumberText.int?, if_pos outside, if_neg (Nat.not_le.mpr large), ite_self, ite_self]

theorem unsignedNumeral_tells {number : NumberText} (stops : Stops rest)
    (before : cursor.Before (Nat.toDigits 10 number.whole ++ (number.tail ++ rest))) :
    TellsInt (unsignedNumeral (!number.isNegative) cursor) number.int? rest := by
  obtain zero | positive := Nat.eq_zero_or_pos number.whole
  · rw [zero, Nat.toDigits_zero] at before
    have behind : cursor.next.Before (number.tail ++ rest) := before.next_cons (by decide)
    have sees := behind.sees_eq detects_isDigitByte
    have noDigit : (number.tail ++ rest).head?.any isDigit = false := by
      cases front : (number.tail ++ rest).head? with
      | none => rfl
      | some c => exact stops_tail number stops c front
    rw [unsignedNumeral, before.peek_cons (by decide)]
    dsimp only
    rw [if_pos (by decide), sees, noDigit, if_neg (by decide), ← zero]
    exact afterWhole_tells stops behind (zero ▸ Nat.zero_le _)
  · obtain ⟨c, digits, split, notZero⟩ := toDigits_eq_cons positive
    have areDigits : ∀ d ∈ c :: digits, isDigit d = true := fun d member =>
      isDigit_of_mem_toDigits (split ▸ member)
    have digit := areDigits c List.mem_cons_self
    have low := detects_isDigitByte.low c digit
    rw [split] at before
    have behind : cursor.next.Before (digits ++ (number.tail ++ rest)) := before.next_cons low
    have notZero : byte c ≠ 0x30 := fun same =>
      notZero (eq_of_byte low (by decide) (same.trans (by decide : 0x30 = byte '0')))
    have value : Nat.ofDigitChars 10 digits (c.toNat - '0'.toNat) = number.whole := by
      have all := Nat.ofDigitChars_ten_toDigits (n := number.whole)
      rwa [split, Nat.ofDigitChars_cons, Nat.mul_zero, Nat.zero_add] at all
    have fits : c.toNat - '0'.toNat ≤ maxUnsigned :=
      Nat.le_trans (Nat.sub_le_of_le_add (isDigit_iff.mp digit).2) (by decide : 9 ≤ maxUnsigned)
    obtain ⟨-, isByte, same⟩ := byte_digit digit []
    have reads := wholeDigits_eq (!number.isNegative)
      (fun d member => areDigits d (List.mem_cons_of_mem _ member)) (stops_tail number stops) fits
      cursor.next.line cursor.next.column
    rw [unsignedNumeral, before.peek_cons low]
    dsimp only
    rw [if_neg notZero, if_pos isByte, same, behind]
    rw [value] at reads
    by_cases large : number.whole ≤ maxUnsigned
    · rw [if_pos large] at reads
      obtain ⟨cursor', before', is⟩ := reads
      rw [is]
      exact afterWhole_tells stops before' large
    · rw [if_neg large] at reads
      rw [int?_of_large (Nat.not_le.mp large)]
      exact reads

/-- A number is read as the integer that it is, and as no integer if it is none. -/
theorem numeral_tells {number : NumberText} (stops : Stops rest)
    (before : cursor.Before (number.chars ++ rest)) :
    TellsInt (numeral cursor) number.int? rest := by
  rw [NumberText.chars] at before
  cases sign : number.isNegative with
  | true =>
    rw [sign] at before
    have minus := before.sees_eq (detects_eq 0x2d '-' rfl (by decide))
    have behind : cursor.next.Before (Nat.toDigits 10 number.whole ++ (number.tail ++ rest)) := by
      rw [← List.append_assoc]
      exact before.next_cons (by decide)
    have tells := unsignedNumeral_tells stops behind
    rw [numeral, minus]
    rwa [sign] at tells
  | false =>
    obtain ⟨c, digits, split⟩ := List.exists_cons_of_ne_nil (Nat.toDigits_ne_nil (n := number.whole))
    have notMinus : decide (c = '-') = false := by
      have digit := isDigit_of_mem_toDigits (split ▸ List.mem_cons_self : c ∈ _)
      refine decide_eq_false ?_
      rintro rfl
      contradiction
    rw [sign, if_neg (by decide), List.nil_append] at before
    have minus := before.sees_eq (detects_eq 0x2d '-' rfl (by decide))
    have tells := unsignedNumeral_tells stops (List.append_assoc .. ▸ before)
    rw [split, List.cons_append, List.cons_append, List.head?_cons, Option.any_some, notMinus]
      at minus
    rw [numeral, minus]
    rwa [sign] at tells

theorem dropWhile_digits {digits : List Char} (areDigits : ∀ c ∈ digits, isDigit c = true)
    (stops : ∀ c ∈ later.head?, isDigit c = false) :
    (digits ++ later).dropWhile isDigit = later := by
  rw [List.dropWhile_append_of_pos areDigits]
  cases later with
  | nil => rfl
  | cons c later => exact List.dropWhile_cons_of_neg (by simp [stops c rfl])

theorem someDigits_tells {found : Option Unit} {after : List Char} {cause : Cursor → Outcome Unit}
    {next : Reader Unit} (digits : Digits) (stops : ∀ c ∈ later.head?, isDigit c = false)
    (before : cursor.Before (digits.chars ++ later))
    (goesOn : ∀ cursor : Cursor, cursor.Before later → (next cursor).Tells found after) :
    (someDigits cause next cursor).Tells found after := by
  obtain ⟨c, more, split⟩ := List.exists_cons_of_ne_nil digits.areSome
  have sees := before.sees_eq detects_isDigitByte
  rw [split, List.cons_append, List.head?_cons, Option.any_some,
    digits.areDigits c (split ▸ List.mem_cons_self)] at sees
  rw [someDigits, if_pos sees]
  have skipped := before.skipDigits
  rw [dropWhile_digits digits.areDigits stops] at skipped
  exact goesOn _ skipped

theorem detects_sign : Detects (fun b => b = 0x2b || b = 0x2d) (fun c => c = '+' || c = '-') :=
  (detects_eq 0x2b '+' rfl (by decide)).or (detects_eq 0x2d '-' rfl (by decide))

theorem Stops.noDigit (stops : Stops rest) : ∀ c ∈ rest.head?, isDigit c = false :=
  fun c member => (stops c member).1

theorem skipExponent_tells {exponent : Exponent} (stops : Stops rest)
    (before : cursor.Before (exponent.chars ++ rest)) :
    (skipExponent cursor).Tells (some ()) rest := by
  have mark : (if exponent.isUpper then 'E' else 'e').toNat < 0x80 := by split <;> decide
  have behind := before.next_cons mark
  rw [skipExponent]
  cases sign : exponent.sign with
  | none =>
    obtain ⟨c, more, split⟩ := List.exists_cons_of_ne_nil exponent.digits.areSome
    have noSign : (c = '+' || c = '-') = false := by
      have digit := exponent.digits.areDigits c (split ▸ List.mem_cons_self)
      refine Bool.eq_false_iff.mpr fun isSign => ?_
      simp only [Bool.or_eq_true, decide_eq_true_eq] at isSign
      obtain rfl | rfl := isSign <;> contradiction
    rw [sign] at behind
    have here : cursor.next.Before (exponent.digits.chars ++ rest) := behind
    have sees := here.sees_eq detects_sign
    rw [split, List.cons_append, List.head?_cons, Option.any_some, noSign] at sees
    rw [sees]
    exact someDigits_tells _ stops.noDigit here fun cursor before => .value before
  | some isMinus =>
    rw [sign] at behind
    have here : cursor.next.Before
        ((if isMinus then '-' else '+') :: (exponent.digits.chars ++ rest)) := behind
    have sees := here.sees_eq detects_sign
    have isSign : ((if isMinus then '-' else '+') = '+' || (if isMinus then '-' else '+') = '-')
        = true := by
      cases isMinus <;> decide
    rw [List.head?_cons, Option.any_some, isSign] at sees
    rw [sees]
    exact someDigits_tells _ stops.noDigit (here.next_cons (by cases isMinus <;> decide))
      fun cursor before => .value before

/-- The characters of an exponent begin with its mark. -/
theorem Exponent.head (exponent : Exponent) :
    ∃ mark later, exponent.chars = mark :: later ∧ isMark mark = true ∧ mark ≠ '.' := by
  refine ⟨_, _, rfl, ?_⟩
  split <;> decide

theorem skipExponent?_tells (exponent : Option Exponent) (stops : Stops rest)
    (before : cursor.Before (exponent.elim [] Exponent.chars ++ rest)) :
    (if cursor.sees isExponentMark then skipExponent cursor
      else .value () cursor).Tells (some ()) rest := by
  have sees := before.sees_eq detects_isExponentMark
  cases exponent with
  | none =>
    rw [Option.elim_none, List.nil_append, stops.any_eq_false fun c other => other.2.2] at sees
    rw [sees]
    exact .value before
  | some exponent =>
    obtain ⟨mark, later, split, isMark, -⟩ := exponent.head
    rw [Option.elim_some, split, List.cons_append, List.head?_cons, Option.any_some, isMark] at sees
    rw [sees]
    exact skipExponent_tells stops before

theorem noDigit_exponent (exponent : Option Exponent) (stops : Stops rest) :
    ∀ c ∈ (exponent.elim [] Exponent.chars ++ rest).head?, isDigit c = false := by
  cases exponent with
  | none => exact stops.noDigit
  | some exponent =>
    obtain ⟨mark, later, split, isMark, -⟩ := exponent.head
    rw [Option.elim_some, split]
    rintro c ⟨⟩
    simp only [Json.isMark, Bool.or_eq_true, decide_eq_true_eq] at isMark
    obtain rfl | rfl := isMark <;> decide

theorem skipFraction_tells {number : NumberText} (stops : Stops rest)
    (before : cursor.Before (number.tail ++ rest)) :
    (skipFraction cursor).Tells (some ()) rest := by
  have point := before.sees_eq (detects_eq 0x2e '.' rfl (by decide))
  rw [NumberText.tail, List.append_assoc] at before
  rw [skipFraction, point]
  cases fraction : number.fraction with
  | some digits =>
    rw [fraction] at before
    have behind : cursor.next.Before
        (digits.chars ++ (number.exponent.elim [] Exponent.chars ++ rest)) :=
      before.next_cons (by decide)
    rw [NumberText.tail_fraction fraction, List.cons_append, List.head?_cons, Option.any_some,
      if_pos (by decide)]
    exact someDigits_tells digits (noDigit_exponent _ stops) behind fun cursor here =>
      skipExponent?_tells _ stops here
  | none =>
    have noPoint : (number.tail ++ rest).head?.any (fun c => c = '.') = false := by
      cases exponent : number.exponent with
      | some exponent =>
        obtain ⟨mark, later, split, -, notPoint⟩ := NumberText.tail_exponent fraction exponent
        rw [split]
        exact decide_eq_false notPoint
      | none =>
        rw [NumberText.tail_none fraction exponent]
        exact stops.any_eq_false fun c other => decide_eq_false other.2.1
    rw [fraction] at before
    rw [noPoint]
    exact skipExponent?_tells _ stops before

/-- A number is passed whatever it is. -/
theorem skipNumeral_tells {number : NumberText} (stops : Stops rest)
    (before : cursor.Before (Nat.toDigits 10 number.whole ++ (number.tail ++ rest))) :
    (skipNumeral cursor).Tells (some ()) rest := by
  obtain zero | positive := Nat.eq_zero_or_pos number.whole
  · rw [zero, Nat.toDigits_zero] at before
    have sees := before.sees_eq (detects_eq 0x30 '0' rfl (by decide))
    have behind : cursor.next.Before (number.tail ++ rest) := before.next_cons (by decide)
    have digit := behind.sees_eq detects_isDigitByte
    have noDigit : (number.tail ++ rest).head?.any isDigit = false := by
      cases front : (number.tail ++ rest).head? with
      | none => rfl
      | some c => exact stops_tail number stops c front
    rw [noDigit] at digit
    rw [skipNumeral, sees]
    dsimp only
    rw [if_pos (by rfl), digit, if_neg (by decide)]
    exact skipFraction_tells stops behind
  · obtain ⟨c, digits, split, notZero⟩ := toDigits_eq_cons positive
    have sees := before.sees_eq (detects_eq 0x30 '0' rfl (by decide))
    have digit := before.sees_eq detects_isDigitByte
    rw [split, List.cons_append, List.head?_cons, Option.any_some] at sees digit
    have skipped := before.skipDigits
    rw [dropWhile_digits (fun c => isDigit_of_mem_toDigits) (stops_tail number stops)] at skipped
    rw [skipNumeral, sees, digit, decide_eq_false notZero, if_neg (by decide), if_pos
      (isDigit_of_mem_toDigits (split ▸ List.mem_cons_self : c ∈ _))]
    exact skipFraction_tells stops skipped

theorem skipDigits_takes (before : cursor.Before text) (sees : cursor.sees isDigitByte = true) :
    ∃ digits : Digits, ∃ later, text = digits.chars ++ later ∧ cursor.skipDigits.Before later := by
  obtain ⟨c, later, rfl, digit, -⟩ := before.exists_of_sees detects_isDigitByte sees
  refine ⟨⟨(c :: later).takeWhile isDigit, List.all_eq_true.mp List.all_takeWhile, ?_⟩,
    (c :: later).dropWhile isDigit, (List.takeWhile_append_dropWhile ..).symm, before.skipDigits⟩
  rw [List.takeWhile_cons_of_pos digit]
  exact List.cons_ne_nil _ _

theorem someDigits_takes {form : List Char → Prop} {fault : Cursor → Fault} {next : Reader Unit}
    (before : cursor.Before text)
    (goesOn : ∀ (cursor : Cursor) later, cursor.Before later →
      (next cursor).Takes (fun _ => form) later) :
    (someDigits (fun cursor => .fault (fault cursor)) next cursor).Takes
      (fun _ chunk => ∃ digits : Digits, ∃ more, chunk = digits.chars ++ more ∧ form more) text := by
  rw [someDigits]
  split
  next sees =>
    obtain ⟨digits, later, rfl, before'⟩ := skipDigits_takes before sees
    intro _ after is
    obtain ⟨chunk, rest, rfl, before'', holds⟩ := goesOn _ later before' () after is
    exact ⟨digits.chars ++ chunk, rest, (List.append_assoc ..).symm, before'', digits, chunk, rfl,
      holds⟩
  next => exact .fault _

theorem skipExponent_takes (before : cursor.Before text)
    (sees : cursor.sees isExponentMark = true) :
    (skipExponent cursor).Takes (fun _ chunk => ∃ exponent : Exponent, chunk = exponent.chars)
      text := by
  obtain ⟨mark, later, rfl, isMark, behind⟩ := before.exists_of_sees detects_isExponentMark sees
  obtain ⟨isUpper, rfl⟩ : ∃ isUpper : Bool, mark = if isUpper then 'E' else 'e' := by
    simp only [Json.isMark, Bool.or_eq_true, decide_eq_true_eq] at isMark
    obtain rfl | rfl := isMark
    · exact ⟨false, rfl⟩
    · exact ⟨true, rfl⟩
  rw [skipExponent]
  by_cases sign : cursor.next.sees (fun b => b = 0x2b || b = 0x2d) = true
  · obtain ⟨c, later, rfl, isSign, behind'⟩ := behind.exists_of_sees detects_sign sign
    obtain ⟨isMinus, rfl⟩ : ∃ isMinus : Bool, c = if isMinus then '-' else '+' := by
      simp only [Bool.or_eq_true, decide_eq_true_eq] at isSign
      obtain rfl | rfl := isSign
      · exact ⟨false, rfl⟩
      · exact ⟨true, rfl⟩
    rw [if_pos sign]
    intro _ after is
    obtain ⟨_, rest, rfl, before', digits, _, rfl, rfl⟩ :=
      someDigits_takes behind'
        (fun cursor later before => .value before (rfl : [] = [])) () after is
    refine ⟨_, rest, ?_, before', ⟨isUpper, some isMinus, digits⟩, rfl⟩
    rw [List.append_nil]
    rfl
  · rw [if_neg sign]
    intro _ after is
    obtain ⟨_, rest, rfl, before', digits, _, rfl, rfl⟩ :=
      someDigits_takes behind
        (fun cursor later before => .value before (rfl : [] = [])) () after is
    refine ⟨_, rest, ?_, before', ⟨isUpper, none, digits⟩, rfl⟩
    rw [List.append_nil]
    rfl

theorem skipExponent?_takes (before : cursor.Before text) :
    (if cursor.sees isExponentMark then skipExponent cursor else .value () cursor).Takes
      (fun _ chunk => ∃ exponent : Option Exponent, chunk = exponent.elim [] Exponent.chars)
      text := by
  split
  next sees =>
    refine (skipExponent_takes before sees).mono ?_
    rintro _ _ ⟨exponent, rfl⟩
    exact ⟨some exponent, rfl⟩
  next => exact .value before ⟨none, rfl⟩

/-- What may stand behind the whole part of a number. -/
def IsTailOfNumber (chunk : List Char) : Prop :=
  ∃ (fraction : Option Digits) (exponent : Option Exponent),
    chunk = (fraction.elim [] fun digits => '.' :: digits.chars) ++ exponent.elim [] Exponent.chars

theorem skipFraction_takes (before : cursor.Before text) :
    (skipFraction cursor).Takes (fun _ => IsTailOfNumber) text := by
  rw [skipFraction]
  split
  next sees =>
    obtain ⟨c, later, rfl, isPoint, behind⟩ :=
      before.exists_of_sees (detects_eq 0x2e '.' rfl (by decide)) sees
    obtain rfl := of_decide_eq_true isPoint
    intro _ after is
    obtain ⟨_, rest, rfl, before', digits, _, rfl, exponent, rfl⟩ :=
      someDigits_takes behind (fun cursor later before => skipExponent?_takes before) () after is
    exact ⟨_, rest, rfl, before', some digits, exponent, rfl⟩
  next =>
    refine (skipExponent?_takes before).mono ?_
    rintro _ _ ⟨exponent, rfl⟩
    exact ⟨none, exponent, rfl⟩

/-- Digits that do not begin with a zero are the numeral of a number. -/
theorem exists_toDigits (digits : Digits)
    (notZero : digits.chars.head?.any (fun c => c = '0') = false) :
    ∃ n, digits.chars = Nat.toDigits 10 n := by
  obtain ⟨c, more, split⟩ := List.exists_cons_of_ne_nil digits.areSome
  have areDigits := digits.areDigits
  rw [split] at notZero areDigits ⊢
  have digit := areDigits c List.mem_cons_self
  have low := isDigit_iff.mp digit
  have zero : '0'.toNat = 0x30 := rfl
  have positive : 0 < c.toNat - '0'.toNat := by
    have ne : c.toNat ≠ '0'.toNat := fun same =>
      of_decide_eq_false notZero (Char.toNat_inj.mp same)
    omega
  refine ⟨Nat.ofDigitChars 10 more (c.toNat - '0'.toNat), ?_⟩
  rw [toDigits_ofDigitChars (fun c member => areDigits c (List.mem_cons_of_mem _ member)) positive,
    Nat.toDigits_of_lt_base (by omega), digitChar_of_isDigit digit, List.singleton_append]

/-- What is passed as a number behind its sign is one. -/
theorem skipNumeral_takes (before : cursor.Before text) :
    (skipNumeral cursor).Takes
      (fun _ chunk => ∃ number : NumberText,
        chunk = Nat.toDigits 10 number.whole ++ number.tail) text := by
  rw [skipNumeral]
  split
  next sees =>
    obtain ⟨c, later, rfl, isZero, behind⟩ :=
      before.exists_of_sees (detects_eq 0x30 '0' rfl (by decide)) sees
    obtain rfl := of_decide_eq_true isZero
    dsimp only
    split
    next => exact .fault _
    next =>
      intro _ after is
      obtain ⟨_, rest, rfl, before', fraction, exponent, rfl⟩ := skipFraction_takes behind () after is
      refine ⟨'0' :: _, rest, rfl, before', ⟨false, 0, fraction, exponent⟩, ?_⟩
      rw [Nat.toDigits_zero]
      rfl
  next notZero =>
    split
    next sees =>
      obtain ⟨digits, later, rfl, before'⟩ := skipDigits_takes before sees
      intro _ after is
      obtain ⟨_, rest, rfl, before'', fraction, exponent, rfl⟩ :=
        skipFraction_takes before' () after is
      have isZero := before.sees_eq (detects_eq 0x30 '0' rfl (by decide))
      obtain ⟨n, isNumeral⟩ : ∃ n, digits.chars = Nat.toDigits 10 n := by
        refine exists_toDigits digits ?_
        obtain ⟨c, more, split⟩ := List.exists_cons_of_ne_nil digits.areSome
        rw [split, List.cons_append, List.head?_cons] at isZero
        rw [split, List.head?_cons, ← isZero]
        exact Bool.eq_false_iff.mpr notZero
      exact ⟨_, rest, (List.append_assoc ..).symm, before'', ⟨false, n, fraction, exponent⟩,
        congrArg (· ++ _) isNumeral⟩
    next => exact .fault _

theorem eq_of_afterWhole {positive : Bool} {significand : Nat} {n : Int} {after : Cursor}
    (is : afterWhole positive significand cursor = .value (.int n) after) : after = cursor := by
  rw [afterWhole] at is
  split at is
  · exact absurd is (noInt_fractionPart n after)
  · split at is
    · exact absurd is (noInt_exponentPart n after)
    · split at is
      · cases is
        rfl
      · split at is
        · obtain ⟨is, -⟩ := Outcome.value.inj is
          contradiction
        · cases is
          rfl

theorem wholeDigits_takes {positive : Bool} {significand line column : Nat} {n : Int}
    {after : Cursor}
    (is : wholeDigits positive significand (Utf8.encode text) line column = .value (.int n) after) :
    ∃ digits rest, text = digits ++ rest ∧ (∀ c ∈ digits, isDigit c = true) ∧ after.Before rest := by
  induction text generalizing significand column with
  | nil => exact ⟨[], [], rfl, nofun, eq_of_afterWhole is ▸ rfl⟩
  | cons c later ih =>
    by_cases digit : isDigit c = true
    · obtain ⟨split, isByte, -⟩ := byte_digit digit later
      rw [split, wholeDigits, if_pos isByte] at is
      dsimp only at is
      split at is
      · exact absurd is (noInt_longDigits _ _ _ _ n after)
      · obtain ⟨digits, rest, rfl, areDigits, before⟩ := ih is
        refine ⟨c :: digits, rest, rfl, ?_, before⟩
        rintro d (_ | ⟨_, member⟩)
        · exact digit
        · exact areDigits d member
    · have stops : ∀ d ∈ (c :: later).head?, isDigit d = false := by
        rintro d ⟨⟩
        exact Bool.eq_false_iff.mpr digit
      obtain ⟨cursor, before, ends⟩ := wholeDigits_stop positive stops significand line column
      rw [ends] at is
      exact ⟨[], c :: later, rfl, nofun, eq_of_afterWhole is ▸ before⟩

theorem unsignedNumeral_takes {positive : Bool} {n : Int} {after : Cursor}
    (before : cursor.Before text) (is : unsignedNumeral positive cursor = .value (.int n) after) :
    ∃ (whole : Nat) (rest : List Char), text = Nat.toDigits 10 whole ++ rest ∧ after.Before rest := by
  rw [unsignedNumeral] at is
  split at is
  next => contradiction
  next b front =>
    dsimp only at is
    split at is
    next isZero =>
      subst isZero
      obtain ⟨later, rfl, behind⟩ := before.exists_of_peek (c := '0') front (by decide)
      split at is
      · contradiction
      · exact ⟨0, later, by rw [Nat.toDigits_zero]; rfl, eq_of_afterWhole is ▸ behind⟩
    next notZero =>
      split at is
      next isByte =>
        obtain ⟨c, later, rfl, digit, behind⟩ := before.exists_of_sees detects_isDigitByte
          (by rw [Cursor.sees, front]; exact isByte)
        rw [behind] at is
        obtain ⟨more, rest, rfl, areDigits, before'⟩ := wholeDigits_takes is
        have all : ∀ d ∈ c :: more, isDigit d = true := List.forall_mem_cons.mpr ⟨digit, areDigits⟩
        have noZero : (c :: more).head?.any (fun d => d = '0') = false := by
          rw [before.peek_cons (detects_isDigitByte.low c digit), Option.some_inj] at front
          refine decide_eq_false ?_
          rintro rfl
          exact notZero front.symm
        obtain ⟨whole, isNumeral⟩ := exists_toDigits ⟨c :: more, all, List.cons_ne_nil _ _⟩ noZero
        exact ⟨whole, rest, congrArg (· ++ rest) isNumeral, before'⟩
      next => contradiction

/-- An integer is read off a number. -/
theorem numeral_takes {n : Int} {after : Cursor} (before : cursor.Before text)
    (is : numeral cursor = .value (.int n) after) :
    ∃ (number : NumberText) (rest : List Char), text = number.chars ++ rest ∧ after.Before rest := by
  rw [numeral] at is
  split at is
  next sees =>
    obtain ⟨c, later, rfl, isMinus, behind⟩ :=
      before.exists_of_sees (detects_eq 0x2d '-' rfl (by decide)) sees
    obtain rfl := of_decide_eq_true isMinus
    obtain ⟨whole, rest, rfl, before'⟩ := unsignedNumeral_takes behind is
    exact ⟨⟨true, whole, none, none⟩, rest, by simp [NumberText.chars, NumberText.tail], before'⟩
  next =>
    obtain ⟨whole, rest, rfl, before'⟩ := unsignedNumeral_takes before is
    exact ⟨⟨false, whole, none, none⟩, rest, by simp [NumberText.chars, NumberText.tail], before'⟩

end Isolate.Json
