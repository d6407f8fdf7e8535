import Isolate.Json.Reader
import Isolate.Proofs.Text.Utf8

/-!
# Readers over texts

A reader goes by bytes, and what it reads is text. A cursor stands *before* a text if the bytes left are
its encoding. Here is what the steps of a cursor do before a text, when an outcome *tells* a value and the
text left behind it, and when a reader *takes* texts of one form only.
-/

namespace Isolate.Json

open Text

def byte (c : Char) : UInt8 := c.toNat.toUInt8

def isBlank (c : Char) : Bool := c = ' ' || c = '\n' || c = '\t' || c = '\r'

def isDigit (c : Char) : Bool := '0' ≤ c && c ≤ '9'

def isMark (c : Char) : Bool := c = 'e' || c = 'E'

variable {c : Char} {text later : List Char}

theorem isDigit_iff : isDigit c = true ↔ 0x30 ≤ c.toNat ∧ c.toNat ≤ 0x39 := by
  rw [isDigit, Bool.and_eq_true, decide_eq_true_eq, decide_eq_true_eq]
  exact Iff.rfl

/-- The first byte of a character is an ASCII byte just if the character is. -/
theorem exists_encode_cons (c : Char) (later : List Char) :
    ∃ b more, Utf8.encode (c :: later) = b :: more ∧
      (c.toNat < 0x80 → b = byte c ∧ more = Utf8.encode later) ∧
        (0x80 ≤ c.toNat → 0x80 ≤ b.toNat) := by
  by_cases low : c.toNat < 0x80
  · refine ⟨byte c, Utf8.encode later, Utf8.encode_cons_ascii low later, fun _ => ⟨rfl, rfl⟩, ?_⟩
    intro high
    omega
  · obtain ⟨b, more, split⟩ : ∃ b more, Utf8.encodeChar c = b :: more := by
      rw [Utf8.encodeChar_eq]
      exact List.exists_cons_of_ne_nil String.utf8EncodeChar_ne_nil
    refine ⟨b, more ++ Utf8.encode later, ?_, fun small => absurd small low, fun high => ?_⟩
    · rw [Utf8.encode_cons, split, List.cons_append]
    · exact Utf8.le_of_mem_encodeChar high (split ▸ List.mem_cons_self)

theorem eq_of_byte {d : Char} (low : c.toNat < 0x80) (low' : d.toNat < 0x80)
    (same : byte c = byte d) : c = d := by
  have value := congrArg UInt8.toNat same
  rw [byte, byte, Utf8.toNat_toUInt8 (by omega), Utf8.toNat_toUInt8 (by omega)] at value
  exact Char.toNat_inj.mp value

/-- The byte of an ASCII character in front is that character. -/
theorem eq_cons_of_encode {bytes : List UInt8} (front : Utf8.encode text = byte c :: bytes)
    (low : c.toNat < 0x80) : ∃ later, text = c :: later ∧ bytes = Utf8.encode later := by
  have value : (byte c).toNat = c.toNat := Utf8.toNat_toUInt8 (by omega)
  obtain ⟨later, is, rest⟩ := Utf8.eq_cons_of_encode front (by omega)
  exact ⟨later, by rw [is, value, Char.ofNat_toNat], rest⟩

/-- A test of bytes that the bytes of some ASCII characters pass and no others. -/
structure Detects (p : UInt8 → Bool) (q : Char → Bool) : Prop where
  ascii : ∀ b, p b = true → b.toNat < 0x80
  low : ∀ c, q c = true → c.toNat < 0x80
  same : ∀ n < 0x80, p n.toUInt8 = q (Char.ofNat n)

/-- The first byte of any character tells its class. -/
theorem Detects.head_eq {p : UInt8 → Bool} {q : Char → Bool} (detects : Detects p q) {b : UInt8}
    (isByte : c.toNat < 0x80 → b = byte c) (high : 0x80 ≤ c.toNat → 0x80 ≤ b.toNat) :
    p b = q c := by
  by_cases small : c.toNat < 0x80
  · rw [isByte small, byte, detects.same c.toNat small, Char.ofNat_toNat]
  · rw [Bool.eq_iff_iff]
    constructor
    · intro passed
      have := detects.ascii b passed
      have := high (by omega)
      omega
    · intro passed
      exact absurd (detects.low c passed) small

theorem detects_isSpace : Detects Cursor.isSpace isBlank where
  ascii b passed := by
    simp only [Cursor.isSpace, Bool.or_eq_true, decide_eq_true_eq] at passed
    obtain ((rfl | rfl) | rfl) | rfl := passed <;> decide
  low c blank := by
    simp only [isBlank, Bool.or_eq_true, decide_eq_true_eq] at blank
    obtain ((rfl | rfl) | rfl) | rfl := blank <;> decide
  same := by decide

theorem detects_isDigitByte : Detects isDigitByte isDigit where
  ascii b passed := by
    simp only [isDigitByte, Bool.and_eq_true, decide_eq_true_eq, UInt8.le_iff_toNat_le,
      UInt8.reduceToNat] at passed
    omega
  low c digit := by
    rw [isDigit_iff] at digit
    omega
  same := by decide

theorem detects_isExponentMark : Detects isExponentMark isMark where
  ascii b passed := by
    simp only [isExponentMark, Bool.or_eq_true, decide_eq_true_eq] at passed
    obtain rfl | rfl := passed <;> decide
  low c mark := by
    simp only [isMark, Bool.or_eq_true, decide_eq_true_eq] at mark
    obtain rfl | rfl := mark <;> decide
  same := by decide

theorem detects_eq (b : UInt8) (c : Char) (isByte : b = byte c) (low : c.toNat < 0x80) :
    Detects (fun b' => b' = b) (fun d => d = c) where
  ascii b' is := by
    rw [of_decide_eq_true is, isByte, byte, Utf8.toNat_toUInt8 (by omega)]
    exact low
  low d is := of_decide_eq_true is ▸ low
  same n small := by
    rw [isByte]
    refine decide_eq_decide.mpr ⟨fun is => ?_, fun is => ?_⟩
    · have value := congrArg UInt8.toNat is
      rw [byte, Utf8.toNat_toUInt8 (by omega), Utf8.toNat_toUInt8 (by omega)] at value
      rw [value, Char.ofNat_toNat]
    · rw [← is, byte, Utf8.toNat_ofNat (.inl (by omega))]

theorem Detects.or {p p' : UInt8 → Bool} {q q' : Char → Bool} (first : Detects p q)
    (second : Detects p' q') : Detects (fun b => p b || p' b) (fun c => q c || q' c) where
  ascii b passed := by
    obtain passed | passed := Bool.or_eq_true_iff.mp passed
    · exact first.ascii b passed
    · exact second.ascii b passed
  low c passed := by
    obtain passed | passed := Bool.or_eq_true_iff.mp passed
    · exact first.low c passed
    · exact second.low c passed
  same n small := by rw [first.same n small, second.same n small]

def Cursor.Before (cursor : Cursor) (text : List Char) : Prop := cursor.rest = Utf8.encode text

namespace Cursor

variable {cursor : Cursor}

theorem rest_next : cursor.next.rest = cursor.rest.tail := by
  rw [next]
  split
  next none => rw [none, List.tail_nil]
  next some => rw [some, List.tail_cons]; split <;> rfl

theorem length_next_lt (cursor : Cursor) : cursor.next.rest.length < cursor.rest.length + 1 := by
  rw [rest_next, List.length_tail]
  omega

theorem rest_passSpaces (text : List Char) (line column : Nat) :
    (passSpaces (Utf8.encode text) line column).rest = Utf8.encode (text.dropWhile isBlank) := by
  induction text generalizing line column with
  | nil => rfl
  | cons c later ih =>
    obtain ⟨b, more, split, isByte, high⟩ := exists_encode_cons c later
    have same := detects_isSpace.head_eq (fun low => (isByte low).1) high
    rw [List.dropWhile_cons, ← same, split, passSpaces]
    by_cases blank : isSpace b = true
    · have behind := (isByte (detects_isSpace.low c (same ▸ blank))).2
      rw [if_pos blank, if_pos blank, behind]
      split <;> apply ih
    · have line : b ≠ 0x0a := fun isLine => blank (isLine ▸ rfl)
      rw [if_neg line, if_neg blank, if_neg blank, split]

theorem length_passSpaces_le (bytes : List UInt8) (line column : Nat) :
    (passSpaces bytes line column).rest.length ≤ bytes.length := by
  induction bytes generalizing line column with
  | nil => exact Nat.le_refl _
  | cons b bytes ih =>
    rw [passSpaces]
    split
    · exact Nat.le_succ_of_le (ih _ _)
    · split
      · exact Nat.le_succ_of_le (ih _ _)
      · exact Nat.le_refl _

theorem length_skipSpaces_le (cursor : Cursor) :
    cursor.skipSpaces.rest.length ≤ cursor.rest.length := length_passSpaces_le _ _ _

theorem rest_passDigits (text : List Char) (line column : Nat) :
    (passDigits (Utf8.encode text) line column).rest = Utf8.encode (text.dropWhile isDigit) := by
  induction text generalizing line column with
  | nil => rfl
  | cons c later ih =>
    obtain ⟨b, more, split, isByte, high⟩ := exists_encode_cons c later
    have same := detects_isDigitByte.head_eq (fun low => (isByte low).1) high
    rw [List.dropWhile_cons, ← same, split, passDigits]
    by_cases digit : isDigitByte b = true
    · have behind := (isByte (detects_isDigitByte.low c (same ▸ digit))).2
      rw [if_pos digit, if_pos digit, behind, ih]
    · rw [if_neg digit, if_neg digit, split]

namespace Before

theorem peek_nil (before : cursor.Before []) : cursor.peek = none := by
  rw [peek, before]
  rfl

theorem rest_cons (before : cursor.Before (c :: later)) (low : c.toNat < 0x80) :
    cursor.rest = byte c :: Utf8.encode later := by
  rw [before, Utf8.encode_cons_ascii low, byte]

theorem peek_cons (before : cursor.Before (c :: later)) (low : c.toNat < 0x80) :
    cursor.peek = some (byte c) := by
  rw [peek, before.rest_cons low, List.head?_cons]

theorem next_cons (before : cursor.Before (c :: later)) (low : c.toNat < 0x80) :
    cursor.next.Before later := by
  rw [Before, rest_next, before.rest_cons low, List.tail_cons]

theorem eq_nil (before : cursor.Before text) (none : cursor.peek = none) : text = [] := by
  rw [peek, List.head?_eq_none_iff, before] at none
  exact Utf8.encode_injective none

/-- An ASCII byte in front is the first character. -/
theorem exists_of_peek (before : cursor.Before text) (front : cursor.peek = some (byte c))
    (low : c.toNat < 0x80) : ∃ later, text = c :: later ∧ cursor.next.Before later := by
  obtain ⟨bytes, split⟩ := List.head?_eq_some_iff.mp front
  obtain ⟨later, rfl, rest⟩ := eq_cons_of_encode (before.symm.trans split) low
  exact ⟨later, rfl, by rw [Before, rest_next, split, List.tail_cons, rest]⟩

theorem sees_eq {p : UInt8 → Bool} {q : Char → Bool} (before : cursor.Before text)
    (detects : Detects p q) : cursor.sees p = text.head?.any q := by
  cases text with
  | nil => rw [sees, before.peek_nil, List.head?_nil, Option.any_none]
  | cons c later =>
    obtain ⟨b, more, split, isByte, high⟩ := exists_encode_cons c later
    rw [sees, peek, before, split, List.head?_cons, List.head?_cons, Option.any_some]
    exact detects.head_eq (fun low => (isByte low).1) high

theorem exists_of_sees {p : UInt8 → Bool} {q : Char → Bool} (before : cursor.Before text)
    (detects : Detects p q) (sees : cursor.sees p = true) :
    ∃ c later, text = c :: later ∧ q c = true ∧ cursor.next.Before later := by
  rw [before.sees_eq detects] at sees
  obtain _ | ⟨c, later⟩ := text
  · contradiction
  · exact ⟨c, later, rfl, sees, before.next_cons (detects.low c sees)⟩

/-- A cursor further on has fewer bytes left. -/
theorem length_lt_of_ne_nil {cursor' : Cursor} {chunk : List Char}
    (before : cursor.Before (chunk ++ later)) (before' : cursor'.Before later)
    (moved : chunk ≠ []) : cursor'.rest.length < cursor.rest.length := by
  obtain ⟨c, chunk, rfl⟩ := List.exists_cons_of_ne_nil moved
  obtain ⟨b, more, split, -⟩ := exists_encode_cons c chunk
  rw [before, before', Utf8.encode_append, split, List.length_append, List.length_cons]
  omega

theorem length_lt {cursor' : Cursor} {chunk : List Char}
    (before : cursor.Before (c :: (chunk ++ later))) (before' : cursor'.Before later) :
    cursor'.rest.length < cursor.rest.length :=
  length_lt_of_ne_nil before before' (List.cons_ne_nil c chunk)

theorem skipSpaces (before : cursor.Before text) :
    cursor.skipSpaces.Before (text.dropWhile isBlank) := by
  rw [Before, Cursor.skipSpaces, before, rest_passSpaces]

theorem skipDigits (before : cursor.Before text) :
    cursor.skipDigits.Before (text.dropWhile isDigit) := by
  rw [Before, Cursor.skipDigits, before, rest_passDigits]

end Before

theorem before_start (text : String) :
    (start (Utf8.encode text.toList)).Before text.toList := rfl

end Cursor

theorem Outcome.exists_of_andThen {α β : Type} {outcome : Outcome α} {next : α → Reader β} {b : β}
    {cursor : Cursor} (is : outcome.andThen next = .value b cursor) :
    ∃ a cursor', outcome = .value a cursor' ∧ next a cursor' = .value b cursor := by
  cases outcome with
  | value a cursor' => exact ⟨a, cursor', rfl, is⟩
  | fault _ => contradiction
  | unplaced _ _ => contradiction

theorem Outcome.exists_of_map {α β : Type} {outcome : Outcome α} {f : α → β} {b : β}
    {cursor : Cursor} (is : outcome.map f = .value b cursor) :
    ∃ a, outcome = .value a cursor ∧ f a = b := by
  cases outcome with
  | value a cursor' =>
    cases is
    exact ⟨a, rfl, rfl⟩
  | fault _ => contradiction
  | unplaced _ _ => contradiction

/-- The outcome is the value, found in front of this text, or no value is found. -/
def Outcome.Tells {α : Type} (outcome : Outcome α) (found : Option α) (rest : List Char) : Prop :=
  match found with
  | some a => ∃ cursor, outcome = .value a cursor ∧ cursor.Before rest
  | none => ∀ a cursor, outcome ≠ .value a cursor

namespace Outcome.Tells

variable {α β : Type} {outcome : Outcome α} {found : Option α} {rest rest' : List Char}

theorem value {a : α} {cursor : Cursor} (before : cursor.Before rest) :
    (Outcome.value a cursor).Tells (some a) rest :=
  ⟨cursor, rfl, before⟩

theorem fault (fault : Fault) : (Outcome.fault fault : Outcome α).Tells none rest := nofun

theorem unplaced (cause : Cause) (cursor : Cursor) :
    (Outcome.unplaced cause cursor : Outcome α).Tells none rest := nofun

theorem map (tells : outcome.Tells found rest) (f : α → β) :
    (outcome.map f).Tells (found.map f) rest := by
  cases found with
  | some a =>
    obtain ⟨cursor, rfl, before⟩ := tells
    exact .value before
  | none =>
    cases outcome with
    | value a cursor => exact absurd rfl (tells a cursor)
    | fault _ => exact .fault _
    | unplaced _ _ => exact .unplaced _ _

theorem andThen {next : α → Reader β} (tells : outcome.Tells found rest) (later : α → Option β)
    (goesOn : ∀ a cursor, found = some a → cursor.Before rest →
      (next a cursor).Tells (later a) rest') :
    (outcome.andThen next).Tells (found.bind later) rest' := by
  cases found with
  | some a =>
    obtain ⟨cursor, rfl, before⟩ := tells
    exact goesOn a cursor rfl before
  | none =>
    cases outcome with
    | value a cursor => exact absurd rfl (tells a cursor)
    | fault _ => exact .fault _
    | unplaced _ _ => exact .unplaced _ _

theorem andThen_some {next : α → Reader β} {a : α} {later : Option β}
    (tells : outcome.Tells (some a) rest)
    (goesOn : ∀ cursor : Cursor, cursor.Before rest → (next a cursor).Tells later rest') :
    (outcome.andThen next).Tells later rest' := by
  obtain ⟨cursor, rfl, before⟩ := tells
  exact goesOn cursor before

/-- Where nothing is found, nothing is read behind it. -/
theorem andThen_none {next : α → Reader β} (tells : outcome.Tells none rest) :
    (outcome.andThen next).Tells none rest' :=
  tells.andThen (fun _ => none) nofun

theorem eq_value {a : α} {cursor : Cursor} (tells : outcome.Tells found rest)
    (is : outcome = .value a cursor) : found = some a ∧ cursor.Before rest := by
  cases found with
  | some a' =>
    obtain ⟨cursor', rfl, before⟩ := tells
    cases is
    exact ⟨rfl, before⟩
  | none => exact absurd is (tells a cursor)

end Outcome.Tells

/-- What stands in front of the text that a value leaves has a form. -/
def Outcome.Takes {α : Type} (outcome : Outcome α) (form : α → List Char → Prop)
    (text : List Char) : Prop :=
  ∀ a cursor, outcome = .value a cursor →
    ∃ chunk rest, text = chunk ++ rest ∧ cursor.Before rest ∧ form a chunk

namespace Outcome.Takes

variable {α β : Type} {outcome : Outcome α} {form form' : α → List Char → Prop}

theorem fault (fault : Fault) : (Outcome.fault fault : Outcome α).Takes form text := nofun

theorem unplaced (cause : Cause) (cursor : Cursor) :
    (Outcome.unplaced cause cursor : Outcome α).Takes form text := nofun

theorem value {a : α} {cursor : Cursor} (before : cursor.Before text) (holds : form a []) :
    (Outcome.value a cursor).Takes form text := by
  intro a' cursor' is
  cases is
  exact ⟨[], text, rfl, before, holds⟩

theorem mono (takes : outcome.Takes form text) (implies : ∀ a chunk, form a chunk → form' a chunk) :
    outcome.Takes form' text := by
  intro a cursor is
  obtain ⟨chunk, rest, split, before, holds⟩ := takes a cursor is
  exact ⟨chunk, rest, split, before, implies a chunk holds⟩

theorem map {f : α → β} {form : β → List Char → Prop}
    (takes : outcome.Takes (fun a => form (f a)) text) : (outcome.map f).Takes form text := by
  cases outcome with
  | value a cursor =>
    intro b cursor' is
    cases is
    exact takes a cursor rfl
  | fault _ => exact .fault _
  | unplaced _ _ => exact .unplaced _ _

theorem andThen {next : α → Reader β} {last : β → List Char → Prop}
    (takes : outcome.Takes form text)
    (goesOn : ∀ a chunk rest cursor, form a chunk → text = chunk ++ rest → cursor.Before rest →
      (next a cursor).Takes (fun b more => last b (chunk ++ more)) rest) :
    (outcome.andThen next).Takes last text := by
  cases outcome with
  | value a cursor =>
    obtain ⟨chunk, rest, rfl, before, holds⟩ := takes a cursor rfl
    intro b cursor' is
    obtain ⟨more, rest', rfl, before', holds'⟩ :=
      goesOn a chunk rest cursor holds rfl before b cursor' is
    exact ⟨chunk ++ more, rest', (List.append_assoc ..).symm, before', holds'⟩
  | fault _ => exact .fault _
  | unplaced _ _ => exact .unplaced _ _

end Outcome.Takes

end Isolate.Json
