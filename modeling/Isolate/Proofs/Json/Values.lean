import Isolate.Proofs.Json.Numbers
import Isolate.Proofs.Json.Strings
import Mathlib.Data.List.TakeWhile

/-!
# Values in JSON texts

A reader of values *finds* a meaning of syntax trees if, in front of a text of a tree, it finds what the
tree means and nothing if the tree means nothing to it. It takes values only if all that it reads is a
text of some tree. Both hold of the readers of strings, truth values and natural numbers.
-/

namespace Isolate.Json

open Text

variable {cursor : Cursor} {c : Char} {rest text blanks chunk : List Char} {tree : Tree}

theorem dropWhile_blanks (areBlanks : IsBlanks blanks)
    (notBlank : ∀ c ∈ text.head?, isBlank c = false) :
    (blanks ++ text).dropWhile isBlank = text := by
  rw [List.dropWhile_append_of_pos areBlanks]
  cases text with
  | nil => rfl
  | cons c later => exact List.dropWhile_cons_of_neg (by simp [notBlank c rfl])

theorem Cursor.Before.skipBlanks (before : cursor.Before (blanks ++ text))
    (areBlanks : IsBlanks blanks) (notBlank : ∀ c ∈ text.head?, isBlank c = false) :
    cursor.skipSpaces.Before text := by
  have skipped := before.skipSpaces
  rwa [dropWhile_blanks areBlanks notBlank] at skipped

theorem Cursor.Before.exists_blanks (before : cursor.Before text) :
    ∃ blanks later, text = blanks ++ later ∧ IsBlanks blanks ∧ cursor.skipSpaces.Before later :=
  ⟨text.takeWhile isBlank, text.dropWhile isBlank, (List.takeWhile_append_dropWhile ..).symm,
    List.all_eq_true.mp List.all_takeWhile, before.skipSpaces⟩

theorem word_tells (chars : List Char) (low : ∀ c ∈ chars, c.toNat < 0x80)
    (before : cursor.Before (chars ++ rest)) :
    (word (chars.map byte) cursor).Tells (some ()) rest := by
  induction chars generalizing cursor with
  | nil => exact .value before
  | cons c chars ih =>
    have small := low c List.mem_cons_self
    rw [List.map_cons, word, Cursor.Before.peek_cons before small]
    dsimp only
    rw [if_pos rfl]
    exact ih (fun c member => low c (List.mem_cons_of_mem _ member))
      (Cursor.Before.next_cons before small)

theorem word_takes (chars : List Char) (low : ∀ c ∈ chars, c.toNat < 0x80)
    (before : cursor.Before text) :
    (word (chars.map byte) cursor).Takes (fun _ chunk => chunk = chars) text := by
  induction chars generalizing cursor text with
  | nil => exact .value before rfl
  | cons c chars ih =>
    rw [List.map_cons, word]
    split
    next => exact .fault _
    next b front =>
      split
      next is =>
        subst is
        obtain ⟨later, rfl, behind⟩ := before.exists_of_peek front (low c List.mem_cons_self)
        intro _ after is
        obtain ⟨_, rest, rfl, before', rfl⟩ :=
          ih (fun c member => low c (List.mem_cons_of_mem _ member)) behind () after is
        exact ⟨_, rest, rfl, before', rfl⟩
      next => exact .fault _

def Tree.OpensWith : Tree → Char → Prop
  | .null, c => c = 'n'
  | .bool value, c => c = if value then 't' else 'f'
  | .number _, c => c = '-' ∨ isDigit c = true
  | .string _, c => c = '"'
  | .list _, c => c = '['
  | .object _, c => c = '{'

theorem NumberText.head (number : NumberText) :
    ∃ c more, number.chars = c :: more ∧ (c = '-' ∨ isDigit c = true) := by
  rw [NumberText.chars]
  cases number.isNegative with
  | true => exact ⟨_, _, rfl, .inl rfl⟩
  | false =>
    obtain ⟨c, digits, split⟩ := List.exists_cons_of_ne_nil (Nat.toDigits_ne_nil (n := number.whole))
    rw [split]
    exact ⟨c, _, rfl, .inr (isDigit_of_mem_toDigits (split ▸ List.mem_cons_self))⟩

theorem Spells.head (spells : Spells tree chunk) :
    ∃ c more, chunk = c :: more ∧ tree.OpensWith c := by
  cases tree with
  | null => exact ⟨_, _, spells_null.mp spells, rfl⟩
  | bool value => cases value <;> exact ⟨_, _, spells_bool.mp spells, rfl⟩
  | number number =>
    obtain ⟨c, more, split, opens⟩ := number.head
    exact ⟨c, more, (spells_number.mp spells).trans split, opens⟩
  | string meaning =>
    obtain ⟨pieces, rfl, -⟩ := spells_string.mp spells
    exact ⟨_, _, rfl, rfl⟩
  | list items =>
    obtain ⟨inside, rfl, -⟩ := spells_list.mp spells
    exact ⟨_, _, rfl, rfl⟩
  | object members =>
    obtain ⟨inside, rfl, -⟩ := spells_object.mp spells
    exact ⟨_, _, rfl, rfl⟩

/-- No value begins with a character that stands between values. -/
theorem Tree.OpensWith.ne (opens : tree.OpensWith c) :
    c.toNat < 0x80 ∧ isBlank c = false ∧ c ≠ ']' ∧ c ≠ '}' ∧ c ≠ ',' := by
  have digits : ∀ n < 0x3a, 0x30 ≤ n →
      (Char.ofNat n).toNat < 0x80 ∧ isBlank (Char.ofNat n) = false ∧ Char.ofNat n ≠ ']' ∧
        Char.ofNat n ≠ '}' ∧ Char.ofNat n ≠ ',' := by
    decide
  cases tree with
  | bool value => cases value <;> (obtain rfl := opens; decide)
  | number number =>
    obtain rfl | digit := opens
    · decide
    · have low := isDigit_iff.mp digit
      have := digits c.toNat (by omega) low.1
      rwa [Char.ofNat_toNat] at this
  | _ => obtain rfl := opens; decide

/-- Behind blanks a cursor is in front of a value, and sees the character that it begins with. -/
theorem Cursor.Before.opening (before : cursor.Before (blanks ++ (chunk ++ rest)))
    (areBlanks : IsBlanks blanks) (spells : Spells tree chunk) :
    cursor.skipSpaces.Before (chunk ++ rest) ∧
      ∃ c more, chunk = c :: more ∧ tree.OpensWith c ∧
        cursor.skipSpaces.peek = some (byte c) := by
  obtain ⟨c, more, split, opens⟩ := spells.head
  obtain ⟨low, notBlank, -⟩ := opens.ne
  have front : ∀ d ∈ (chunk ++ rest).head?, isBlank d = false := by
    rw [split]
    rintro d ⟨⟩
    exact notBlank
  have here := before.skipBlanks areBlanks front
  refine ⟨here, c, more, split, opens, ?_⟩
  rw [split] at here
  exact here.peek_cons low

def Tree.OpensByte : Tree → UInt8 → Prop
  | .null, b => b = 0x6e
  | .bool value, b => b = if value then 0x74 else 0x66
  | .number _, b => (b = 0x2d || isDigitByte b) = true
  | .string _, b => b = 0x22
  | .list _, b => b = 0x5b
  | .object _, b => b = 0x7b

theorem Tree.OpensWith.byte (opens : tree.OpensWith c) : tree.OpensByte (byte c) := by
  cases tree with
  | bool value => cases value <;> (obtain rfl := opens; rfl)
  | number number =>
    obtain rfl | digit := opens
    · rfl
    · have same := detects_isDigitByte.same c.toNat (detects_isDigitByte.low c digit)
      rw [Char.ofNat_toNat, digit] at same
      exact Bool.or_eq_true_iff.mpr (.inr same)
  | _ => obtain rfl := opens; rfl

/-- No other value begins as a number does. -/
theorem ne_of_number {b : UInt8} (number : (b = 0x2d || isDigitByte b) = true) :
    b ≠ 0x6e ∧ b ≠ 0x74 ∧ b ≠ 0x66 ∧ b ≠ 0x22 ∧ b ≠ 0x5b ∧ b ≠ 0x7b := by
  refine ⟨?_, ?_, ?_, ?_, ?_, ?_⟩
  all_goals
    rintro rfl
    contradiction

/-- A reader finds the meaning of the tree in front of it, if there is one. -/
def Finds {α : Type} (reader : Reader α) (meaning : Tree → Option α) (tree : Tree) : Prop :=
  ∀ ⦃cursor : Cursor⦄ ⦃blanks chunk rest : List Char⦄, cursor.Before (blanks ++ (chunk ++ rest)) →
    IsBlanks blanks → Spells tree chunk → Ends rest → (reader cursor).Tells (meaning tree) rest

def IsValue (text : List Char) : Prop :=
  ∃ blanks tree chunk, text = blanks ++ chunk ∧ IsBlanks blanks ∧ Spells tree chunk

def TakesValues {α : Type} (reader : Reader α) : Prop :=
  ∀ ⦃cursor : Cursor⦄ ⦃text : List Char⦄, cursor.Before text →
    (reader cursor).Takes (fun _ => IsValue) text

variable {α : Type}

theorem finds_onFirstByte {read : UInt8 → Reader α} {meaning : Tree → Option α}
    (reads : ∀ {b : UInt8} {cursor : Cursor} {chunk rest : List Char},
      cursor.Before (chunk ++ rest) → tree.OpensByte b → Spells tree chunk → Ends rest →
        (read b cursor).Tells (meaning tree) rest) :
    Finds (onFirstByte read) meaning tree := by
  intro cursor blanks chunk rest before areBlanks spells ends
  obtain ⟨here, c, more, -, opens, peek⟩ := before.opening areBlanks spells
  rw [onFirstByte, peek]
  exact reads here opens.byte spells ends

theorem takesValues_onFirstByte {read : UInt8 → Reader α}
    (reads : ∀ {b : UInt8} {cursor : Cursor} {text : List Char},
      cursor.Before text → cursor.peek = some b →
        (read b cursor).Takes (fun _ chunk => ∃ tree, Spells tree chunk) text) :
    TakesValues (onFirstByte read) := by
  intro cursor text before
  obtain ⟨blanks, later, rfl, areBlanks, here⟩ := before.exists_blanks
  rw [onFirstByte]
  split
  next => exact .fault _
  next b front =>
    intro a after is
    obtain ⟨chunk, rest, rfl, before', tree, spells⟩ := reads here front a after is
    exact ⟨blanks ++ chunk, rest, (List.append_assoc ..).symm, before', blanks, tree, chunk, rfl,
      areBlanks, spells⟩

/-- What is of another type is no value. -/
theorem wrongType_tells (expected : String) (cursor : Cursor) (rest : List Char) :
    (wrongType expected cursor : Outcome α).Tells none rest := by
  intro a after is
  rw [wrongType] at is
  dsimp only at is
  split at is
  · contradiction
  · split at is
    · obtain ⟨_, _, -, is⟩ := Outcome.exists_of_andThen is
      contradiction
    · split at is
      · obtain ⟨_, _, -, is⟩ := Outcome.exists_of_andThen is
        contradiction
      · split at is
        · obtain ⟨_, _, -, is⟩ := Outcome.exists_of_andThen is
          contradiction
        · split at is
          · obtain ⟨numeral, _, -, is⟩ := Outcome.exists_of_andThen is
            cases numeral <;> contradiction
          · split at is
            · obtain ⟨_, _, -, is⟩ := Outcome.exists_of_andThen is
              contradiction
            · split at is
              · contradiction
              · split at is <;> contradiction

theorem wrongType_takes (expected : String) (cursor : Cursor) {form : α → List Char → Prop} :
    (wrongType expected cursor : Outcome α).Takes form text := by
  intro a after is
  exact absurd is (wrongType_tells expected cursor [] a after)

def Tree.string? : Tree → Option String
  | .string meaning => meaning
  | _ => none

def Tree.bool? : Tree → Option Bool
  | .bool value => some value
  | _ => none

def Tree.unsigned? : Tree → Option Nat
  | .number text => text.int?.bind Int.toNat?
  | _ => none

theorem finds_stringValue (expected : String) (tree : Tree) :
    Finds (stringValue expected) Tree.string? tree := by
  refine finds_onFirstByte fun {b cursor chunk rest} before opens spells ends => ?_
  cases tree with
  | string meaning =>
    obtain rfl := opens
    obtain ⟨pieces, rfl, rfl⟩ := spells_string.mp spells
    rw [List.cons_append, List.append_assoc] at before
    exact stringTail_tells (before.next_cons (by decide))
  | number number =>
    rw [if_neg (ne_of_number opens).2.2.2.1]
    exact wrongType_tells _ _ _
  | bool value =>
    obtain rfl := opens
    rw [if_neg (by cases value <;> decide)]
    exact wrongType_tells _ _ _
  | _ =>
    obtain rfl := opens
    exact wrongType_tells _ _ _

theorem finds_boolValue (tree : Tree) : Finds boolValue Tree.bool? tree := by
  refine finds_onFirstByte fun {b cursor chunk rest} before opens spells ends => ?_
  cases tree with
  | bool value =>
    obtain rfl := opens
    obtain rfl := spells_bool.mp spells
    cases value with
    | true => exact (word_tells "rue".toList (by simp) (before.next_cons (by decide))).map _
    | false => exact (word_tells "alse".toList (by simp) (before.next_cons (by decide))).map _
  | number number =>
    obtain ⟨-, noTrue, noFalse, -⟩ := ne_of_number opens
    rw [if_neg noTrue, if_neg noFalse]
    exact wrongType_tells _ _ _
  | _ =>
    obtain rfl := opens
    exact wrongType_tells _ _ _

theorem finds_unsignedValue (expected : String) (tree : Tree) :
    Finds (unsignedValue expected) Tree.unsigned? tree := by
  refine finds_onFirstByte fun {b cursor chunk rest} before opens spells ends => ?_
  cases tree with
  | number number =>
    obtain rfl := spells_number.mp spells
    have tells := numeral_tells ends.stops before
    have isNumber : (b = 0x2d || isDigitByte b) = true := opens
    rw [if_pos isNumber, Tree.unsigned?]
    cases found : number.int? with
    | some n =>
      rw [found] at tells
      obtain ⟨after, is, here⟩ := tells
      rw [is]
      cases n with
      | ofNat n => exact .value here
      | negSucc n => exact .fault _
    | none =>
      rw [found] at tells
      intro n after is
      obtain ⟨numeral, after', is', is⟩ := Outcome.exists_of_andThen is
      cases numeral with
      | int n => exact tells n after' is'
      | real f => contradiction
  | bool value =>
    obtain rfl := opens
    rw [if_neg (by cases value <;> decide)]
    exact wrongType_tells _ _ _
  | _ =>
    obtain rfl := opens
    exact wrongType_tells _ _ _

theorem takesValues_stringValue (expected : String) : TakesValues (stringValue expected) := by
  refine takesValues_onFirstByte fun {b cursor text} before front => ?_
  split
  next isQuote =>
    subst isQuote
    obtain ⟨later, rfl, behind⟩ := before.exists_of_peek (c := '"') front (by decide)
    intro found after is
    obtain ⟨_, rest, rfl, before', pieces, rfl⟩ := stringTail_takes behind found after is
    exact ⟨'"' :: closed pieces [], rest, rfl, before', .string _,
      spells_string.mpr ⟨pieces, rfl, rfl⟩⟩
  next => exact wrongType_takes _ _

theorem takesValues_boolValue : TakesValues boolValue := by
  refine takesValues_onFirstByte fun {b cursor text} before front => ?_
  split
  next isTrue =>
    subst isTrue
    obtain ⟨later, rfl, behind⟩ := before.exists_of_peek (c := 't') front (by decide)
    refine .map fun _ after is => ?_
    obtain ⟨_, rest, rfl, before', rfl⟩ := word_takes "rue".toList (by simp) behind () after is
    exact ⟨"true".toList, rest, rfl, before', .bool true, spells_bool.mpr rfl⟩
  next =>
    split
    next isFalse =>
      subst isFalse
      obtain ⟨later, rfl, behind⟩ := before.exists_of_peek (c := 'f') front (by decide)
      refine .map fun _ after is => ?_
      obtain ⟨_, rest, rfl, before', rfl⟩ := word_takes "alse".toList (by simp) behind () after is
      exact ⟨"false".toList, rest, rfl, before', .bool false, spells_bool.mpr rfl⟩
    next => exact wrongType_takes _ _

theorem takesValues_unsignedValue (expected : String) : TakesValues (unsignedValue expected) := by
  refine takesValues_onFirstByte fun {b cursor text} before front => ?_
  split
  next =>
    intro n after is
    obtain ⟨numeral, cursor', is', is⟩ := Outcome.exists_of_andThen is
    cases numeral with
    | int n =>
      obtain ⟨number, rest, rfl, before'⟩ := numeral_takes before is'
      cases n with
      | ofNat n =>
        cases is
        exact ⟨number.chars, rest, rfl, before', .number number, spells_number.mpr rfl⟩
      | negSucc n => contradiction
    | real f => contradiction
  next => exact wrongType_takes _ _

theorem ends_of_isBlanks (areBlanks : IsBlanks text) : Ends text :=
  fun c isHead => .inl (areBlanks c (List.mem_of_mem_head? isHead))

/-- Nothing but blanks stands behind the value of a text. -/
theorem finish_eq_ok_iff {outcome : Outcome α} {a : α} :
    finish outcome = .ok a ↔ ∃ cursor, outcome = .value a cursor ∧ cursor.skipSpaces.peek = none := by
  cases outcome with
  | value a' cursor =>
    rw [finish, Outcome.placed]
    · dsimp only
      split
      next isEnd =>
        constructor
        · rintro ⟨⟩
          exact ⟨cursor, rfl, isEnd⟩
        · rintro ⟨_, ⟨⟩, -⟩
          rfl
      next notEnd =>
        constructor
        · nofun
        · rintro ⟨_, ⟨⟩, isEnd⟩
          exact absurd (notEnd.symm.trans isEnd) nofun
    · nofun
  | fault _ => simp [finish, Outcome.placed]
  | unplaced _ _ => simp [finish, Outcome.placed]

/-- A reader that finds the tree of a text reads the text as what the tree means. -/
theorem readText_eq_ok_iff {reader : Reader α} {meaning : Tree → Option α} {text : String} {a : α}
    (finds : Finds reader meaning tree) (isText : IsText tree text.toList) :
    readText reader text = .ok a ↔ meaning tree = some a := by
  obtain ⟨before, chunk, after, split, areBlanks, spells, areBlanks'⟩ := isText
  have start := Cursor.before_start text
  rw [split] at start
  have tells := finds start areBlanks spells (ends_of_isBlanks areBlanks')
  rw [readText, split, finish_eq_ok_iff]
  constructor
  · rintro ⟨cursor, is, -⟩
    exact (tells.eq_value is).1
  · intro is
    rw [is] at tells
    obtain ⟨cursor, is, here⟩ := tells
    refine ⟨cursor, is, ?_⟩
    have skipped := here.skipSpaces
    rw [List.dropWhile_eq_nil_iff.mpr areBlanks'] at skipped
    exact skipped.peek_nil

/-- A text that a reader takes has a syntax tree. -/
theorem exists_isText_of_readText {reader : Reader α} {text : String} {a : α}
    (takes : TakesValues reader) (isRead : readText reader text = .ok a) :
    ∃ tree, IsText tree text.toList := by
  obtain ⟨cursor, is, isEnd⟩ := finish_eq_ok_iff.mp isRead
  obtain ⟨_, rest, split, before, blanks, tree, chunk, rfl, areBlanks, spells⟩ :=
    takes (Cursor.before_start text) a cursor is
  have skipped := before.skipSpaces.eq_nil isEnd
  refine ⟨tree, blanks, chunk, rest, by rw [split, List.append_assoc], areBlanks, spells, ?_⟩
  exact List.dropWhile_eq_nil_iff.mp skipped

end Isolate.Json
