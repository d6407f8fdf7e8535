import Isolate.Proofs.Glob.Places
import Mathlib.Data.List.Forall2
import Mathlib.Data.List.Infix

/-!
# Segments

A plain glob has only literal characters and wildcards that stay within a component. What its separators
split it into are its segments, and what it spells is split into one piece for each of them that fits it.
The ends of a text that start behind a separator are the ends of the list of its pieces, so a plain glob
accepts a text exactly if its segments fit the last pieces one by one.
-/

namespace Isolate.Glob

open Expression

/-- A glob of literal characters, single bytes and runs. -/
structure IsPlain (pattern : List Char) : Prop where
  literal : ∀ c ∈ pattern, c ∉ ['[', '{', '}', '\\']
  apart : ¬['*', '*'] <:+: pattern

-- The first condition is checked along the pattern, never over all characters.
instance decidableIsPlain (pattern : List Char) : Decidable (IsPlain pattern) :=
  decidable_of_iff ((pattern.all (· ∉ ['[', '{', '}', '\\'])) = true ∧ ¬['*', '*'] <:+: pattern)
    ⟨fun ⟨literal, apart⟩ =>
        ⟨fun c member => of_decide_eq_true (List.all_eq_true.mp literal c member), apart⟩,
      fun plain =>
        ⟨List.all_eq_true.mpr fun c member => decide_eq_true (plain.literal c member), plain.apart⟩⟩

/-- A piece fits a segment: `?` stands for one byte, `*` for any bytes and everything else for itself. -/
inductive Fits : (segment : List Char) → (piece : List UInt8) → Prop
  | nil : Fits [] []
  | any {segment : List Char} {piece : List UInt8} (b : UInt8) (rest : Fits segment piece) :
    Fits ('?' :: segment) (b :: piece)
  | run {segment : List Char} {piece : List UInt8} (front : List UInt8) (rest : Fits segment piece) :
    Fits ('*' :: segment) (front ++ piece)
  | literal {segment : List Char} {piece : List UInt8} {c : Char} (single : c ≠ '?') (several : c ≠ '*')
    (rest : Fits segment piece) : Fits (c :: segment) (Text.Utf8.encodeChar c ++ piece)

/-- What a character of a plain glob stands for. -/
def plainToken : Char → Token
  | '?' => .any
  | '*' => .anyRun
  | c => .literal c

variable {pattern segment : List Char} {text bytes piece : List UInt8} {segments : List (List Char)}
  {c : Char}

theorem readFrom_of_isPlain (plain : IsPlain pattern) (branch : List Token) (last : Option Char) :
    ∃ last', readFrom ⟨[branch], [], last, .outside⟩ pattern =
      .ok ⟨[(pattern.map plainToken).reverse ++ branch], [], last', .outside⟩ := by
  induction pattern generalizing branch last with
  | nil => exact ⟨last, rfl⟩
  | cons c rest ih =>
    have plain' : IsPlain rest :=
      ⟨fun d member => plain.literal d (List.mem_cons_of_mem c member),
        fun twice => plain.apart (twice.trans (List.suffix_cons c rest).isInfix)⟩
    have allowed := plain.literal c List.mem_cons_self
    rw [List.map_cons, List.reverse_cons, List.append_assoc]
    unfold readFrom
    dsimp only
    split
    next star =>
      subst star
      split
      next => exact absurd ⟨[], _, rfl⟩ plain.apart
      next => exact ih plain' _ _
    next ordinary =>
      have pushed : Reading.plainChar ⟨[branch], [], last, .outside⟩ c =
          .ok ⟨[plainToken c :: branch], [], last, .outside⟩ := by
        unfold Reading.plainChar
        split <;> simp_all [plainToken, Reading.push, Reading.comma]
      rw [if_neg (by grind), pushed]
      exact ih plain' _ _

/-- A plain glob is read character by character. -/
theorem read_of_isPlain (plain : IsPlain pattern) : read pattern = .ok (pattern.map plainToken) := by
  obtain ⟨last, reads⟩ := readFrom_of_isPlain plain [] none
  unfold read
  rw [show ({} : Reading) = ⟨[[]], [], none, .outside⟩ from rfl, reads]
  simp

def Writes (pattern : List Char) (bytes : List UInt8) : Prop :=
  (sequence (expressions (pattern.map plainToken))).Spells bytes

theorem spells_exactly {expected : List UInt8} :
    (sequence (expected.map fun b => .byte (· == b))).Spells bytes ↔ bytes = expected := by
  induction expected generalizing bytes with
  | nil => rfl
  | cons b expected ih =>
    constructor
    · rintro ⟨_, v, rfl, ⟨c, found, rfl⟩, rest⟩
      rw [ih.mp rest, beq_iff_eq.mp found, List.singleton_append]
    · rintro rfl
      exact ⟨[b], expected, rfl, ⟨b, beq_self_eq_true b, rfl⟩, ih.mpr rfl⟩

theorem spells_single {e : Expression} : (sequence [e]).Spells bytes ↔ e.Spells bytes := by
  constructor
  · rintro ⟨u, _, rfl, spelled, rfl⟩
    rwa [List.append_nil]
  · exact fun spelled => ⟨bytes, [], (List.append_nil _).symm, spelled, rfl⟩

theorem writes_nil : Writes [] bytes ↔ bytes = [] := Iff.rfl

theorem writes_cons :
    Writes (c :: pattern) bytes ↔
      ∃ u v, bytes = u ++ v ∧ (sequence (plainToken c).expressions).Spells u ∧ Writes pattern v := by
  rw [Writes, List.map_cons, expressions, spells_sequence_append]
  rfl

theorem writes_append {other : List Char} :
    Writes (pattern ++ other) bytes ↔ ∃ u v, bytes = u ++ v ∧ Writes pattern u ∧ Writes other v := by
  rw [Writes, List.map_append, expressions_append, spells_sequence_append]
  rfl

/-- The separator is a byte of no other character. -/
theorem separator_notMem_encodeChar (other : c ≠ '/') : separator ∉ Text.Utf8.encodeChar c := by
  have apart : c.toNat ≠ 0x2f := fun same => other (Char.ext (UInt32.toNat.inj same))
  have byte (n : Nat) (small : n < 0x100) (apart : n ≠ 0x2f) : separator ≠ n.toUInt8 := fun same => by
    have same : (0x2f : Nat) = n.toUInt8.toNat := congrArg UInt8.toNat same
    rw [Nat.toUInt8, UInt8.toNat_ofNat', Nat.mod_eq_of_lt small] at same
    exact apart same.symm
  have small : c.toNat < 0x110000 := by
    rcases c.valid with low | ⟨_, high⟩
    · exact Nat.lt_trans low (by decide)
    · exact high
  unfold Text.Utf8.encodeChar
  dsimp only
  split
  · simp only [List.mem_singleton]
    exact byte _ (by omega) apart
  split
  · simp only [List.mem_cons, List.not_mem_nil, or_false, not_or]
    exact ⟨byte _ (by omega) (by omega), byte _ (by omega) (by omega)⟩
  split
  · simp only [List.mem_cons, List.not_mem_nil, or_false, not_or]
    exact ⟨byte _ (by omega) (by omega), byte _ (by omega) (by omega), byte _ (by omega) (by omega)⟩
  · simp only [List.mem_cons, List.not_mem_nil, or_false, not_or]
    exact ⟨byte _ (by omega) (by omega), byte _ (by omega) (by omega), byte _ (by omega) (by omega),
      byte _ (by omega) (by omega)⟩

theorem encodeChar_slash : Text.Utf8.encodeChar '/' = [separator] := rfl

theorem spells_any : (sequence (plainToken '?').expressions).Spells bytes ↔
    ∃ b, b ≠ separator ∧ bytes = [b] := by
  rw [plainToken, Token.expressions, spells_single]
  simp [Spells, notSeparator]

theorem spells_run : (sequence (plainToken '*').expressions).Spells bytes ↔ separator ∉ bytes := by
  rw [plainToken, Token.expressions, spells_single]
  simp [Spells, notSeparator, List.forall_mem_ne']

theorem spells_literal (single : c ≠ '?') (several : c ≠ '*') :
    (sequence (plainToken c).expressions).Spells bytes ↔ bytes = Text.Utf8.encodeChar c := by
  unfold plainToken
  split
  · contradiction
  · contradiction
  · rw [Token.expressions, spells_exactly]

/-- What the characters of a segment spell is what fits it and has no separator. -/
theorem writes_segment (inside : '/' ∉ segment) :
    Writes segment bytes ↔ Fits segment bytes ∧ separator ∉ bytes := by
  induction segment generalizing bytes with
  | nil =>
    rw [writes_nil]
    constructor
    · rintro rfl
      exact ⟨.nil, List.not_mem_nil⟩
    · rintro ⟨⟨⟩, _⟩
      rfl
  | cons c segment ih =>
    obtain ⟨other, inside⟩ := List.ne_and_not_mem_of_not_mem_cons inside
    simp only [writes_cons, ih inside]
    constructor
    · rintro ⟨u, v, rfl, first, fits, apart⟩
      by_cases single : c = '?'
      · subst single
        obtain ⟨b, ordinary, rfl⟩ := spells_any.mp first
        exact ⟨.any b fits, List.not_mem_cons_of_ne_of_not_mem ordinary.symm apart⟩
      by_cases several : c = '*'
      · subst several
        exact ⟨.run u fits, fun member =>
          (List.mem_append.mp member).elim (spells_run.mp first) apart⟩
      · obtain rfl := (spells_literal single several).mp first
        exact ⟨.literal single several fits, fun member =>
          (List.mem_append.mp member).elim (separator_notMem_encodeChar other.symm) apart⟩
    · rintro ⟨fits, apart⟩
      cases fits with
      | any b rest =>
        obtain ⟨ordinary, apart⟩ := List.ne_and_not_mem_of_not_mem_cons apart
        exact ⟨[b], _, rfl, spells_any.mpr ⟨b, ordinary.symm, rfl⟩, rest, apart⟩
      | run front rest =>
        rw [List.mem_append, not_or] at apart
        exact ⟨front, _, rfl, spells_run.mpr apart.1, rest, apart.2⟩
      | literal single several rest =>
        rw [List.mem_append, not_or] at apart
        exact ⟨_, _, rfl, (spells_literal single several).mpr rfl, rest, apart.2⟩

theorem notMem_of_mem_splitOn {α : Type} [DecidableEq α] {x : α} {text piece : List α}
    (member : piece ∈ text.splitOn x) : x ∉ piece := by
  induction text generalizing piece with
  | nil =>
    obtain rfl : piece = [] := by simpa using member
    exact List.not_mem_nil
  | cons y text ih =>
    rw [List.splitOn_eq_splitOnP] at member ih
    rw [List.splitOnP_cons_eq_if_modifyHead] at member
    split at member
    next =>
      rcases List.mem_cons.mp member with rfl | member
      · exact List.not_mem_nil
      · exact ih member
    next apart =>
      cases split : text.splitOnP (· == x) with
      | nil => exact absurd split (List.splitOnP_ne_nil _ _)
      | cons first pieces =>
        rw [split] at member ih
        rcases List.mem_cons.mp member with rfl | member
        · rw [beq_iff_eq] at apart
          exact List.not_mem_cons_of_ne_of_not_mem (Ne.symm apart) (ih List.mem_cons_self)
        · exact ih (List.mem_cons_of_mem _ member)

theorem splitOn_injective {α : Type} [DecidableEq α] {x : α} {text other : List α}
    (same : text.splitOn x = other.splitOn x) : text = other := by
  have joined := congrArg [x].intercalate same
  rwa [List.intercalate_splitOn, List.intercalate_splitOn] at joined

/-- A text whose pieces are put down in two groups is the text of each with a separator between. -/
theorem exists_of_splitOn_eq_append {α : Type} [DecidableEq α] {x : α} {text : List α}
    {front back : List (List α)} (split : text.splitOn x = front ++ back) (some : front ≠ [])
    (more : back ≠ []) :
    ∃ rest, text = [x].intercalate front ++ x :: rest ∧ rest.splitOn x = back := by
  have clear : ∀ piece ∈ front ++ back, x ∉ piece := fun piece member =>
    notMem_of_mem_splitOn (split ▸ member)
  have fronts := List.splitOn_intercalate x (fun piece member => clear piece (List.mem_append_left _ member)) some
  have backs := List.splitOn_intercalate x (fun piece member => clear piece (List.mem_append_right _ member)) more
  refine ⟨[x].intercalate back, splitOn_injective (x := x) ?_, backs⟩
  rw [List.splitOn_append_cons_self, split, fronts, backs]

/-- The tails of a text are what the last pieces of it are the pieces of. -/
theorem isTail_iff {tail : List UInt8} :
    IsTail tail text ↔ tail.splitOn separator <:+ text.splitOn separator := by
  constructor
  · rintro (rfl | ⟨front, rfl⟩)
    · exact List.suffix_rfl
    · rw [List.splitOn_append_cons_self]
      exact List.suffix_append _ _
  · rintro ⟨front, split⟩
    by_cases none : front = []
    · rw [none, List.nil_append] at split
      exact .inl (splitOn_injective split)
    · obtain ⟨rest, same, pieces⟩ := exists_of_splitOn_eq_append split.symm none (List.splitOn_ne_nil _ _)
      exact .inr ⟨_, splitOn_injective pieces ▸ same⟩

theorem writes_slash : Writes ('/' :: pattern) bytes ↔ ∃ v, bytes = separator :: v ∧ Writes pattern v := by
  rw [writes_cons]
  constructor
  · rintro ⟨u, v, rfl, slash, rest⟩
    rw [(spells_literal (by decide) (by decide)).mp slash]
    exact ⟨v, rfl, rest⟩
  · rintro ⟨v, rfl, rest⟩
    exact ⟨[separator], v, rfl, (spells_literal (by decide) (by decide)).mpr rfl, rest⟩

/-- What a plain glob spells is split into pieces that fit the segments one by one. -/
theorem writes_intercalate (some : segments ≠ []) (inside : ∀ segment ∈ segments, '/' ∉ segment) :
    Writes (['/'].intercalate segments) bytes ↔ List.Forall₂ Fits segments (bytes.splitOn separator) := by
  induction segments generalizing bytes with
  | nil => contradiction
  | cons segment rest ih =>
    obtain ⟨here, inside⟩ := List.forall_mem_cons.mp inside
    cases rest with
    | nil =>
      rw [List.intercalate_singleton, writes_segment here]
      constructor
      · rintro ⟨fits, apart⟩
        rw [List.splitOn_eq_singleton apart]
        exact .cons fits .nil
      · intro all
        obtain ⟨piece, split⟩ := List.length_eq_one_iff.mp all.length_eq.symm
        obtain rfl : piece = bytes := by
          have joined := congrArg [separator].intercalate split
          rwa [List.intercalate_splitOn, List.intercalate_singleton, eq_comm] at joined
        rw [split, List.forall₂_cons] at all
        exact ⟨all.1, notMem_of_mem_splitOn (split ▸ List.mem_singleton_self _)⟩
    | cons next others =>
      rw [List.intercalate_cons_cons, List.append_assoc, writes_append]
      constructor
      · rintro ⟨piece, _, rfl, first, others⟩
        obtain ⟨fits, apart⟩ := (writes_segment here).mp first
        obtain ⟨rest, rfl, last⟩ := writes_slash.mp others
        rw [List.splitOn_append_cons_self, List.splitOn_eq_singleton apart]
        exact .cons fits ((ih (List.cons_ne_nil _ _) inside).mp last)
      · intro all
        cases split : bytes.splitOn separator with
        | nil => exact absurd split (List.splitOn_ne_nil _ _)
        | cons piece pieces =>
          rw [split] at all
          cases all with
          | cons fits all =>
            have more : pieces ≠ [] := by
              rintro rfl
              exact nomatch all
            have apart : separator ∉ piece := notMem_of_mem_splitOn (split ▸ List.mem_cons_self)
            have split : bytes.splitOn separator = [piece] ++ pieces := split
            obtain ⟨rest, rfl, pieces⟩ := exists_of_splitOn_eq_append split nofun more
            refine ⟨piece, separator :: rest, by rw [List.intercalate_singleton],
              (writes_segment here).mpr ⟨fits, apart⟩, writes_slash.mpr ⟨rest, rfl, ?_⟩⟩
            exact (ih (List.cons_ne_nil _ _) inside).mpr (pieces ▸ all)

theorem writes_iff : Writes pattern bytes ↔ List.Forall₂ Fits (pattern.splitOn '/') (bytes.splitOn separator) := by
  rw [← writes_intercalate (List.splitOn_ne_nil _ _) fun _ => notMem_of_mem_splitOn,
    List.intercalate_splitOn]

/-- A plain glob accepts a text whose last pieces fit its segments one by one. -/
theorem accepts_plain_iff :
    accepts (pattern.map plainToken) text ↔
      (pattern.splitOn '/').length ≤ (text.splitOn separator).length ∧
        List.Forall₂ Fits (pattern.splitOn '/')
          ((text.splitOn separator).drop
            ((text.splitOn separator).length - (pattern.splitOn '/').length)) := by
  have more : pattern.map plainToken ≠ [.componentsFirst] := fun same => by
    obtain ⟨c, _, first⟩ := List.exists_of_mem_map (same ▸ List.mem_singleton_self Token.componentsFirst)
    unfold plainToken at first
    split at first <;> contradiction
  rw [accepts_iff, occurs_widened (floating_body _), body_of_ne more]
  constructor
  · rintro ⟨tail, isTail, written⟩
    have fits := writes_iff.mp written
    obtain ⟨front, split⟩ := isTail_iff.mp isTail
    rw [← split, List.length_append, fits.length_eq, Nat.add_sub_cancel, List.drop_left]
    exact ⟨Nat.le_add_left _ _, fits⟩
  · rintro ⟨_, fits⟩
    have last := List.drop_suffix
      ((text.splitOn separator).length - (pattern.splitOn '/').length) (text.splitOn separator)
    revert fits last
    generalize (text.splitOn separator).drop _ = pieces
    intro fits last
    have some : pieces ≠ [] := by
      rintro rfl
      exact List.splitOn_ne_nil _ _ (List.forall₂_nil_right_iff.mp fits)
    have split := List.splitOn_intercalate separator
      (fun piece member => notMem_of_mem_splitOn (last.subset member)) some
    exact ⟨[separator].intercalate pieces, isTail_iff.mpr (split.symm ▸ last),
      writes_iff.mpr (split.symm ▸ fits)⟩

end Isolate.Glob
