import Isolate.Glob.Written
import Isolate.Proofs.Glob.Segments

/-!
# How deep the expressions of globs nest

An expression has a part that nests too deep exactly if its depth is above the limit. So a glob is
accepted exactly if it can be read, its expression is within the limit and so is the program of the
expression. Whole components in front of a glob put a group in front of its expression, and make the
expression deeper by at most one level; a plain glob nests a few levels, however long it is.
-/

namespace Isolate.Glob

def nest (deeper : Bool) (depth : Nat) : Nat := if deeper then depth + 1 else depth

mutual

def Part.depth : Part → Nat
  | .plain _ => 0
  | .oneOf _ items => nest true (nest (2 ≤ items.length) 0)
  | .repeated part _ => nest true part.depth
  | .group branches => nest true (nest (2 ≤ branches.length) (branchesDepth branches))

def partsDepth : List Part → Nat
  | [] => 0
  | part :: rest => max part.depth (partsDepth rest)

def branchesDepth : List (List Part) → Nat
  | [] => 0
  | branch :: rest => max (nest (2 ≤ branch.length) (partsDepth branch)) (branchesDepth rest)

end

def depth (glob : List Token) : Nat := branchesDepth [written glob]

/-- The program of a glob's expression is not too big. -/
def IsSmall [Engine] (glob : List Token) : Prop := Engine.size (written glob) ≤ sizeLimit

instance [Engine] (glob : List Token) : Decidable (IsSmall glob) := inferInstanceAs (Decidable (_ ≤ _))

/-- Whole components in front of a glob do not make its program smaller. -/
def Engine.Grows [Engine] : Prop :=
  ∀ glob, Engine.size (written glob) ≤ Engine.size (written (.componentsFirst :: glob))

variable {deeper : Bool} {depth levels : Nat} {span : Span} {inside : Nat → Option Span}
  {glob : List Token} {pattern : List Char} {refusal : Refusal}

theorem within_eq_none_iff (below : ∀ levels, inside levels = none ↔ depth ≤ levels) :
    within deeper levels span inside = none ↔ nest deeper depth ≤ levels := by
  cases deeper with
  | false => exact below levels
  | true =>
    cases levels with
    | zero => simp [within, nest]
    | succ levels => exact (below levels).trans Nat.succ_le_succ_iff.symm

mutual

theorem Part.tooDeep?_eq_none_iff :
    (part : Part) → (levels start : Nat) → (part.tooDeep? levels start = none ↔ part.depth ≤ levels)
  | .plain _, levels, _ => iff_of_true rfl (Nat.zero_le levels)
  | .oneOf _ _, _, _ =>
    within_eq_none_iff fun _ => within_eq_none_iff fun levels => iff_of_true rfl (Nat.zero_le levels)
  | .repeated part _, _, start => within_eq_none_iff fun levels => part.tooDeep?_eq_none_iff levels start
  | .group branches, _, start =>
    within_eq_none_iff fun _ => within_eq_none_iff fun levels =>
      branchesTooDeep?_eq_none_iff branches levels (start + 3)

theorem partsTooDeep?_eq_none_iff :
    (parts : List Part) → (levels start : Nat) →
      (partsTooDeep? levels start parts = none ↔ partsDepth parts ≤ levels)
  | [], levels, _ => iff_of_true rfl (Nat.zero_le levels)
  | part :: rest, levels, start => by
    rw [partsTooDeep?, Option.or_eq_none_iff, part.tooDeep?_eq_none_iff, partsTooDeep?_eq_none_iff rest,
      partsDepth, Nat.max_le]

/-- Nothing in the branches nests too deep exactly if there are enough levels. -/
theorem branchesTooDeep?_eq_none_iff :
    (branches : List (List Part)) → (levels start : Nat) →
      (branchesTooDeep? levels start branches = none ↔ branchesDepth branches ≤ levels)
  | [], levels, _ => iff_of_true rfl (Nat.zero_le levels)
  | branch :: rest, levels, start => by
    rw [branchesTooDeep?, Option.or_eq_none_iff, branchesTooDeep?_eq_none_iff rest,
      within_eq_none_iff fun levels => partsTooDeep?_eq_none_iff branch levels start, branchesDepth,
      Nat.max_le]

end

section Compile

variable [Engine]

/-- What can come of a glob: it cannot be read, it is too deep, it is too big, or it is accepted. -/
theorem compile_cases (pattern : List Char) :
    (∃ fault, read pattern = .error fault ∧ compile pattern = .error (.unreadable fault)) ∨
      ∃ glob, read pattern = .ok glob ∧
        ((nestLimit < Glob.depth glob ∧
            ∃ span, compile pattern = .error (.tooDeep (partsText (written glob)) span)) ∨
          Glob.depth glob ≤ nestLimit ∧ ¬IsSmall glob ∧ compile pattern = .error .tooBig ∨
          Glob.depth glob ≤ nestLimit ∧ IsSmall glob ∧ compile pattern = .ok glob) := by
  cases reads : read pattern with
  | error fault => exact .inl ⟨fault, rfl, by rw [compile, reads]⟩
  | ok glob =>
    refine .inr ⟨glob, rfl, ?_⟩
    have nests := branchesTooDeep?_eq_none_iff [written glob] nestLimit 0
    rw [compile, reads]
    dsimp only
    cases found : branchesTooDeep? nestLimit 0 [written glob] with
    | some span =>
      rw [found] at nests
      have deep : nestLimit < Glob.depth glob := Nat.lt_of_not_le fun shallow => nomatch nests.mpr shallow
      exact .inl ⟨deep, span, rfl⟩
    | none =>
      have shallow : Glob.depth glob ≤ nestLimit := nests.mp found
      by_cases small : IsSmall glob
      · exact .inr (.inr ⟨shallow, small, if_neg (Nat.not_lt.mpr small)⟩)
      · exact .inr (.inl ⟨shallow, small, if_pos (Nat.lt_of_not_le small)⟩)

/-- A glob is accepted exactly if it can be read and its expression is neither too deep nor too big. -/
theorem compile_eq_ok_iff :
    compile pattern = .ok glob ↔ read pattern = .ok glob ∧ Glob.depth glob ≤ nestLimit ∧ IsSmall glob := by
  rcases compile_cases pattern with ⟨fault, reads, compiles⟩ | ⟨other, reads, ⟨deep, _, compiles⟩ |
    ⟨_, big, compiles⟩ | ⟨shallow, small, compiles⟩⟩ <;> rw [reads, compiles]
  · simp
  · refine iff_of_false nofun fun ⟨same, shallow, _⟩ => ?_
    rw [Except.ok.inj same] at deep
    omega
  · refine iff_of_false nofun fun ⟨same, _, small⟩ => ?_
    exact big (Except.ok.inj same ▸ small)
  · constructor <;> intro same
    · obtain rfl := Except.ok.inj same
      exact ⟨rfl, shallow, small⟩
    · rw [Except.ok.inj same.1]

/-- A glob that can be read and is not too deep is refused only for its size. -/
theorem eq_tooBig_of_compile (reads : read pattern = .ok glob) (shallow : Glob.depth glob ≤ nestLimit)
    (refuses : compile pattern = .error refusal) : refusal = .tooBig := by
  rcases compile_cases pattern with ⟨fault, reads', _⟩ | ⟨other, reads', ⟨deep, _⟩ | ⟨_, _, compiles⟩ |
    ⟨_, _, compiles⟩⟩ <;> rw [reads] at reads'
  · contradiction
  · rw [Except.ok.inj reads'] at shallow
    omega
  · exact Except.error.inj (refuses.symm.trans compiles)
  · rw [refuses] at compiles
    contradiction

theorem read_of_compile (compiles : compile pattern = .ok glob) : read pattern = .ok glob :=
  (compile_eq_ok_iff.mp compiles).1

end Compile

theorem depth_eq (glob : List Token) :
    Glob.depth glob =
      2 + max 1 (nest (2 ≤ (bodyParts glob).length) (partsDepth (bodyParts glob))) := by
  simp [Glob.depth, written, searched, branchesDepth, partsDepth, Part.depth, nest, slashText]
  omega

theorem bodyParts_of_ne (more : glob ≠ [.componentsFirst]) : bodyParts glob = tokenParts glob := by
  unfold bodyParts
  split
  · contradiction
  · rfl

theorem bodyParts_componentsFirst (some : glob ≠ []) :
    bodyParts (.componentsFirst :: glob) = leading :: tokenParts glob := by
  rw [bodyParts_of_ne (by simpa using some)]
  rfl

/-- Whole components in front make an expression deeper by at most one level, or by the levels of
their own group. -/
theorem depth_componentsFirst (some : glob ≠ []) (more : glob ≠ [.componentsFirst]) :
    Glob.depth glob ≤ Glob.depth (.componentsFirst :: glob) ∧
      Glob.depth (.componentsFirst :: glob) ≤ max 7 (Glob.depth glob + 1) := by
  have own : leading.depth = 4 := by decide
  rw [depth_eq, depth_eq, bodyParts_componentsFirst some, bodyParts_of_ne more, partsDepth, own]
  simp only [nest, List.length_cons, decide_eq_true_eq]
  split <;> split <;> omega

theorem partsDepth_append (parts others : List Part) :
    partsDepth (parts ++ others) = max (partsDepth parts) (partsDepth others) := by
  induction parts with
  | nil => simp [partsDepth]
  | cons part rest ih => rw [List.cons_append, partsDepth, ih, partsDepth, Nat.max_assoc]

theorem partsDepth_plain (written : List (List Char)) : partsDepth (written.map .plain) = 0 := by
  induction written with
  | nil => rfl
  | cons here rest ih => rw [List.map_cons, partsDepth, ih, Part.depth, Nat.max_self]

theorem partsDepth_tokenParts (each : ∀ token ∈ glob, partsDepth token.parts ≤ depth) :
    partsDepth (tokenParts glob) ≤ depth := by
  induction glob with
  | nil => exact Nat.zero_le depth
  | cons token rest ih =>
    obtain ⟨here, others⟩ := List.forall_mem_cons.mp each
    rw [tokenParts, partsDepth_append]
    exact Nat.max_le.mpr ⟨here, ih others⟩

theorem partsDepth_plainToken (c : Char) : partsDepth (plainToken c).parts ≤ 2 := by
  unfold plainToken
  split
  · decide
  · decide
  · rw [Token.parts, partsDepth_plain]
    exact Nat.zero_le 2

/-- A plain glob nests five levels at most. -/
theorem depth_plainToken (pattern : List Char) : Glob.depth (pattern.map plainToken) ≤ 5 := by
  have more : pattern.map plainToken ≠ [.componentsFirst] := by
    intro same
    have member : Token.componentsFirst ∈ pattern.map plainToken := same ▸ List.mem_singleton_self _
    obtain ⟨c, _, first⟩ := List.mem_map.mp member
    unfold plainToken at first
    split at first <;> contradiction
  have shallow : partsDepth (tokenParts (pattern.map plainToken)) ≤ 2 :=
    partsDepth_tokenParts fun token member => by
      obtain ⟨c, _, rfl⟩ := List.mem_map.mp member
      exact partsDepth_plainToken c
  rw [depth_eq, bodyParts_of_ne more, nest]
  split <;> omega

theorem Engine.grows_standard : @Engine.Grows Engine.standard := by
  intro glob
  have more : partsStates (bodyParts glob) ≤ partsStates (bodyParts (.componentsFirst :: glob)) := by
    by_cases some : glob = []
    · subst some
      decide
    by_cases more : glob = [.componentsFirst]
    · subst more
      decide
    rw [bodyParts_componentsFirst some, bodyParts_of_ne more]
    exact Nat.le_add_left _ _
  simp only [Engine.size, written, searched, partsStates, Part.states, branchesStates]
  omega

end Isolate.Glob
