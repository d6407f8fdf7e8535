import Isolate.Glob.Reader
import Mathlib.Tactic.SplitIfs

/-!
# Reading by turns

A glob is read in turns. A turn takes the next character, or a star with the one behind it and what
belongs to both, or the start of a class; it leaves a state and the characters that are left. What
has been read when none are left gives the tokens.
-/

namespace Isolate.Glob.Reading

def stars (r : Reading) : List Char → Reading × List Char
  | [] =>
    if ¬r.hasTokens then (r.push .componentsFirst, [])
    else if r.mayCross then (r.mergeComponents true, [])
    else (r.twoStars, [])
  | d :: rest =>
    if ¬r.hasTokens then
      if d = '/' then ((r.push .componentsFirst).after d, rest) else (r.twoStars.after '*', d :: rest)
    else if ¬r.mayCross then (r.twoStars.after '*', d :: rest)
    else if (d = ',' ∨ d = '}') ∧ 2 ≤ r.branches.length then
      ((r.mergeComponents true).after '*', d :: rest)
    else if d = '/' then ((r.mergeComponents false).after d, rest)
    else (r.twoStars.after '*', d :: rest)

/-- Take a star, and the one behind it with what belongs to both. -/
def star (r : Reading) : List Char → Reading × List Char
  | '*' :: rest => r.stars rest
  | rest => ((r.push .anyRun).after '*', rest)

def openClass (r : Reading) : List Char → Except Fault (Reading × List Char)
  | [] => .error .unclosedClass
  | d :: rest =>
    if d = '!' ∨ d = '^' then .ok ({ r with mode := .inClass true [] true false }.after d, rest)
    else .ok ({ r with mode := .inClass false [] true false }.after '[', d :: rest)

/-- Take the next characters: the state behind them and the characters that are left. -/
def turn (r : Reading) (c : Char) (rest : List Char) : Except Fault (Reading × List Char) :=
  match r.mode with
  | .escaped => .ok (({ r with mode := .outside }.push (.literal c)).after c, rest)
  | .inClass negated ranges first inRange =>
    (r.classChar negated ranges first inRange c).map fun r => (r.after c, rest)
  | .outside =>
    if c = '*' then .ok (r.star rest)
    else if c = '[' then r.openClass rest
    else (r.plainChar c).map fun r => (r.after c, rest)

/-- Whether the next turn takes a star outside a class. -/
def AtStar (r : Reading) (c : Char) : Prop := r.mode = .outside ∧ c = '*'

def finish (r : Reading) : Except Fault (List Token) :=
  match r.mode with
  | .escaped => .error .danglingEscape
  | .inClass _ _ _ _ => .error .unclosedClass
  | .outside =>
    match r.groups, r.branches with
    | [], [tokens] => .ok tokens.reverse
    | _, _ => .error .unclosedAlternates

variable {r next : Reading} {c : Char} {rest left : List Char}

theorem exists_of_map_eq_ok {α β : Type} {result : Except Fault α} {f : α → β} {b : β}
    (maps : result.map f = .ok b) : ∃ a, result = .ok a ∧ f a = b := by
  cases result with
  | error fault => contradiction
  | ok a => exact ⟨a, rfl, Except.ok.inj maps⟩

theorem star_of_ne (once : ∀ more, rest ≠ '*' :: more) :
    r.star rest = ((r.push .anyRun).after '*', rest) := by
  unfold star
  split
  · exact absurd rfl (once _)
  · rfl

/-- A turn at a star cannot fail. -/
theorem turn_of_atStar (star : r.AtStar c) : r.turn c rest = .ok (r.star rest) := by
  obtain ⟨outside, rfl⟩ := star
  rw [turn, outside]
  rfl

theorem stars_of_bare (bare : r.hasTokens = false) (d : Char) (rest : List Char) :
    r.stars (d :: rest) =
      if d = '/' then ((r.push .componentsFirst).after d, rest) else (r.twoStars.after '*', d :: rest) := by
  simp [stars, bare]

theorem stars_of_single (some : r.hasTokens) (crosses : r.mayCross) (single : r.branches.length = 1)
    (d : Char) (rest : List Char) :
    r.stars (d :: rest) =
      if d = '/' then ((r.mergeComponents false).after d, rest) else (r.twoStars.after '*', d :: rest) := by
  simp [stars, some, crosses, single]

/-- Reading takes one turn after the other. -/
theorem readFrom_cons (r : Reading) (c : Char) (rest : List Char) :
    readFrom r (c :: rest) =
      match r.turn c rest with
      | .error fault => .error fault
      | .ok (next, rest) => readFrom next rest := by
  conv =>
    lhs
    unfold readFrom
  unfold turn
  cases r.mode with
  | escaped => rfl
  | inClass negated ranges first inRange =>
    dsimp only
    cases r.classChar negated ranges first inRange c <;> rfl
  | outside =>
    dsimp only
    by_cases star : c = '*'
    · rw [if_pos star, if_pos star]
      split
      next rest =>
        change _ = readFrom (r.stars rest).1 (r.stars rest).2
        cases rest <;> unfold stars <;> dsimp only <;> split_ifs <;> rfl
      next once => rw [star_of_ne once]
    · rw [if_neg star, if_neg star]
      by_cases opens : c = '['
      · rw [if_pos opens, if_pos opens, opens]
        cases rest with
        | nil => rfl
        | cons d rest =>
          dsimp only [openClass]
          split_ifs <;> rfl
      · rw [if_neg opens, if_neg opens]
        cases r.plainChar c <;> rfl

theorem length_stars (rest : List Char) : (r.stars rest).2.length ≤ rest.length := by
  cases rest <;> unfold stars <;> dsimp only <;> split_ifs <;> simp

theorem length_star (rest : List Char) : (r.star rest).2.length ≤ rest.length := by
  unfold star
  split
  next rest => exact Nat.le_succ_of_le (length_stars rest)
  next => exact Nat.le_refl _

theorem length_openClass (opens : r.openClass rest = .ok (next, left)) : left.length ≤ rest.length := by
  cases rest with
  | nil => contradiction
  | cons d rest =>
    dsimp only [openClass] at opens
    split_ifs at opens
    all_goals
      obtain ⟨_, rfl⟩ := Prod.mk.inj (Except.ok.inj opens)
      simp

/-- A turn takes characters from the front. -/
theorem length_turn (turns : r.turn c rest = .ok (next, left)) : left.length ≤ rest.length := by
  unfold turn at turns
  split at turns
  next =>
    obtain ⟨_, rfl⟩ := Prod.mk.inj (Except.ok.inj turns)
    exact Nat.le_refl _
  next =>
    obtain ⟨behind, _, same⟩ := exists_of_map_eq_ok turns
    obtain ⟨_, rfl⟩ := Prod.mk.inj same
    exact Nat.le_refl _
  next =>
    split_ifs at turns
    · have starred := @length_star r rest
      rwa [Except.ok.inj turns] at starred
    · exact length_openClass turns
    · obtain ⟨behind, _, same⟩ := exists_of_map_eq_ok turns
      obtain ⟨_, rfl⟩ := Prod.mk.inj same
      exact Nat.le_refl _

/-- A glob is read from nothing to its end. -/
theorem read_eq (text : List Char) : read text = (readFrom {} text).bind finish := by
  unfold read
  cases readFrom {} text <;> rfl

end Isolate.Glob.Reading
