import Isolate.Proofs.Glob.Places
import Isolate.Proofs.Glob.Turns

/-!
# Leading components

A `**/` in front of a glob stands for whole components at the start. The rest of the glob is read as it is
alone, with the token for these components at the bottom, unless it starts with whole components itself:
then the two merge. What may stand in front at a separator is in front of a tail of a text anyway, so the
glob accepts the same texts with the components as without.
-/

namespace Isolate.Glob

namespace Reading

variable {r : Reading} {token : Token} {fault : Fault} {branches : List (List Token)}
  {inner : List (List Token)} {outer : List Token} {k : Nat} {c : Char} {next : Reading}
  {rest left : List Char}

def lay : List (List Token) → List (List Token)
  | [] => [[.componentsFirst]]
  | [branch] => [branch ++ [.componentsFirst]]
  | branch :: rest => branch :: lay rest

def led (r : Reading) : Reading := { r with branches := lay r.branches }

theorem lay_append : lay (inner ++ [outer]) = inner ++ [outer ++ [.componentsFirst]] := by
  induction inner with
  | nil => rfl
  | cons branch inner ih =>
    rw [List.cons_append, lay, ih]
    · rfl
    · exact List.append_ne_nil_of_right_ne_nil _ (List.cons_ne_nil _ _)

theorem take_lay (few : k < branches.length) : (lay branches).take k = branches.take k := by
  induction branches generalizing k with
  | nil => exact absurd few (Nat.not_lt_zero k)
  | cons branch rest ih =>
    cases k with
    | zero => rfl
    | succ k =>
      cases rest with
      | nil => exact absurd few (by simp)
      | cons next rest =>
        rw [lay, List.take_succ_cons, List.take_succ_cons, ih (Nat.lt_of_succ_lt_succ few)]
        exact List.cons_ne_nil _ _

theorem drop_lay (few : k < branches.length) : (lay branches).drop k = lay (branches.drop k) := by
  induction branches generalizing k with
  | nil => exact absurd few (Nat.not_lt_zero k)
  | cons branch rest ih =>
    cases k with
    | zero => rfl
    | succ k =>
      cases rest with
      | nil => exact absurd few (by simp)
      | cons next rest =>
        rw [lay, List.drop_succ_cons, List.drop_succ_cons, ih (Nat.lt_of_succ_lt_succ few)]
        exact List.cons_ne_nil _ _

/-- The very first token is not one for whole components, and the groups that are open are above it. -/
structure IsBuilt (r : Reading) : Prop where
  first : ∃ inner outer, r.branches = inner ++ [outer] ∧ outer.getLast? ≠ some .componentsFirst
  groups : ∀ outside ∈ r.groups, 0 < outside

/-- Besides, there is a token, or the beginning of one. -/
structure IsBegun (r : Reading) : Prop extends r.IsBuilt where
  some : r.mode = .outside → r.branches ≠ [[]]

theorem led_push : (r.push token).led = r.led.push token := by
  rcases r with ⟨_ | ⟨branch, _ | ⟨_, _⟩⟩, _, _, _⟩ <;> rfl

theorem led_twoStars : r.twoStars.led = r.led.twoStars := by
  rw [twoStars, led_push, led_push, twoStars]

theorem IsBuilt.branches_ne_nil (built : r.IsBuilt) : r.branches ≠ [] := by
  obtain ⟨inner, outer, split, _⟩ := built.first
  rw [split]
  exact List.append_ne_nil_of_right_ne_nil _ (List.cons_ne_nil _ _)

theorem hasTokens_led (begun : r.IsBegun) (outside : r.mode = .outside) :
    r.led.hasTokens = r.hasTokens := by
  have some := begun.some outside
  have more := begun.branches_ne_nil
  rcases r with ⟨_ | ⟨_ | ⟨_, _⟩, _ | ⟨_, _⟩⟩, _, _, _⟩
  all_goals first | rfl | contradiction

theorem length_lay (some : branches ≠ []) : (lay branches).length = branches.length := by
  obtain ⟨inner, outer, rfl⟩ := (List.eq_nil_or_concat branches).resolve_left some
  simp [lay_append]

theorem mayCross_led (built : r.IsBuilt) : r.led.mayCross = r.mayCross := by
  rw [mayCross, mayCross, led, length_lay built.branches_ne_nil]

theorem led_mergeComponents (atEnd : Bool) :
    (r.mergeComponents atEnd).led = r.led.mergeComponents atEnd := by
  rcases r with ⟨_ | ⟨_ | ⟨token, branch⟩, _ | ⟨_, _⟩⟩, _, _, _⟩ <;> rfl

theorem led_openGroup (built : r.IsBuilt) : r.openGroup.led = r.led.openGroup := by
  obtain ⟨inner, outer, split, _⟩ := built.first
  have laid : lay ([] :: r.branches) = [] :: lay r.branches := by
    rw [split, ← List.cons_append, lay_append, lay_append, List.cons_append]
  simp only [openGroup, led, laid, length_lay built.branches_ne_nil]

theorem led_comma (built : r.IsBuilt) : r.comma.led = r.led.comma := by
  obtain ⟨inner, outer, split, _⟩ := built.first
  have laid : lay ([] :: r.branches) = [] :: lay r.branches := by
    rw [split, ← List.cons_append, lay_append, lay_append, List.cons_append]
  unfold comma
  rw [show r.led.groups = r.groups from rfl]
  split
  · exact led_push
  · simp only [led, laid]

/-- Closing a group takes nothing from the bottom. -/
theorem led_closeGroup (built : r.IsBuilt) : r.led.closeGroup = r.closeGroup.map led := by
  unfold closeGroup
  rw [show r.led.groups = r.groups from rfl]
  cases groups : r.groups with
  | nil => rfl
  | cons outside groups =>
    have some : 0 < outside := built.groups outside (groups ▸ List.mem_cons_self)
    have few : r.branches.length - outside < r.branches.length :=
      Nat.sub_lt (List.length_pos_iff.mpr built.branches_ne_nil) some
    dsimp only [Except.map]
    rw [led_push]
    simp only [led, length_lay built.branches_ne_nil, take_lay few, drop_lay few]

theorem led_plainChar (built : r.IsBuilt) (c : Char) : r.led.plainChar c = (r.plainChar c).map led := by
  unfold plainChar
  split
  · exact congrArg Except.ok led_push.symm
  · exact congrArg Except.ok (led_openGroup built).symm
  · exact led_closeGroup built
  · exact congrArg Except.ok (led_comma built).symm
  · rfl
  · exact congrArg Except.ok led_push.symm

theorem led_classChar (negated : Bool) (ranges : List (Char × Char)) (first inRange : Bool) (c : Char) :
    r.led.classChar negated ranges first inRange c =
      (r.classChar negated ranges first inRange c).map led := by
  unfold classChar
  dsimp only
  split
  · exact congrArg Except.ok (@led_push { r with mode := .outside } _).symm
  split
  · rfl
  split
  · cases extendRange ranges c <;> rfl
  · rfl

theorem led_after : (r.after c).led = r.led.after c := rfl

theorem groups_push : (r.push token).groups = r.groups := by
  rcases r with ⟨_ | ⟨_, _⟩, _, _, _⟩ <;> rfl

theorem branches_push_ne : (r.push token).branches ≠ [[]] := by
  rcases r with ⟨_ | ⟨_, _⟩, _, _, _⟩ <;> simp [push]

theorem IsBuilt.push (built : r.IsBuilt) (more : token = .componentsFirst → r.branches.length ≠ 1) :
    (r.push token).IsBegun := by
  have groups : (r.push token).groups = r.groups := groups_push
  refine ⟨⟨?_, groups ▸ built.groups⟩, fun _ => branches_push_ne⟩
  obtain ⟨inner, outer, split, first⟩ := built.first
  rw [Reading.push, split]
  cases inner with
  | nil =>
    refine ⟨[], token :: outer, rfl, ?_⟩
    cases outer with
    | nil =>
      rintro same
      exact more (Option.some.inj same) (by rw [split]; rfl)
    | cons _ _ => rwa [List.getLast?_cons_cons]
  | cons branch inner => exact ⟨(token :: branch) :: inner, outer, rfl, first⟩

/-- A token that is not one for whole components at the start can always be added. -/
theorem IsBuilt.push_of_ne (built : r.IsBuilt) (other : token ≠ .componentsFirst) :
    (r.push token).IsBegun := built.push fun same => absurd same other

theorem IsBuilt.twoStars (built : r.IsBuilt) : r.twoStars.IsBegun := by
  have once : (r.push .anyRun).IsBegun := built.push_of_ne nofun
  exact once.push_of_ne nofun

theorem IsBegun.after (begun : r.IsBegun) (c : Char) : (r.after c).IsBegun :=
  ⟨⟨begun.first, begun.groups⟩, begun.some⟩

theorem IsBegun.mergeComponents (begun : r.IsBegun) (atEnd : Bool) : (r.mergeComponents atEnd).IsBegun := by
  obtain ⟨inner, outer, split, first⟩ := begun.first
  rcases r with ⟨_, groups, last, mode⟩
  obtain rfl := split
  cases inner with
  | nil =>
    cases outer with
    | nil => exact begun
    | cons token rest =>
      refine ⟨⟨⟨[], _, rfl, ?_⟩, begun.groups⟩, fun _ => by simp [Reading.mergeComponents]⟩
      cases rest with
      | nil => cases token <;> cases atEnd <;> simp_all
      | cons _ _ => simpa using first
  | cons branch inner =>
    cases branch with
    | nil => exact begun
    | cons token rest =>
      exact ⟨⟨⟨_ :: inner, outer, rfl, first⟩, begun.groups⟩, fun _ => by simp [Reading.mergeComponents]⟩

theorem IsBuilt.openGroup (built : r.IsBuilt) : r.openGroup.IsBegun := by
  obtain ⟨inner, outer, split, first⟩ := built.first
  refine ⟨⟨⟨[] :: inner, outer, by rw [Reading.openGroup, split]; rfl, first⟩, ?_⟩, fun _ => ?_⟩
  · exact List.forall_mem_cons.mpr ⟨List.length_pos_iff.mpr built.branches_ne_nil, built.groups⟩
  · exact fun same => built.branches_ne_nil (List.cons.inj same).2

theorem IsBuilt.comma (built : r.IsBuilt) : r.comma.IsBegun := by
  unfold Reading.comma
  split
  · exact built.push_of_ne nofun
  · obtain ⟨inner, outer, split, first⟩ := built.first
    refine ⟨⟨⟨[] :: inner, outer, by rw [split]; rfl, first⟩, built.groups⟩, fun _ => ?_⟩
    exact fun same => built.branches_ne_nil (List.cons.inj same).2

theorem IsBuilt.closeGroup {closed : Reading} (built : r.IsBuilt) (closes : r.closeGroup = .ok closed) :
    closed.IsBegun := by
  unfold Reading.closeGroup at closes
  split at closes
  next => contradiction
  next outside groups open_ =>
    obtain ⟨some, others⟩ := List.forall_mem_cons.mp (open_ ▸ built.groups)
    obtain ⟨inner, outer, split, first⟩ := built.first
    have few : r.branches.length - outside ≤ inner.length := by
      rw [split, List.length_append, List.length_singleton]
      omega
    rw [← Except.ok.inj closes]
    refine IsBuilt.push_of_ne ⟨⟨inner.drop (r.branches.length - outside), outer, ?_, first⟩, others⟩ nofun
    dsimp only
    rw [split, List.drop_append_of_le_length (split ▸ few)]

theorem IsBuilt.plainChar (built : r.IsBuilt) (reads : r.plainChar c = .ok next) : next.IsBegun := by
  unfold Reading.plainChar at reads
  split at reads
  · exact Except.ok.inj reads ▸ built.push_of_ne nofun
  · exact Except.ok.inj reads ▸ built.openGroup
  · exact built.closeGroup reads
  · exact Except.ok.inj reads ▸ built.comma
  · exact Except.ok.inj reads ▸ ⟨⟨built.first, built.groups⟩, nofun⟩
  · exact Except.ok.inj reads ▸ built.push_of_ne nofun

theorem IsBuilt.classChar {negated first inRange : Bool} {ranges : List (Char × Char)}
    (built : r.IsBuilt) (reads : r.classChar negated ranges first inRange c = .ok next) :
    next.IsBegun := by
  unfold Reading.classChar at reads
  dsimp only at reads
  split at reads
  · rw [← Except.ok.inj reads]
    exact IsBuilt.push_of_ne ⟨built.first, built.groups⟩ nofun
  split at reads
  · exact Except.ok.inj reads ▸ ⟨⟨built.first, built.groups⟩, nofun⟩
  split at reads
  · cases extended : extendRange ranges c with
    | error fault =>
      rw [extended] at reads
      contradiction
    | ok ranges =>
      rw [extended] at reads
      exact Except.ok.inj reads ▸ ⟨⟨built.first, built.groups⟩, nofun⟩
  · exact Except.ok.inj reads ▸ ⟨⟨built.first, built.groups⟩, nofun⟩

theorem length_branches_led (built : r.IsBuilt) : r.led.branches.length = r.branches.length :=
  length_lay built.branches_ne_nil

theorem led_stars (begun : r.IsBegun) (outside : r.mode = .outside) (rest : List Char) :
    r.led.stars rest = ((r.stars rest).1.led, (r.stars rest).2) := by
  cases rest <;> unfold stars <;> dsimp only <;>
    rw [hasTokens_led begun outside, mayCross_led begun.toIsBuilt]
  · split_ifs <;> simp only [led_push, led_mergeComponents, led_twoStars]
  · rw [length_branches_led begun.toIsBuilt]
    split_ifs <;> simp only [led_after, led_push, led_mergeComponents, led_twoStars]

theorem led_openClass (rest : List Char) :
    r.led.openClass rest = (r.openClass rest).map (Prod.map led id) := by
  cases rest with
  | nil => rfl
  | cons d rest =>
    dsimp only [openClass]
    split_ifs <;> rfl

theorem led_turn_of_not_atStar (built : r.IsBuilt) (other : ¬r.AtStar c) (rest : List Char) :
    r.led.turn c rest = (r.turn c rest).map (Prod.map led id) := by
  unfold turn
  rw [show r.led.mode = r.mode from rfl]
  cases reads : r.mode with
  | escaped =>
    have pushed := @led_push { r with mode := .outside } (.literal c)
    exact congrArg (fun next => Except.ok (after next c, rest)) pushed.symm
  | inClass negated ranges first inRange =>
    dsimp only
    rw [led_classChar]
    cases r.classChar negated ranges first inRange c <;> rfl
  | outside =>
    dsimp only
    split_ifs with star
    · exact absurd ⟨reads, star⟩ other
    · exact led_openClass rest
    · rw [led_plainChar built]
      cases r.plainChar c <;> rfl

theorem led_star_of_ne (once : ∀ more, rest ≠ '*' :: more) :
    r.led.star rest = ((r.star rest).1.led, (r.star rest).2) := by
  rw [star_of_ne once, star_of_ne once, led_after, led_push]

theorem led_star (begun : r.IsBegun) (outside : r.mode = .outside) (rest : List Char) :
    r.led.star rest = ((r.star rest).1.led, (r.star rest).2) := by
  by_cases twice : ∃ more, rest = '*' :: more
  · obtain ⟨more, rfl⟩ := twice
    exact led_stars begun outside more
  · exact led_star_of_ne (not_exists.mp twice)

/-- A turn takes the same characters behind whole components as alone, and leaves them at the bottom. -/
theorem led_turn (begun : r.IsBegun) (c : Char) (rest : List Char) :
    r.led.turn c rest = (r.turn c rest).map (Prod.map led id) := by
  by_cases star : r.AtStar c
  · have behind : r.led.AtStar c := star
    rw [turn_of_atStar behind, turn_of_atStar star, led_star begun star.1]
    rfl
  · exact led_turn_of_not_atStar begun.toIsBuilt star rest

theorem IsBegun.stars (begun : r.IsBegun) (outside : r.mode = .outside) (rest : List Char) :
    (r.stars rest).1.IsBegun := by
  -- A branch without tokens is that of a group, so whole components at its start are above the bottom.
  have components (bare : ¬r.hasTokens) : (r.push .componentsFirst).IsBegun := by
    refine begun.push fun _ single => bare ?_
    obtain ⟨branch, only⟩ := List.length_eq_one_iff.mp single
    have some := begun.some outside
    rw [only] at some
    cases branch with
    | nil => exact absurd rfl some
    | cons _ _ => rw [hasTokens, only]
  cases rest <;> unfold Reading.stars <;> dsimp only <;> split_ifs with bare
  all_goals first
    | exact components bare
    | exact (components bare).after _
    | exact begun.mergeComponents _
    | exact (begun.mergeComponents _).after _
    | exact begun.twoStars
    | exact begun.twoStars.after _

theorem IsBuilt.star_of_ne (built : r.IsBuilt) (once : ∀ more, rest ≠ '*' :: more) :
    (r.star rest).1.IsBegun := by
  rw [Reading.star_of_ne once]
  have pushed : (r.push .anyRun).IsBegun := built.push_of_ne nofun
  exact pushed.after '*'

theorem IsBegun.star (begun : r.IsBegun) (outside : r.mode = .outside) (rest : List Char) :
    (r.star rest).1.IsBegun := by
  by_cases twice : ∃ more, rest = '*' :: more
  · obtain ⟨more, rfl⟩ := twice
    exact begun.stars outside more
  · exact begun.toIsBuilt.star_of_ne (not_exists.mp twice)

theorem IsBuilt.openClass (built : r.IsBuilt) (opens : r.openClass rest = .ok (next, left)) :
    next.IsBegun := by
  cases rest with
  | nil => contradiction
  | cons d rest =>
    dsimp only [Reading.openClass] at opens
    split_ifs at opens
    all_goals
      obtain ⟨rfl, _⟩ := Prod.mk.inj (Except.ok.inj opens)
      exact ⟨⟨built.first, built.groups⟩, nofun⟩

theorem IsBuilt.turn (built : r.IsBuilt) (other : ¬r.AtStar c) (turns : r.turn c rest = .ok (next, left)) :
    next.IsBegun := by
  unfold Reading.turn at turns
  split at turns
  next =>
    obtain ⟨rfl, _⟩ := Prod.mk.inj (Except.ok.inj turns)
    have outside : { r with mode := .outside }.IsBuilt := ⟨built.first, built.groups⟩
    have literal : ({ r with mode := .outside }.push (.literal c)).IsBegun := outside.push_of_ne nofun
    exact literal.after c
  next negated ranges first inRange _ =>
    obtain ⟨behind, taken, same⟩ := exists_of_map_eq_ok turns
    obtain ⟨rfl, _⟩ := Prod.mk.inj same
    exact (built.classChar taken).after c
  next outside =>
    split_ifs at turns with star
    · exact absurd ⟨outside, star⟩ other
    · exact built.openClass turns
    · obtain ⟨behind, taken, same⟩ := exists_of_map_eq_ok turns
      obtain ⟨rfl, _⟩ := Prod.mk.inj same
      exact (built.plainChar taken).after c

/-- A turn from where there is a token, or the beginning of one, leads to where there is one again. -/
theorem IsBegun.turn (begun : r.IsBegun) (turns : r.turn c rest = .ok (next, left)) : next.IsBegun := by
  by_cases star : r.AtStar c
  · have starred := begun.star star.1 rest
    rw [turn_of_atStar star] at turns
    rwa [Except.ok.inj turns] at starred
  · exact begun.toIsBuilt.turn star turns

/-- Behind whole components the rest of a glob is read as it is alone. -/
theorem readFrom_led {r : Reading} (begun : r.IsBegun) (text : List Char) :
    readFrom r.led text = (readFrom r text).map led ∧ ∀ last, readFrom r text = .ok last → last.IsBegun := by
  -- A turn can take more than one character, so the recursion is on how many are left.
  match text with
  | [] => exact ⟨rfl, fun last reads => Except.ok.inj reads ▸ begun⟩
  | c :: rest =>
    rw [readFrom_cons, readFrom_cons, led_turn begun]
    cases turns : r.turn c rest with
    | error fault => exact ⟨rfl, nofun⟩
    | ok turned =>
      obtain ⟨next, left⟩ := turned
      have := length_turn turns
      exact readFrom_led (begun.turn turns) left
termination_by text.length
decreasing_by simpa [Nat.lt_succ_iff] using this

/-- What has been read behind the separator of leading components, without them. -/
def behindSlash : Reading := ({} : Reading).after '/'

theorem behindSlash_isBuilt : behindSlash.IsBuilt := ⟨⟨[], [], rfl, nofun⟩, nofun⟩

/-- The separator makes a difference to two stars alone. -/
theorem turn_behindSlash (c : Char) (rest : List Char) :
    behindSlash.turn c rest = ({} : Reading).turn c rest ∨ c = '*' ∧ rest = ['*'] := by
  by_cases star : behindSlash.AtStar c
  · have alone : ({} : Reading).AtStar c := star
    rw [turn_of_atStar star, turn_of_atStar alone]
    by_cases twice : ∃ more, rest = '*' :: more
    · obtain ⟨more, rfl⟩ := twice
      cases more with
      | nil => exact .inr ⟨star.2, rfl⟩
      | cons d more =>
        left
        change Except.ok (behindSlash.stars (d :: more)) = .ok (stars {} (d :: more))
        rw [stars_of_bare rfl, stars_of_bare rfl]
        rfl
    · left
      rw [star_of_ne (not_exists.mp twice), star_of_ne (not_exists.mp twice)]
      rfl
  · left
    have other : c ≠ '*' := fun same => star ⟨rfl, same⟩
    change (if c = '*' then _ else _) = if c = '*' then _ else _
    rw [if_neg other, if_neg other]
    by_cases opens : c = '['
    · rw [if_pos opens, if_pos opens]
      cases rest <;> rfl
    · rw [if_neg opens, if_neg opens]
      unfold plainChar
      split <;> rfl

/-- The first turn behind leading components: whole components merge with them, and anything else is taken
as it is alone. -/
theorem led_turn_behindSlash (c : Char) (rest : List Char) :
    behindSlash.led.turn c rest = behindSlash.turn c rest ∨
      behindSlash.led.turn c rest = (behindSlash.turn c rest).map (Prod.map led id) ∧
        ∀ next left, behindSlash.turn c rest = .ok (next, left) → next.IsBegun := by
  have built := behindSlash_isBuilt
  by_cases star : behindSlash.AtStar c
  · have behind : behindSlash.led.AtStar c := star
    rw [turn_of_atStar star, turn_of_atStar behind]
    by_cases twice : ∃ more, rest = '*' :: more
    · obtain ⟨more, rfl⟩ := twice
      cases more with
      | nil => exact .inl rfl
      | cons d more =>
        have alone : behindSlash.star ('*' :: d :: more) = behindSlash.stars (d :: more) := rfl
        have led : behindSlash.led.star ('*' :: d :: more) = behindSlash.led.stars (d :: more) := rfl
        have bare : behindSlash.hasTokens = false := rfl
        have some : behindSlash.led.hasTokens := rfl
        rw [alone, led, stars_of_bare bare, stars_of_single some rfl rfl]
        by_cases slash : d = '/'
        · rw [if_pos slash, if_pos slash]
          exact .inl rfl
        · rw [if_neg slash, if_neg slash]
          refine .inr ⟨rfl, fun next left turns => ?_⟩
          obtain ⟨rfl, _⟩ := Prod.mk.inj (Except.ok.inj turns)
          exact built.twoStars.after '*'
    · right
      have once := not_exists.mp twice
      refine ⟨congrArg Except.ok (led_star_of_ne once), fun next left turns => ?_⟩
      have starred := built.star_of_ne once
      rwa [Except.ok.inj turns] at starred
  · exact .inr ⟨led_turn_of_not_atStar built star rest, fun next left => built.turn star⟩

/-- At the end the tokens are those that were read, behind one for whole components. -/
theorem finish_led (built : r.IsBuilt) : r.led.finish = r.finish.map (.componentsFirst :: ·) := by
  obtain ⟨inner, outer, split, _⟩ := built.first
  rcases r with ⟨_, groups, last, mode⟩
  obtain rfl := split
  unfold finish led
  rw [lay_append]
  cases mode with
  | escaped | inClass => rfl
  | outside =>
    rcases groups with _ | _
    · rcases inner with _ | ⟨_, _ | _⟩
      · simp [Except.map]
      all_goals rfl
    · rfl

/-- There is some token at the end, and it is not one for whole components alone. -/
theorem IsBegun.finish {tokens : List Token} (begun : r.IsBegun) (finishes : r.finish = .ok tokens) :
    tokens ≠ [] ∧ tokens ≠ [.componentsFirst] := by
  obtain ⟨inner, outer, split, first⟩ := begun.first
  unfold Reading.finish at finishes
  split at finishes
  next => contradiction
  next => contradiction
  next outside =>
    split at finishes
    next _ read _ branches =>
      obtain rfl := Except.ok.inj finishes
      have same : inner = [] ∧ outer = read := by
        rw [branches] at split
        cases inner with
        | nil => exact ⟨rfl, (List.cons.inj split).1.symm⟩
        | cons _ _ => simp at split
      refine ⟨fun none => begun.some outside (by rw [branches, List.reverse_eq_nil_iff.mp none]), ?_⟩
      intro single
      rw [same.2, List.reverse_eq_iff.mp single] at first
      exact first rfl
    next => contradiction

theorem read_eq_behindSlash (pattern : List Char) :
    read pattern = (readFrom behindSlash pattern).bind finish := by
  rw [read_eq]
  cases pattern with
  | nil => rfl
  | cons c rest =>
    rcases turn_behindSlash c rest with same | ⟨rfl, rfl⟩
    · rw [readFrom_cons, readFrom_cons, same]
    · rfl

/-- A glob with leading components is read as the rest of it is; or it has the rest's tokens behind
one for these components. -/
theorem read_led {pattern : List Char} (some : pattern ≠ []) :
    read ('*' :: '*' :: '/' :: pattern) = read pattern ∨
      read ('*' :: '*' :: '/' :: pattern) = (read pattern).map (.componentsFirst :: ·) ∧
        ∀ tokens, read pattern = .ok tokens → tokens ≠ [] ∧ tokens ≠ [.componentsFirst] := by
  have start : read ('*' :: '*' :: '/' :: pattern) = (readFrom behindSlash.led pattern).bind finish :=
    read_eq _
  rw [start, read_eq_behindSlash]
  obtain ⟨c, rest, rfl⟩ := List.exists_cons_of_ne_nil some
  rw [readFrom_cons, readFrom_cons]
  rcases led_turn_behindSlash c rest with same | ⟨led, begun⟩
  · exact .inl (by rw [same])
  · right
    rw [led]
    cases turns : behindSlash.turn c rest with
    | error fault => exact ⟨rfl, nofun⟩
    | ok turned =>
      obtain ⟨next, left⟩ := turned
      obtain ⟨led, begun⟩ := readFrom_led (begun next left turns) left
      dsimp only [Except.map, Prod.map]
      rw [id, led]
      cases reads : readFrom next left with
      | error fault => exact ⟨rfl, nofun⟩
      | ok last => exact ⟨finish_led (begun last reads).toIsBuilt, fun tokens => (begun last reads).finish⟩

end Reading

open Expression

variable {tokens : List Token} {tail text : List UInt8}

/-- Whole components at the start are nothing, or end behind a separator. -/
theorem spells_componentsFirst {bytes : List UInt8}
    (spells : (sequence Token.componentsFirst.expressions).Spells bytes) :
    bytes = [] ∨ ∃ front, bytes = front ++ [separator] := by
  obtain ⟨u, v, rfl, spells, rfl⟩ := spells
  rw [List.append_nil]
  rcases spells with (rfl | ⟨b, slash, rfl⟩) | ⟨front, _, rfl, _, b, slash, rfl⟩
  · exact .inl rfl
  · exact .inr ⟨[], by rw [beq_iff_eq.mp slash]; rfl⟩
  · exact .inr ⟨front, by rw [beq_iff_eq.mp slash]⟩

/-- What stands behind a separator of a tail is a tail. -/
theorem IsTail.append {front : List UInt8} (isTail : IsTail (front ++ separator :: tail) text) :
    IsTail tail text := by
  rcases isTail with same | ⟨before, rfl⟩
  · exact .inr ⟨front, same.symm⟩
  · exact .inr ⟨before ++ separator :: front, by simp⟩

/-- Whole components in front of other tokens make no difference to what is accepted. -/
theorem accepts_componentsFirst (some : tokens ≠ []) (more : tokens ≠ [.componentsFirst]) :
    accepts (.componentsFirst :: tokens) text = accepts tokens text := by
  have others : .componentsFirst :: tokens ≠ [Token.componentsFirst] := fun same => some (List.cons.inj same).2
  rw [Bool.eq_iff_iff, accepts_iff, accepts_iff, occurs_widened (floating_body _),
    occurs_widened (floating_body _), body_of_ne others, body_of_ne more]
  constructor
  · rintro ⟨tail, isTail, spells⟩
    obtain ⟨front, back, rfl, first, last⟩ := spells_sequence_append.mp spells
    refine ⟨back, ?_, last⟩
    rcases spells_componentsFirst first with rfl | ⟨front, rfl⟩
    · exact isTail
    · rw [List.append_assoc] at isTail
      exact isTail.append
  · rintro ⟨tail, isTail, spells⟩
    exact ⟨tail, isTail, spells_sequence_append.mpr
      ⟨[], tail, rfl, ⟨[], [], rfl, .inl (.inl rfl), rfl⟩, spells⟩⟩

end Isolate.Glob
