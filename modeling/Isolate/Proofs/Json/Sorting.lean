import Isolate.Proofs.Json.Reading
import Mathlib.Data.String.Basic
import Mathlib.Data.List.Perm.Basic

/-!
# Equal JSON values

The sorted form of a value forgets the order of the members of its objects and the members that later
ones of the same name override. It depends on what the members give to each name, and on nothing else.
-/

namespace Isolate.Json

variable {items items' : List Json} {members members' : List (String × Json)} {name key : String}
  {json json' json'' value : Json}

theorem mem_of_lookup (found : lookup name members = some value) : (name, value) ∈ members := by
  induction members with
  | nil => contradiction
  | cons member members ih =>
    obtain ⟨key, first⟩ := member
    rw [lookup] at found
    split at found
    next later is => exact List.mem_cons_of_mem _ (ih (is.trans found))
    next =>
      split at found
      next same =>
        cases found
        rw [same]
        exact List.mem_cons_self
      next => contradiction

theorem lookup_eq_none_iff : lookup name members = none ↔ ∀ member ∈ members, member.1 ≠ name := by
  induction members with
  | nil => simp [lookup]
  | cons member members ih =>
    obtain ⟨key, first⟩ := member
    rw [lookup, List.forall_mem_cons, ← ih]
    cases lookup name members <;> simp

/-- In front of members without its name, a member is what its name is given. -/
theorem lookup_cons_of_fresh (fresh : ∀ member ∈ members, member.1 ≠ key) :
    lookup name ((key, value) :: members) = if key = name then some value else lookup name members := by
  rw [lookup]
  split
  next later is =>
    have apart : key ≠ name := fun same => fresh _ (mem_of_lookup is) same.symm
    rw [if_neg apart, is]
  next none => rw [none]

theorem lookup_concat (name key : String) (value : Json) (members : List (String × Json)) :
    lookup name (members ++ [(key, value)]) = if key = name then some value else lookup name members := by
  induction members with
  | nil => rfl
  | cons member members ih =>
    rw [List.cons_append, lookup, ih, lookup]
    by_cases same : key = name
    · rw [if_pos same, if_pos same]
    · rw [if_neg same, if_neg same]

def HasDistinctNames (members : List (String × Json)) : Prop := (members.map Prod.fst).Nodup

theorem HasDistinctNames.of_cons {member : String × Json}
    (distinct : HasDistinctNames (member :: members)) :
    (∀ other ∈ members, other.1 ≠ member.1) ∧ HasDistinctNames members := by
  obtain ⟨fresh, distinct⟩ := List.nodup_cons.mp distinct
  exact ⟨fun other member same => fresh (List.mem_map.mpr ⟨other, member, same⟩), distinct⟩

theorem HasDistinctNames.perm (distinct : HasDistinctNames members) (perm : members.Perm members') :
    HasDistinctNames members' := (perm.map Prod.fst).nodup_iff.mp distinct

/-- A name is given the value of its only member. -/
theorem lookup_eq_some_iff (distinct : HasDistinctNames members) :
    lookup name members = some value ↔ (name, value) ∈ members := by
  refine ⟨mem_of_lookup, fun member => ?_⟩
  induction members with
  | nil => contradiction
  | cons first members ih =>
    obtain ⟨fresh, distinct⟩ := distinct.of_cons
    rw [lookup_cons_of_fresh fresh]
    obtain rfl | member := List.mem_cons.mp member
    · exact if_pos rfl
    · rw [if_neg (fresh _ member).symm]
      exact ih distinct member

theorem lookup_perm (distinct : HasDistinctNames members) (perm : members.Perm members') (name : String) :
    lookup name members = lookup name members' := by
  ext value
  rw [lookup_eq_some_iff distinct, lookup_eq_some_iff (distinct.perm perm), perm.mem_iff]

theorem sortedItems_eq (items : List Json) : sortedItems items = items.map sorted := by
  induction items with
  | nil => rfl
  | cons item items ih => rw [sortedItems, ih, List.map_cons]

/-- Members in strictly ascending order of their names. -/
def IsAscending (members : List (String × Json)) : Prop :=
  members.Pairwise fun first later => first.1 < later.1

theorem IsAscending.distinct (ascending : IsAscending members) : HasDistinctNames members :=
  List.pairwise_map.mpr (ascending.imp fun less => less.ne)

theorem IsAscending.nodup (ascending : IsAscending members) : members.Nodup := by
  refine List.Pairwise.imp ?_ ascending
  rintro member _ less rfl
  exact lt_irrefl _ less

theorem insertMember_perm (fresh : ∀ member ∈ members, member.1 ≠ name) :
    (insertMember name value members).Perm ((name, value) :: members) := by
  induction members with
  | nil => exact .refl _
  | cons member members ih =>
    obtain ⟨different, fresh⟩ := List.forall_mem_cons.mp fresh
    rw [insertMember]
    split
    · exact .refl _
    · rw [if_neg different.symm]
      exact ((ih fresh).cons _).trans (.swap ..)

theorem IsAscending.insertMember (ascending : IsAscending members)
    (fresh : ∀ member ∈ members, member.1 ≠ name) : IsAscending (insertMember name value members) := by
  induction members with
  | nil => exact List.pairwise_singleton ..
  | cons member members ih =>
    obtain ⟨different, fresh⟩ := List.forall_mem_cons.mp fresh
    obtain ⟨least, ascending⟩ := List.pairwise_cons.mp ascending
    rw [Json.insertMember]
    split
    next less =>
      refine List.pairwise_cons.mpr ⟨List.forall_mem_cons.mpr ⟨less, fun later is => ?_⟩,
        List.pairwise_cons.mpr ⟨least, ascending⟩⟩
      exact less.trans (least later is)
    next notLess =>
      rw [if_neg different.symm]
      refine List.pairwise_cons.mpr ⟨fun later is => ?_, ih ascending fresh⟩
      obtain rfl | is := List.mem_cons.mp ((insertMember_perm fresh).mem_iff.mp is)
      · exact lt_of_le_of_ne (not_lt.mp notLess) different
      · exact least later is

/-- What the members give to a name is what it has in their sorted form, and that is ascending. -/
theorem sortedMembers_spec (members : List (String × Json)) :
    IsAscending (sortedMembers members) ∧
      ∀ name, lookup name (sortedMembers members) = (lookup name members).map sorted := by
  induction members with
  | nil => exact ⟨.nil, fun _ => rfl⟩
  | cons member members ih =>
    obtain ⟨key, value⟩ := member
    obtain ⟨ascending, found⟩ := ih
    rw [sortedMembers]
    split
    next known =>
      refine ⟨ascending, fun name => ?_⟩
      rw [found, lookup]
      split
      next later is => rw [is]
      next none =>
        have other : key ≠ name := by
          rintro rfl
          obtain ⟨member, is, same⟩ := List.any_eq_true.mp known
          have absent := found key
          rw [none] at absent
          exact lookup_eq_none_iff.mp absent member is (of_decide_eq_true same)
        rw [none, if_neg other]
    next unknown =>
      have fresh : ∀ member ∈ sortedMembers members, member.1 ≠ key := fun member is same =>
        unknown (List.any_eq_true.mpr ⟨member, is, decide_eq_true same⟩)
      have ascending : IsAscending (insertMember key value.sorted (sortedMembers members)) :=
        ascending.insertMember fresh
      refine ⟨ascending, fun name => ?_⟩
      rw [lookup_perm ascending.distinct (insertMember_perm fresh), lookup_cons_of_fresh fresh, found,
        lookup]
      have absent := found key
      rw [lookup_eq_none_iff.mpr fresh, eq_comm, Option.map_eq_none_iff] at absent
      by_cases same : key = name
      · subst same
        rw [absent, if_pos rfl, if_pos rfl]
        rfl
      · rw [if_neg same, if_neg same]
        cases lookup name members <;> rfl

theorem sortedMembers_ascending (members : List (String × Json)) : IsAscending (sortedMembers members) :=
  (sortedMembers_spec members).1

theorem lookup_sortedMembers (name : String) (members : List (String × Json)) :
    lookup name (sortedMembers members) = (lookup name members).map sorted :=
  (sortedMembers_spec members).2 name

/-- A sorted member is a member, sorted inside. -/
theorem exists_of_mem_sortedMembers (member : (name, value) ∈ sortedMembers members) :
    ∃ json, (name, json) ∈ members ∧ value = json.sorted := by
  have found := (lookup_eq_some_iff (sortedMembers_ascending members).distinct).mpr member
  rw [lookup_sortedMembers, Option.map_eq_some_iff] at found
  obtain ⟨json, found, rfl⟩ := found
  exact ⟨json, mem_of_lookup found, rfl⟩

/-- The sorted form of members depends on what they give to each name. -/
theorem sortedMembers_congr
    (same : ∀ name, (lookup name members).map sorted = (lookup name members').map sorted) :
    sortedMembers members = sortedMembers members' := by
  have ascending := sortedMembers_ascending members
  have ascending' := sortedMembers_ascending members'
  refine List.Perm.eq_of_pairwise (fun _ _ _ _ less less' => absurd less' less.not_gt) ascending
    ascending' ?_
  refine (List.perm_ext_iff_of_nodup ascending.nodup ascending'.nodup).mpr ?_
  intro (name, value)
  rw [← lookup_eq_some_iff ascending.distinct, ← lookup_eq_some_iff ascending'.distinct,
    lookup_sortedMembers, lookup_sortedMembers, same]

/-- Members keep what they give to a name, up to sorting, if each of them keeps its value. -/
theorem lookup_map_sorted {f : String × Json → Json}
    (each : ∀ member ∈ members, (f member).sorted = member.2.sorted) (name : String) :
    (lookup name (members.map fun member => (member.1, f member))).map sorted =
      (lookup name members).map sorted := by
  induction members with
  | nil => rfl
  | cons member members ih =>
    obtain ⟨first, later⟩ := List.forall_mem_cons.mp each
    have same := ih later
    rw [List.map_cons, lookup, lookup]
    cases found : lookup name members with
    | some value =>
      rw [found] at same
      obtain ⟨value', is, _⟩ := Option.map_eq_some_iff.mp same
      rw [is] at same ⊢
      exact same
    | none =>
      rw [found, Option.map_none, Option.map_eq_none_iff] at same
      rw [same]
      dsimp only
      split
      · exact congrArg some first
      · rfl

/-- A value that is equal to another one, no deeper, and without other numbers. -/
structure Agrees (json json' : Json) : Prop where
  sorted : json'.sorted = json.sorted
  depth : json'.depth ≤ json.depth
  ints (allowed : Int → Prop) (ints : json.HasInts allowed) : json'.HasInts allowed

namespace Agrees

theorem refl (json : Json) : json.Agrees json := ⟨rfl, Nat.le_refl _, fun _ => id⟩

theorem trans (first : json.Agrees json') (later : json'.Agrees json'') : json.Agrees json'' where
  sorted := later.sorted.trans first.sorted
  depth := Nat.le_trans later.depth first.depth
  ints allowed ints := later.ints allowed (first.ints allowed ints)

/-- Lists of equal elements are equal. -/
theorem array {f : Json → Json} (each : ∀ item ∈ items, item.Agrees (f item)) :
    (Json.array items).Agrees (.array (items.map f)) where
  sorted := by
    rw [Json.sorted, Json.sorted, sortedItems_eq, sortedItems_eq, List.map_map]
    exact congrArg Json.array (List.map_congr_left fun item member => (each item member).sorted)
  depth := by
    rw [Json.depth, Json.depth, Nat.add_le_add_iff_right, itemsDepth_le_iff, List.forall_mem_map]
    exact fun item member =>
      Nat.le_trans (each item member).depth (itemsDepth_le_iff.mp (Nat.le_refl _) item member)
  ints allowed ints := by
    rw [hasInts_array] at ints ⊢
    exact List.forall_mem_map.mpr fun item member => (each item member).ints allowed (ints item member)

/-- Objects are equal if they give equal values to the same names. -/
theorem object
    (same : ∀ name, (lookup name members').map Json.sorted = (lookup name members).map Json.sorted)
    (known : ∀ member' ∈ members', ∃ member ∈ members, member.2.Agrees member'.2) :
    (Json.object members).Agrees (.object members') where
  sorted := by rw [Json.sorted, Json.sorted, sortedMembers_congr same]
  depth := by
    rw [Json.depth, Json.depth, Nat.add_le_add_iff_right, membersDepth_le_iff]
    intro member' is
    obtain ⟨member, is, agrees⟩ := known member' is
    exact Nat.le_trans agrees.depth (membersDepth_le_iff.mp (Nat.le_refl _) member is)
  ints allowed ints := by
    rw [hasInts_object] at ints ⊢
    intro member' is
    obtain ⟨member, is, agrees⟩ := known member' is
    exact agrees.ints allowed (ints member is)

/-- The members of an object may stand in any order, with equal values. -/
theorem object_perm {between : List (String × Json)} {f : String × Json → Json}
    (distinct : HasDistinctNames members) (perm : members.Perm between)
    (each : ∀ member ∈ members, member.2.Agrees (f member)) :
    (Json.object members).Agrees (.object (between.map fun member => (member.1, f member))) := by
  refine .object (fun name => ?_) fun member' is => ?_
  · rw [lookup_perm distinct perm]
    exact lookup_map_sorted (fun member is => (each member (perm.mem_iff.mpr is)).sorted) name
  · obtain ⟨member, listed, rfl⟩ := List.mem_map.mp is
    have given := perm.mem_iff.mpr listed
    exact ⟨member, given, each member given⟩

end Agrees

/-- The sorted form of a value is equal to the value. -/
theorem agrees_sorted (json : Json) : json.Agrees json.sorted := by
  induction json with
  | array items ih =>
    rw [sorted, sortedItems_eq]
    exact .array ih
  | object members ih =>
    rw [sorted]
    refine .object (fun name => ?_) fun member' is => ?_
    · rw [lookup_sortedMembers, Option.map_map]
      cases found : lookup name members with
      | none => rfl
      | some value => exact congrArg some (ih _ (mem_of_lookup found)).sorted
    · obtain ⟨json, is, same⟩ := exists_of_mem_sortedMembers is
      exact ⟨_, is, same ▸ ih _ is⟩
  | _ => exact .refl _

end Isolate.Json
