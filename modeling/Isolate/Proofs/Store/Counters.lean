import Isolate.Proofs.Path.Order
import Isolate.Store.Recording
import Mathlib.Algebra.GroupWithZero.Nat

/-!
# Counters by path

A table of counters is kept in ascending order of its paths. Counting a read adds one to the counter of
the path's components and touches no other counter, wherever it puts the entry.
-/

namespace Isolate.Store.Counters

open Std

variable {p q : Path} {counters : Counters} {n : Nat}

/-- The entries of a table stand in ascending order. -/
def IsAscending (counters : Counters) : Prop := Path.Ascending (counters.map (·.1))

theorem isAscending_nil : IsAscending [] := List.Pairwise.nil

theorem isAscending_cons {rest : Counters} :
    IsAscending ((p, n) :: rest) ↔ (∀ entry ∈ rest, p.compare entry.1 = .lt) ∧ IsAscending rest := by
  simp [IsAscending, Path.Ascending, List.pairwise_cons]

/-- Equal paths share their place in the order. -/
theorem compare_of_same (same : q.same p) (r : Path) : q.compare r = p.compare r := by
  rw [Path.compare, Path.compare, beq_iff_eq.mp same]

theorem not_same_of_lt (less : p.compare q = .lt) : ¬p.same q := fun same => by
  rw [Path.compare_eq_iff.mpr same] at less
  contradiction

/-- A path that comes before a whole table has no counter in it. -/
theorem get_of_before (before : ∀ entry ∈ counters, p.compare entry.1 = .lt) :
    get p counters = 0 := by
  induction counters with
  | nil => rfl
  | cons entry rest ih =>
    rw [get, if_neg (not_same_of_lt (before _ List.mem_cons_self)),
      ih fun entry member => before entry (List.mem_cons_of_mem _ member)]

theorem mem_count {entry : Path × Nat} (h : entry ∈ count p counters) :
    entry.1 = p ∨ ∃ m, (entry.1, m) ∈ counters := by
  induction counters with
  | nil => exact .inl (congrArg Prod.fst (List.mem_singleton.mp h))
  | cons first rest ih =>
    obtain ⟨r, m⟩ := first
    rw [count] at h
    split at h
    next =>
      rcases List.mem_cons.mp h with rfl | h
      · exact .inl rfl
      · exact .inr ⟨entry.2, h⟩
    next =>
      rcases List.mem_cons.mp h with rfl | h
      · exact .inr ⟨m, List.mem_cons_self⟩
      · exact .inr ⟨entry.2, List.mem_cons_of_mem _ h⟩
    next =>
      rcases List.mem_cons.mp h with rfl | h
      · exact .inr ⟨m, List.mem_cons_self⟩
      · exact (ih h).imp_right fun ⟨k, member⟩ => ⟨k, List.mem_cons_of_mem _ member⟩

theorem IsAscending.count (h : IsAscending counters) : IsAscending (count p counters) := by
  induction counters with
  | nil => exact isAscending_cons.mpr ⟨fun _ absent => absurd absent List.not_mem_nil, .nil⟩
  | cons first rest ih =>
    obtain ⟨r, m⟩ := first
    obtain ⟨before, ascending⟩ := isAscending_cons.mp h
    rw [Counters.count]
    split
    next less =>
      refine isAscending_cons.mpr ⟨fun entry member => ?_, h⟩
      rcases List.mem_cons.mp member with rfl | member
      · exact less
      · exact TransCmp.lt_trans less (before entry member)
    next => exact isAscending_cons.mpr ⟨before, ascending⟩
    next greater =>
      refine isAscending_cons.mpr ⟨fun entry member => ?_, ih ascending⟩
      rcases mem_count member with same | ⟨k, member⟩
      · rw [same]
        exact OrientedCmp.lt_of_gt greater
      · exact before (entry.1, k) member

/-- Counting a read adds one to the counters of equal paths and to no other. -/
theorem get_count (h : IsAscending counters) :
    get q (count p counters) = get q counters + if q.same p then 1 else 0 := by
  induction counters with
  | nil => by_cases asked : q.same p <;> simp [count, get, asked]
  | cons first rest ih =>
    obtain ⟨r, m⟩ := first
    obtain ⟨before, ascending⟩ := isAscending_cons.mp h
    rw [count]
    split
    next less =>
      rw [get]
      by_cases asked : q.same p
      · -- the entry is new: the whole table comes behind it
        have absent : get q ((r, m) :: rest) = 0 := get_of_before fun entry member => by
          rw [compare_of_same asked]
          rcases List.mem_cons.mp member with rfl | member
          · exact less
          · exact TransCmp.lt_trans less (before entry member)
        rw [if_pos asked, if_pos asked, absent]
      · rw [if_neg asked, if_neg asked, Nat.add_zero]
    next equal =>
      have same : q.same p = q.same r := by
        rw [Path.same, Path.same, beq_iff_eq.mp (Path.compare_eq_iff.mp equal)]
      rw [get, get, same]
      by_cases asked : q.same r
      · rw [if_pos asked, if_pos asked, if_pos asked]
      · rw [if_neg asked, if_neg asked, if_neg asked, Nat.add_zero]
    next greater =>
      rw [get, get, ih ascending]
      by_cases asked : q.same r
      · have apart : ¬q.same p := fun same => by
          have equal := Path.compare_eq_iff.mpr asked
          rw [compare_of_same same, greater] at equal
          contradiction
        rw [if_pos asked, if_pos asked, if_neg apart, Nat.add_zero]
      · rw [if_neg asked, if_neg asked]

theorem total_eq_sum : total counters = (counters.map (·.2)).sum := rfl

theorem total_count : total (count p counters) = total counters + 1 := by
  induction counters with
  | nil => rfl
  | cons first rest ih =>
    obtain ⟨r, m⟩ := first
    rw [count]
    split <;> simp only [total_eq_sum, List.map_cons, List.sum_cons] at ih ⊢ <;> omega

/-- In an ascending table every entry is the counter of its path. -/
theorem get_of_mem (h : IsAscending counters) (member : (p, n) ∈ counters) : get p counters = n := by
  induction counters with
  | nil => contradiction
  | cons first rest ih =>
    obtain ⟨r, m⟩ := first
    obtain ⟨before, ascending⟩ := isAscending_cons.mp h
    rw [get]
    rcases List.mem_cons.mp member with same | member
    · cases same
      exact if_pos (beq_self_eq_true p.components)
    · have apart : ¬p.same r := fun same => by
        have less := before _ member
        rw [← compare_of_same same, Path.compare_eq_iff.mpr (beq_self_eq_true _)] at less
        contradiction
      rw [if_neg apart, ih ascending member]

end Isolate.Store.Counters
