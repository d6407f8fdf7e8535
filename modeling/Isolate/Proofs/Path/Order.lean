import Isolate.Path.Basic
import Mathlib.Data.List.Pairwise
import Mathlib.Data.List.Perm.Basic

/-!
# Paths in order

Components are ordered by their class and then by name, component lists lexicographically, and paths by
their components. Inserting into an ascending list keeps it ascending, and an ascending list is all
determined by what is in it.
-/

namespace Isolate.Path

open Std

namespace Component

def nameOf : Component → String
  | normal name => name
  | _ => ""

theorem compare_eq_compareLex :
    compare = compareLex (compareOn rank) (compareOn nameOf) := by
  funext a b
  cases a <;> cases b <;> rfl

instance : TransCmp compare := compare_eq_compareLex ▸ inferInstance

instance : LawfulEqCmp compare where
  eq_of_compare {a b} h := by
    rw [compare_eq_compareLex, compareLex_eq_eq, compareOn, compareOn, Std.compare_eq_iff_eq,
      Std.compare_eq_iff_eq] at h
    cases a <;> cases b <;> simp_all [rank, nameOf]

end Component

theorem compareComponents_eq_compareLex :
    compareComponents = List.compareLex Component.compare := by
  funext a b
  induction a generalizing b with
  | nil => cases b <;> rfl
  | cons x xs ih =>
    cases b with
    | nil => rfl
    | cons y ys =>
      rw [compareComponents, List.compareLex_cons_cons, ← ih]
      cases Component.compare x y <;> rfl

instance : TransCmp compareComponents := compareComponents_eq_compareLex ▸ inferInstance

instance : LawfulEqCmp compareComponents := compareComponents_eq_compareLex ▸ inferInstance

instance : TransCmp compare where
  eq_swap {p q} := @OrientedCmp.eq_swap _ compareComponents _ p.components q.components
  isLE_trans {p q r} :=
    @TransCmp.isLE_trans _ compareComponents _ p.components q.components r.components

variable {p q : Path} {ps qs : List Path}

/-- Paths are equal in their order when they name the same thing. -/
theorem compare_eq_iff : p.compare q = .eq ↔ p.same q := by
  rw [compare, LawfulEqCmp.compare_eq_iff_eq, same, beq_iff_eq]

/-- Every path of a list comes before all that follow it. -/
def Ascending (ps : List Path) : Prop := ps.Pairwise fun p q => p.compare q = .lt

theorem isIn_cons : q.isIn (p :: ps) ↔ q.same p ∨ q.isIn ps := by
  rw [isIn, List.any_cons, Bool.or_eq_true, isIn]

/-- After an insertion a list holds what it held, and the path that was inserted. -/
theorem isIn_insertSorted : q.isIn (p.insertSorted ps) ↔ q.same p ∨ q.isIn ps := by
  induction ps with
  | nil => exact isIn_cons
  | cons first rest ih =>
    rw [insertSorted]
    split
    next => exact isIn_cons
    next equal =>
      have same : q.same p = q.same first := by
        rw [Path.same, Path.same, beq_iff_eq.mp (compare_eq_iff.mp equal)]
      rw [isIn_cons, same]
      tauto
    next =>
      rw [isIn_cons, ih, isIn_cons]
      tauto

/-- What an insertion puts into a list is the path that is inserted, to the letter. -/
theorem mem_of_mem_insertSorted (h : q ∈ p.insertSorted ps) : q = p ∨ q ∈ ps := by
  induction ps with
  | nil => exact .inl (List.mem_singleton.mp h)
  | cons first rest ih =>
    rw [insertSorted] at h
    split at h
    next => exact List.mem_cons.mp h
    next => exact .inr h
    next =>
      rcases List.mem_cons.mp h with rfl | h
      · exact .inr List.mem_cons_self
      · exact (ih h).imp_right (List.mem_cons_of_mem _)

/-- A path is put into a list that holds no spelling of it. -/
theorem mem_insertSorted_of_not_isIn (h : ¬p.isIn ps) : p ∈ p.insertSorted ps := by
  induction ps with
  | nil => exact List.mem_cons_self
  | cons first rest ih =>
    rw [isIn_cons, not_or] at h
    rw [insertSorted]
    split
    next => exact List.mem_cons_self
    next equal => exact absurd (compare_eq_iff.mp equal) h.1
    next => exact List.mem_cons_of_mem _ (ih h.2)

theorem mem_insertSorted_of_mem (h : q ∈ ps) : q ∈ p.insertSorted ps := by
  induction ps with
  | nil => contradiction
  | cons first rest ih =>
    rw [insertSorted]
    split
    next => exact List.mem_cons_of_mem _ h
    next => exact h
    next =>
      rcases List.mem_cons.mp h with rfl | h
      · exact List.mem_cons_self
      · exact List.mem_cons_of_mem _ (ih h)

theorem Ascending.insertSorted (h : Ascending ps) : Ascending (p.insertSorted ps) := by
  induction ps with
  | nil => exact List.pairwise_singleton _ _
  | cons first rest ih =>
    obtain ⟨before, ascending⟩ := List.pairwise_cons.mp h
    rw [Path.insertSorted]
    split
    next less =>
      refine List.pairwise_cons.mpr ⟨fun q member => ?_, h⟩
      rcases List.mem_cons.mp member with rfl | member
      · exact less
      · exact TransCmp.lt_trans less (before q member)
    next => exact h
    next greater =>
      refine List.pairwise_cons.mpr ⟨fun q member => ?_, ih ascending⟩
      rcases mem_of_mem_insertSorted member with rfl | member
      · exact OrientedCmp.lt_of_gt greater
      · exact before q member

theorem Ascending.nodup (h : Ascending ps) : ps.Nodup :=
  h.imp fun less same => by
    rw [same, compare_eq_iff.mpr (beq_self_eq_true _)] at less
    contradiction

/-- An ascending list is determined by what is in it. -/
theorem Ascending.ext (hp : Ascending ps) (hq : Ascending qs) (same : ∀ p, p ∈ ps ↔ p ∈ qs) :
    ps = qs := by
  have perm : ps.Perm qs := (List.perm_ext_iff_of_nodup hp.nodup hq.nodup).mpr same
  refine perm.eq_of_pairwise (fun p q _ _ less greater => ?_) hp hq
  rw [@OrientedCmp.eq_swap _ compare, less] at greater
  contradiction

end Isolate.Path
