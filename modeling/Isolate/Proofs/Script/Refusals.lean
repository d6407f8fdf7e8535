import Isolate.Proofs.Worker.Law

/-!
# Refused compilations

A world keeps every refusal to compile a string, with the error that the refusal failed with. Whatever
code does, refusals are only added, and none where the host permits compilation. The error of each is a
new object, so that no two refusals have the same error.
-/

namespace Isolate.Script

/-- Between two worlds the host refused some compilations, latest first. -/
structure World.Refuses (w w' : World) (made : List Refusal) : Prop where
  refusals : w'.refusals = made ++ w.refusals
  allows : w'.allowsCodeGeneration = w.allowsCodeGeneration
  objects : w.objects.size ≤ w'.objects.size
  permitted : w.allowsCodeGeneration = true → made = []
  /-- The errors of the refusals are objects that were made in between. -/
  fresh : ∀ r ∈ made, ∃ id, r.error = .object id ∧ w.objects.size ≤ id ∧ id < w'.objects.size
  distinct : made.Pairwise fun r r' => r.error ≠ r'.error

/-- A world grows out of another one as far as refusals are concerned. -/
def World.Follows (w w' : World) : Prop := ∃ made, w.Refuses w' made

namespace World

variable {w w' w'' : World} {made made' : List Refusal}

theorem Refuses.refl (w : World) : w.Refuses w [] where
  refusals := rfl
  allows := rfl
  objects := Nat.le_refl _
  permitted _ := rfl
  fresh _ member := nomatch member
  distinct := .nil

theorem Refuses.trans (first : w.Refuses w' made) (later : w'.Refuses w'' made') :
    w.Refuses w'' (made' ++ made) where
  refusals := by rw [later.refusals, first.refusals, List.append_assoc]
  allows := later.allows.trans first.allows
  objects := Nat.le_trans first.objects later.objects
  permitted allowed := by
    rw [later.permitted (first.allows.trans allowed), first.permitted allowed, List.append_nil]
  fresh r member := by
    rcases List.mem_append.mp member with member | member
    · obtain ⟨id, error, old, new⟩ := later.fresh r member
      exact ⟨id, error, Nat.le_trans first.objects old, new⟩
    · obtain ⟨id, error, old, new⟩ := first.fresh r member
      exact ⟨id, error, old, Nat.lt_of_lt_of_le new later.objects⟩
  distinct := by
    refine List.pairwise_append.mpr ⟨later.distinct, first.distinct, fun r member r' member' => ?_⟩
    -- The error of the earlier refusal is an object of the world in between, that of the later one is not.
    obtain ⟨id, error, old, _⟩ := later.fresh r member
    obtain ⟨id', error', _, new⟩ := first.fresh r' member'
    rw [error, error']
    intro same
    obtain rfl := Value.object.inj same
    exact absurd new (Nat.not_lt.mpr old)

/-- A change to neither the refusals nor what the host permits. -/
theorem Follows.of_eq (refusals : w'.refusals = w.refusals)
    (allows : w'.allowsCodeGeneration = w.allowsCodeGeneration)
    (objects : w.objects.size ≤ w'.objects.size) : w.Follows w' :=
  ⟨[], { Refuses.refl w with refusals, allows, objects, fresh := fun _ member => nomatch member }⟩

/-- A refusal where compilation is forbidden. -/
theorem Follows.refuse (w : World) (error : Object) (forbidden : w.allowsCodeGeneration = false) :
    w.Follows { w with
      objects := w.objects.push error
      refusals := ⟨w.here, .object w.objects.size⟩ :: w.refusals } := by
  refine ⟨[⟨w.here, .object w.objects.size⟩], rfl, rfl, by simp, fun allowed => ?_, ?_, by simp⟩
  · rw [forbidden] at allowed
    contradiction
  · intro r member
    obtain rfl := List.mem_singleton.mp member
    exact ⟨w.objects.size, rfl, Nat.le_refl _, by simp⟩

/-- Whatever code and the host do, refusals are only added. -/
instance : IsHostLaw Follows where
  refl w := ⟨[], .refl w⟩
  trans := by
    rintro w w' w'' ⟨made, first⟩ ⟨made', later⟩
    exact ⟨made' ++ made, first.trans later⟩
  objects _ _ kept := .of_eq rfl rfl kept
  scopes _ _ := .of_eq rfl rfl (Nat.le_refl _)
  modules _ _ _ _ := .of_eq rfl rfl (Nat.le_refl _)
  execute _ _ := .of_eq rfl rfl (Nat.le_refl _)
  place _ _ _ _ := .of_eq rfl rfl (Nat.le_refl _)
  jobs _ _ := .of_eq rfl rfl (Nat.le_refl _)
  request _ _ _ _ := .of_eq rfl rfl (Nat.le_refl _)
  record _ _ := .of_eq rfl rfl (Nat.le_refl _)
  compile _ _ _ := .of_eq rfl rfl (Nat.le_refl _)
  refuse := .refuse
  requests _ _ := .of_eq rfl rfl (Nat.le_refl _)
  unit _ _ := .of_eq rfl rfl (Nat.le_refl _)
  module _ _ := .of_eq rfl rfl (Nat.le_refl _)
  log _ _ := .of_eq rfl rfl (Nat.le_refl _)

end World
end Isolate.Script
