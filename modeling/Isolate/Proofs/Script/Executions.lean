import Isolate.Proofs.Script.Assembly
import Isolate.Proofs.Script.Modules

/-!
# What running a module does

Running a module notes that its code begins to run. The code changes no module and begins none, and it
keeps what is settled and what lasts; the default export of a module without code of its own is put into
its scope, where it lasts from then on.
-/

namespace Isolate.Script

namespace World

variable {w w' w'' : World}

/-- Code has run. It changes no module and begins none, and it keeps what is settled and what lasts. -/
structure Conducts (w w' : World) : Prop where
  modules : w'.modules = w.modules
  executed : w'.executed = w.executed
  objects : w.KeepsObjects w'.objects
  scopes : w.KeepsScopes w'.scopes

theorem KeepsObjects.refl (w : World) : w.KeepsObjects w.objects := ⟨Nat.le_refl _, fun _ _ => rfl⟩

theorem KeepsObjects.trans (first : w.KeepsObjects w'.objects) (later : w'.KeepsObjects w''.objects) :
    w.KeepsObjects w''.objects where
  size := Nat.le_trans first.size later.size
  settled id settled := by
    have same : (w'.object id).nature = (w.object id).nature := first.settled id settled
    exact (later.settled id (by rw [same]; exact settled)).trans same

theorem KeepsScopes.refl (w : World) : w.KeepsScopes w.scopes := ⟨Nat.le_refl _, fun _ _ _ found _ => found⟩

theorem KeepsScopes.trans (first : w.KeepsScopes w'.scopes) (later : w'.KeepsScopes w''.scopes) :
    w.KeepsScopes w''.scopes where
  size := Nat.le_trans first.size later.size
  lasting id name binding found lasts :=
    later.lasting id name binding (first.lasting id name binding found lasts) lasts

instance : IsCodeLaw Conducts where
  refl w := ⟨rfl, rfl, .refl w, .refl w⟩
  trans _ _ _ first later :=
    ⟨later.modules.trans first.modules, later.executed.trans first.executed,
      first.objects.trans later.objects, first.scopes.trans later.scopes⟩
  objects w _ kept := ⟨rfl, rfl, kept, .refl w⟩
  scopes w _ kept := ⟨rfl, rfl, .refl w, kept⟩
  place w _ _ _ := ⟨rfl, rfl, .refl w, .refl w⟩
  jobs w _ := ⟨rfl, rfl, .refl w, .refl w⟩
  request w _ _ _ := ⟨rfl, rfl, .refl w, .refl w⟩
  record w _ := ⟨rfl, rfl, .refl w, .refl w⟩
  compile w _ _ := ⟨rfl, rfl, .refl w, .refl w⟩
  refuse w error _ := ⟨rfl, rfl, .push w error, .refl w⟩

/-- A module was run. Of what lasts nothing has changed, but for what a module without code of its own has
in its own scope. -/
structure Executes (id : Nat) (w w' : World) : Prop where
  modules : w'.modules = w.modules
  executed : w'.executed = id :: w.executed
  objects : w.KeepsObjects w'.objects
  scopes : w.scopes.size ≤ w'.scopes.size
  lasting (scope : ScopeId) (name : String) (binding : Binding)
    (apart : scope = (w.module id).scope → ¬(w.module id).IsPlain)
    (found : (w.scope scope).bindings.lookup name = some binding) (lasts : binding.isLasting) :
    (w'.scope scope).bindings.lookup name = some binding

theorem Conducts.executes {id : Nat} {noted : World} (h : noted.Conducts w')
    (same : noted = { w with executed := id :: w.executed }) : w.Executes id w' := by
  subst same
  exact ⟨h.modules, h.executed, ⟨h.objects.size, h.objects.settled⟩, h.scopes.size,
    fun scope name binding _ found lasts => h.scopes.lasting scope name binding found lasts⟩

/-- The default export of a module without code of its own is put into its scope. -/
theorem Conducts.executes_export {id : Nat} {noted : World} (h : noted.Conducts w')
    (same : noted = { w with executed := id :: w.executed }) (plain : (w.module id).IsPlain)
    (value : Value) :
    w.Executes id
      (left (putBinding (w.module id).scope defaultBinding (.held (some value) .fixed)) w') := by
  subst same
  refine ⟨h.modules, h.executed, ⟨h.objects.size, h.objects.settled⟩, ?_,
    fun scope name binding apart found lasts => ?_⟩
  · exact Nat.le_trans h.scopes.size (Nat.le_of_eq Array.size_modify.symm)
  · have kept := h.scopes.lasting scope name binding found lasts
    change ((w'.modifyScope _ _).scope scope).bindings.lookup name = _
    rw [scope_modifyScope, if_neg fun same => apart same.1.symm plain]
    exact kept

end World

/-- A module's own code, once it is noted that it begins to run. -/
def runBody (id : Nat) (module : Module) : Action PUnit :=
  match module.body with
  | .code unit => do
    let a ← moduleActivation id unit
    let _ ← deeper (perform stepLimit (.run a))
  | .commonJs wrapper => do
    putBinding module.scope defaultBinding (.held (some (← callWrapper wrapper)) .fixed)
  | .fixed value => putBinding module.scope defaultBinding (.held (some value) .fixed)

theorem runModule_eq (id : Nat) (w : World) :
    runModule id w = runBody id (w.module id) { w with executed := id :: w.executed } := rfl

/-- Running a module notes that it begins to run, and then does what its code does. -/
theorem executes_runModule (id : Nat) (w : World) : w.Executes id (left (runModule id) w) := by
  let noted : World := { w with executed := id :: w.executed }
  have begun : left (runModule id) w = left (runBody id (w.module id)) noted := rfl
  rw [begun, runBody]
  split
  next unit code => exact (obeys_runCode (R := World.Conducts) id unit noted).executes rfl
  next wrapper body =>
    have plain : (w.module id).IsPlain := fun unit code => nomatch body.symm.trans code
    have called : noted.Conducts (left (callWrapper wrapper) noted) :=
      obeys_callWrapper (R := World.Conducts) wrapper noted
    cases ran : callWrapper wrapper noted with
    | error abrupt w' =>
      rw [left_of_error ran] at called
      rw [left_bind_of_error ran]
      exact called.executes rfl
    | ok value w' =>
      rw [left_of_ok ran] at called
      rw [left_bind_of_ok ran]
      exact called.executes_export rfl plain value
  next value body =>
    have plain : (w.module id).IsPlain := fun unit code => nomatch body.symm.trans code
    exact (Std.Refl.refl (r := World.Conducts) noted).executes_export rfl plain value

/-- A module that awaits runs until it waits. -/
theorem executes_runWaiting (id : Nat) (w : World) : w.Executes id (left (runWaiting id) w) := by
  have reads (rest : World → Action PUnit) : (get >>= rest) w = rest w w := rfl
  rw [left, runWaiting, reads]
  cases body : (w.module id).body with
  | code unit =>
    let noted : World := { w with executed := id :: w.executed }
    exact (obeys_advanceCode (R := World.Conducts) id unit noted).executes rfl
  | commonJs | fixed => exact executes_runModule id w

end Isolate.Script
