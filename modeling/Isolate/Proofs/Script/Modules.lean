import Isolate.Proofs.Script.Running
import Isolate.Script.Module.Evaluation
import Isolate.Worker.Jobs

/-!
# Laws of linking and evaluating modules

Linking walks the graph of the modules that are loaded, and evaluation walks it again, runs their code and
goes on where code has waited. All of it obeys every law of linking and of evaluation.
-/

namespace Isolate.Script

variable {α β : Type}

/-- After an action that succeeds comes what follows it. -/
theorem run_bind_of_ok {action : Action α} {w w' : World} {value : α} (done : action w = .ok value w')
    (rest : α → Action β) : (action >>= rest) w = rest value w' := by
  change EStateM.bind action rest w = _
  rw [EStateM.bind, done]

/-- A sequence of two actions succeeds only if both do. -/
theorem exists_of_bind {action : Action α} {rest : α → Action β} {w w' : World} {value : β}
    (done : (action >>= rest) w = .ok value w') :
    ∃ middle between, action w = .ok middle between ∧ rest middle between = .ok value w' := by
  change EStateM.bind action rest w = _ at done
  rw [EStateM.bind] at done
  cases begun : action w with
  | error abrupt between =>
    rw [begun] at done
    contradiction
  | ok middle between =>
    rw [begun] at done
    exact ⟨middle, between, rfl, done⟩

/-- An action that succeeds relates the world before it to the one that it leaves. -/
theorem Obeys.of_ok {R : World → World → Prop} {action : Action α} (obeys : Obeys R action) {w w' : World}
    {value : α} (done : action w = .ok value w') : R w w' := left_of_ok done ▸ obeys w

namespace World

variable {w : World}

theorem getElem?_module {id : Nat} (known : id < w.modules.size) :
    w.modules[id]? = some (w.module id) := by
  rw [World.module, Array.getD_eq_getD_getElem?, Array.getElem?_eq_getElem known]
  rfl

theorem module_of_le {id : Nat} (far : w.modules.size ≤ id) : w.module id = default := by
  rw [World.module, Array.getD_eq_getD_getElem?, Array.getElem?_eq_none far]
  rfl

/-- Only a module that is there can have come further than to be added. -/
theorem lt_of_status {id : Nat} (come : (w.module id).status ≠ .unlinked) : id < w.modules.size := by
  refine Nat.lt_of_not_le fun far => come ?_
  rw [module_of_le far]
  rfl

end World

theorem size_modifyModule (id : Nat) (f : Module → Module) (w : World) :
    (left (modifyModule id f) w).modules.size = w.modules.size := Array.size_modify

theorem module_modifyModule (id other : Nat) (f : Module → Module) (w : World) :
    (left (modifyModule id f) w).module other =
      if id = other ∧ other < w.modules.size then f (w.module other) else w.module other := by
  change (w.modules.modify id f).getD other default = _
  rw [World.module, Array.getD_eq_getD_getElem?, Array.getD_eq_getD_getElem?, Array.getElem?_modify]
  by_cases here : other < w.modules.size
  · rw [Array.getElem?_eq_getElem here]
    by_cases same : id = other <;> simp [same, here]
  · rw [Array.getElem?_eq_none (Nat.le_of_not_lt here)]
    simp [here]

section Exports

variable {R : World → World → Prop} [law : World.IsExportLaw R]

/-- Finding exports may change objects in any way. -/
theorem obeys_changeObject (id : ObjectId) (f : Object → Object) :
    Obeys R (modify fun w => w.modifyObject id f) :=
  fun w => law.change w _ (by simp)

@[grind ←] theorem obeys_settleNew (id : ObjectId) (outcome : Except Value Value) :
    Obeys R (settleNew id outcome) := obeys_changeObject _ _

@[grind ←] theorem obeys_moduleSpace (fuel id : Nat) : Obeys R (moduleSpace fuel id) := by
  induction fuel generalizing id with
  | zero => exact .throw _
  | succ fuel ih =>
    refine .bind .get fun w => ?_
    split
    · exact .pure _
    · refine .bind (obeys_allocate _) fun space => .bind (fun w => law.space w id space) fun _ => ?_
      refine .bind (.filterMapM _ fun name => ?_) fun exports =>
        .bind (obeys_changeObject _ _) fun _ => .pure _
      split
      · exact .pure _
      · exact .bind (ih _) fun _ => .bind (obeys_newScope _) fun _ => .pure _
      · exact .pure _

@[grind ←] theorem obeys_spaceOf (id : Nat) : Obeys R (spaceOf id) :=
  .bind .get fun _ => obeys_moduleSpace _ _

end Exports

section Names

variable {R : World → World → Prop} [law : World.IsCodeLaw R]

@[grind ←] theorem obeys_failLink (name : Text.Units) (result : ExportResult) :
    Obeys R (failLink name result : Action α) := by
  unfold failLink
  grind

@[grind ←] theorem obeys_checkExport (id : Nat) (entry : ExportEntry) :
    Obeys R (checkExport id entry) := by
  unfold checkExport
  grind

/-- What follows the imports when the names of a module are bound. -/
theorem obeys_bindDeclared (unit : Nat) (scope : ScopeId) (code : FunctionCode) :
    Obeys R (do
      code.vars.forM fun name => bind scope name (.held (some .undefined) .mutable)
      code.lexicals.forM fun (name, kind) => bind scope name (.held none kind)
      bindFunctions unit scope .undefined code.functions fun name value =>
        bind scope name (.held (some value) .mutable)) :=
  .bind (.forM _ fun _ => obeys_bind _ _ _) fun _ => .bind (.forM _ fun _ => obeys_bind _ _ _) fun _ =>
    obeys_bindFunctions _ _ _ _ fun _ _ => obeys_bind _ _ _

variable (spaces : ∀ id, Obeys R (spaceOf id))
include spaces

/-- Apart from the objects of exports, linking only makes errors and binds names. -/
theorem obeys_importBinding (id : Nat) (entry : ImportEntry) : Obeys R (importBinding id entry) := by
  unfold importBinding
  grind

theorem obeys_bindImports (id : Nat) (scope : ScopeId) (entries : List ImportEntry)
    (puts : ∀ entry ∈ entries, ∀ binding, Obeys R (putBinding scope entry.localName binding)) :
    Obeys R (entries.forM (bindImport id scope)) := by
  induction entries with
  | nil => exact .pure _
  | cons first entries ih =>
    refine .bind (.bind (obeys_importBinding spaces id first) fun binding =>
      puts first List.mem_cons_self binding) fun _ => ih fun entry member => ?_
    exact puts entry (List.mem_cons_of_mem _ member)

/-- Binding the names of a module puts bindings for its imports into its scope. -/
theorem bindModule_obeys {w : World} {id : Nat}
    (puts : ∀ entry ∈ (w.module id).imports, ∀ binding,
      Obeys R (putBinding (w.module id).scope entry.localName binding)) :
    R w (left (bindModule id) w) := by
  refine Obeys.get_bind_at (R := R) ?_
  dsimp only
  split
  · exact .bind (.forM _ fun _ => obeys_checkExport _ _) fun _ =>
      .bind (obeys_bindImports spaces id _ _ puts) fun _ => obeys_bindDeclared _ _ _
  · exact .pure _

end Names

variable {R : World → World → Prop} [law : World.IsLaw R]

@[grind ←] theorem obeys_modifyModule (id : Nat) (f : Module → Module) :
    Obeys R (modifyModule id f) := fun w => law.modules w _ w.waits (by simp)

@[grind ←] theorem obeys_putBinding (scope : ScopeId) (name : String) (binding : Binding) :
    Obeys R (putBinding scope name binding) := fun w => law.scopes w _

@[grind ←] theorem obeys_bindModule (id : Nat) : Obeys R (bindModule id) :=
  fun _ => bindModule_obeys obeys_spaceOf fun _ _ _ => obeys_putBinding _ _ _

@[grind ←] theorem obeys_linkModule (id : Nat) : Obeys R (linkModule id) :=
  .bind .get fun _ => .bind (.forM _ fun _ => obeys_bindModule _) fun _ =>
    .forM _ fun _ => obeys_modifyModule _ _

section Code

variable {R : World → World → Prop} [law : World.IsCodeLaw R]

@[grind ←] theorem obeys_callWrapper (wrapper : Value) : Obeys R (callWrapper wrapper) := by
  refine .bind (obeys_isCallable _) fun _ => ?_
  extract_lets name call
  have calls (go : PUnit) : Obeys R (call go) :=
    .bind obeys_newObject fun exports => .bind obeys_newObject fun module =>
      .bind (obeys_setMember _ _ _ _) fun _ => .bind (obeys_invoke _ _ _) fun _ =>
        obeys_getMember _ _
  clear_value call
  grind

@[grind ←] theorem obeys_moduleActivation (id unit : Nat) : Obeys R (moduleActivation id unit) :=
  .bind .get fun _ => .pure _

/-- The code of a module runs to its end. -/
theorem obeys_runCode (id unit : Nat) : Obeys R (do
    let a ← moduleActivation id unit
    let _ ← deeper (perform stepLimit (.run a))) :=
  .bind (obeys_moduleActivation _ _) fun _ => .bind (obeys_deeper (obeys_perform _ _)) fun _ => .pure _

/-- The code of a module runs until it waits. -/
theorem obeys_advanceCode (id unit : Nat) : Obeys R (do
    let promise ← newPromise
    subscribe promise (.evaluated id)
    let a ← moduleActivation id unit
    let _ ← deeper (perform stepLimit (.advance a promise))) :=
  .bind obeys_newPromise fun _ => .bind (obeys_subscribe _ _) fun _ =>
    .bind (obeys_moduleActivation _ _) fun _ => .bind (obeys_deeper (obeys_perform _ _)) fun _ => .pure _

end Code

section Evaluating

variable {R : World → World → Prop} [law : World.IsEvaluationLaw R]

@[grind ←] theorem obeys_noteExecution (id : Nat) : Obeys R (noteExecution id) :=
  fun w => law.execute w id

@[grind ←] theorem obeys_runModule (id : Nat) : Obeys R (runModule id) := by
  refine .bind (obeys_noteExecution _) fun _ => .bind .get fun w => ?_
  dsimp only
  split
  · exact obeys_runCode _ _
  · exact .bind (obeys_callWrapper _) fun _ => obeys_putBinding _ _ _
  · exact obeys_putBinding _ _ _

@[grind ←] theorem obeys_runWaiting (id : Nat) : Obeys R (runWaiting id) := by
  refine .bind .get fun w => ?_
  split
  · exact .bind (obeys_noteExecution _) fun _ => obeys_advanceCode _ _
  · exact obeys_runModule _

@[grind ←] theorem obeys_beginWait (id : Nat) : Obeys R (beginWait id) :=
  fun w => law.modules w _ _ (by simp)

@[grind ←] theorem obeys_joinRequested (id other : Nat) : Obeys R (joinRequested id other) := by
  refine .bind .get fun w => ?_
  extract_lets found awaited target join check
  have joins (go : PUnit) : Obeys R (join go) := by grind
  clear_value join
  have checks (go : PUnit) : Obeys R (check go) := by grind
  clear_value check
  grind

@[grind ←] theorem obeys_endCycle (id : Nat) (begun : List Nat × Nat) : Obeys R (endCycle id begun) := by
  refine .bind .get fun w => ?_
  dsimp only
  split
  · exact .bind (.forM _ fun _ => obeys_modifyModule _ _) fun _ => .pure _
  · exact .pure _

@[grind ←] theorem obeys_runRequesting (id : Nat) : Obeys R (runRequesting id) := by
  unfold runRequesting
  grind

@[grind ←] theorem obeys_runPlain (id : Nat) : Obeys R (runPlain id) := by
  refine .bind (obeys_modifyModule _ _) fun _ => ?_
  grind

@[grind ←] theorem obeys_recallFailure (id : Nat) : Obeys R (recallFailure id) := by
  unfold recallFailure
  grind

@[grind ←] theorem obeys_evaluateInner (fuel id : Nat) (begun : List Nat × Nat) :
    Obeys R (evaluateInner fuel id begun) := by
  induction fuel generalizing id begun with
  | zero => exact .throw _
  | succ fuel ih =>
    refine .bind .get fun w => ?_
    extract_lets module
    split
    · refine .bind (obeys_modifyModule _ _) fun _ => .bind (.foldlM _ _ fun begun specifier => ?_)
        fun begun => .bind (obeys_runRequesting id) fun _ => obeys_endCycle id begun
      refine .bind .get fun w => ?_
      split
      · exact .pure _
      · exact .bind (ih _ _) fun begun => .bind (obeys_joinRequested _ _) fun _ => .pure begun
    · exact .bind (obeys_recallFailure _) fun _ => .pure _
    · exact .bind (obeys_recallFailure _) fun _ => .pure _
    · exact .bind (obeys_runPlain _) fun _ => .pure _

@[grind ←] theorem obeys_noteFailure (reason : Value) (id : Nat) : Obeys R (noteFailure reason id) :=
  obeys_modifyModule _ _

@[grind ←] theorem obeys_evaluateModule (id : Nat) : Obeys R (evaluateModule id) := by
  refine .bind .get fun w => ?_
  extract_lets module root
  split
  · exact .pure _
  · refine .bind obeys_newPromise fun promise => .bind (obeys_modifyModule _ _) fun _ =>
      .bind (obeys_attempt (obeys_evaluateInner _ _ _)) fun outcome => ?_
    dsimp only
    split
    · grind
    · exact .bind (.forIn _ _ fun _ _ => by grind) fun _ =>
        .bind (obeys_noteFailure _ _) fun _ => .bind (obeys_settleNew _ _) fun _ => .pure _

@[grind ←] theorem obeys_rejectWaiting (fuel : Nat) (reason : Value) (id : Nat) :
    Obeys R (rejectWaiting fuel reason id) := by
  induction fuel generalizing id with
  | zero => exact .pure _
  | succ fuel ih =>
    unfold rejectWaiting
    grind

@[grind ←] theorem obeys_releaseWaiters (fuel : Nat) (released : List Nat) (id : Nat) :
    Obeys R (releaseWaiters fuel released id) := by
  induction fuel generalizing released id with
  | zero => exact .pure _
  | succ fuel ih =>
    refine .bind .get fun w => .bind (.forIn _ _ fun other released => ?_) fun _ => .pure _
    refine .bind .get fun w => ?_
    grind

@[grind ←] theorem obeys_endWaiting (id : Nat) : Obeys R (endWaiting id) := by
  unfold endWaiting
  grind

@[grind ←] theorem obeys_continueModule (id : Nat) (outcome : Except Value Value) :
    Obeys R (continueModule id outcome) := by
  refine .bind .get fun w => ?_
  dsimp only
  split
  · exact obeys_rejectWaiting _ _ _
  · split
    · exact .pure _
    · refine .bind (obeys_endWaiting _) fun _ => .bind (obeys_releaseWaiters _ _ _) fun released => ?_
      exact .bind (.forIn _ _ fun _ _ => by grind) fun _ => .pure _

end Evaluating

end Isolate.Script
