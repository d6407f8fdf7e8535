import Isolate.Blueprint.Module
import Isolate.Proofs.Script.Once
import Isolate.Proofs.Script.Passing

/-!
# What modules that pass a value on deliver

A module that passes a name on runs in four steps, and its default export is then what the name
stands for. Nothing else of the world changes but the promise of the evaluation and the object of
the exports, which are new.
-/

namespace Isolate

/-- A change of an element behind some others. -/
theorem Array.modify_push_append {α : Type} (items more : Array α) (item : α) (f : α → α) :
    (items.push item ++ more).modify items.size f = items.push (f item) ++ more := by
  apply Array.ext
  · simp
  · intro i short _
    rw [Array.getElem_modify, Array.getElem_append, Array.getElem_append]
    simp only [Array.size_push, Array.getElem_push]
    by_cases old : i < items.size
    · simp [old, Nat.ne_of_gt old, Nat.lt_succ_of_lt old]
    · by_cases last : items.size = i
      · simp [last]
      · rw [if_neg last, dif_neg (by omega), dif_neg (by omega)]

namespace Script

variable {w : World}

def promiseObject (state : PromiseState) : Object :=
  { proto := some Intrinsic.promisePrototype.id, nature := .promise state }

theorem World.object_push (w : World) (objects more : Array Object) (object : Object) :
    { w with objects := objects.push object ++ more }.object objects.size = object := by
  rw [World.object, Array.getD_eq_getD_getElem?, Array.getElem?_append_left (by simp),
    Array.getElem?_push_size, Option.getD_some]

theorem World.promiseState?_push (w : World) (objects more : Array Object) (state : PromiseState) :
    { w with objects := objects.push (promiseObject state) ++ more }.promiseState? objects.size =
      some state := by
  rw [promiseState?_eq, object_push]
  rfl

theorem World.promiseState?_of_push {objects : Array Object} {state : PromiseState}
    (same : w.objects = objects.push (promiseObject state)) :
    w.promiseState? objects.size = some state := by
  have here := w.promiseState?_push objects #[] state
  rw [Array.append_empty, ← same] at here
  exact here

theorem settleNew_push (w : World) (objects more : Array Object) (outcome : Except Value Value) :
    settleNew objects.size outcome
        { w with objects := objects.push (promiseObject (.pending [])) ++ more } =
      .ok ⟨⟩ { w with objects := objects.push (promiseObject (.ofOutcome outcome)) ++ more } := by
  change EStateM.Result.ok _ { w with objects := (objects.push _ ++ more).modify _ _ } = _
  rw [Array.modify_push_append]
  rfl

theorem settle_eq (id : ObjectId) (outcome : Except Value Value) (w : World) :
    settle id outcome w =
      (match w.promiseState? id with
        | some (.pending reactions) => do
          settleNew id outcome
          reactions.forM fun reaction => enqueue (.react reaction outcome)
        | _ => pure () : Action PUnit) w := rfl

/-- A new promise is settled, and nothing waits for it. -/
theorem settle_push (w : World) (objects more : Array Object) (outcome : Except Value Value) :
    settle objects.size outcome
        { w with objects := objects.push (promiseObject (.pending [])) ++ more } =
      .ok ⟨⟩ { w with objects := objects.push (promiseObject (.ofOutcome outcome)) ++ more } := by
  rw [settle_eq, World.promiseState?_push]
  exact run_bind_of_ok (settleNew_push w objects more outcome) _

/-- A name stands for a value in a scope, wherever code runs. -/
def World.Gives (w : World) (scope : ScopeId) (name : String) (value : Value) : Prop :=
  ∀ w' : World, w'.scopes = w.scopes → w'.objects = w.objects →
    loadName scope name w' = .ok value w'

/-- The default export of a module that passes a value on, in the scope of the module. -/
def delivered (value : Value) (bindings : List (String × Binding)) : List (String × Binding) :=
  Scope.insert defaultBinding (.held (some value) .constant) bindings

/-- A binding of the scope in force is given its first value. -/
theorem initName_of_bound {scope : ScopeId}
    (bound : (w.scope scope).bindings.lookup defaultBinding = some (.held none .constant))
    (value : Value) : initName scope defaultBinding value w = .ok ⟨⟩
      (w.modifyScope scope fun s => { s with bindings := delivered value s.bindings }) := by
  have here : w.find? defaultBinding (w.scopes.size + 1) (some scope) =
      some (.bound scope defaultBinding none .constant) := by
    rw [World.find?, World.findHere?]
    simp only [bound]
  have named : findName? scope defaultBinding w =
      .ok (some (.bound scope defaultBinding none .constant)) w :=
    congrArg (EStateM.Result.ok · w) here
  have unfolded : bind scope defaultBinding (.held (some value) .constant) w =
      (if !((w.scope scope).bindings.lookup defaultBinding).any Binding.isLasting then
        putBinding scope defaultBinding (.held (some value) .constant) else pure ⟨⟩) w := rfl
  rw [initName, run_bind_of_ok named]
  dsimp only
  rw [unfolded, bound]
  rfl

/-- Four steps load the name, keep its value as the default export and leave. -/
theorem perform_passesOn {code : FunctionCode} {name : String} {value : Value} {a : Activation}
    (own : a.code = code) (passes : code.PassesOn name) (start : a.next = 0)
    (gives : w.Gives a.scope name value)
    (bound : (w.scope a.scope).bindings.lookup defaultBinding = some (.held none .constant))
    (steps : Nat) : ∃ calls here running, perform (steps + 4) (.run a) w = .ok (.value .undefined)
      { w.modifyScope a.scope fun s => { s with bindings := delivered value s.bindings } with
        calls, here, running } := by
  have instr (n : Nat) : a.code.instrs[n]? =
      #[Instr.loadName name, .initName defaultBinding, .push .undefined, .ret][n]? := by
    rw [own, passes.instrs]
  let w₁ : World := a.enter w
  let a₁ : Activation := { a with next := 1, stack := value :: a.stack }
  let a₂ : Activation := { a with next := 2 }
  let w₂ : World := a₁.enter w₁
  let w₃ := w₂.modifyScope a.scope fun s => { s with bindings := delivered value s.bindings }
  have loads : ({ a with next := a.next + 1 } : Activation).step (.by (perform (steps + 3)))
      (.loadName name) w₁ = .ok (.next a₁) w₁ := by
    refine (run_bind_of_ok (gives w₁ rfl rfl) _).trans ?_
    rw [start]
    rfl
  have gives' : ({ a₁ with next := a₁.next + 1 } : Activation).step (.by (perform (steps + 2)))
      (.initName defaultBinding) w₂ = .ok (.next a₂) w₃ :=
    run_bind_of_ok (initName_of_bound (w := w₂) bound value) _
  have first : perform (steps + 4) (.run a) w = perform (steps + 3) (.run a₁) w₁ :=
    perform_next (by rw [start]; exact instr 0) loads
  have second : perform (steps + 3) (.run a₁) w₁ = perform (steps + 2) (.run a₂) w₃ :=
    perform_next (instr 1) gives'
  exact ⟨_, _, _, first.trans (second.trans ((perform_next (instr 2) rfl).trans
    (perform_done (instr 3) rfl)))⟩

theorem deeper_of_ok {α : Type} {action : Action α} {after : World} {value : α}
    (done : action { w with calls := 0 :: w.calls } = .ok value after) :
    deeper action w =
      .ok value { after with calls := w.calls, here := w.here, running := w.running } := by
  rw [deeper, done]

/-- A module that passes a name on begins to run, and its default export is the value of the name. -/
theorem runModule_passesOn {id unit : Nat} {code : FunctionCode} {name : String} {value : Value}
    (body : (w.module id).body = .code unit)
    (own : (w.units[unit]?).bind (·.functions.back?) = some code) (passes : code.PassesOn name)
    (gives : w.Gives (w.module id).scope name value)
    (bound : (w.scope (w.module id).scope).bindings.lookup defaultBinding =
      some (.held none .constant)) :
    runModule id w = .ok ⟨⟩
      { w.modifyScope (w.module id).scope fun s =>
          { s with bindings := delivered value s.bindings } with
        executed := id :: w.executed } := by
  let begun : World := { w with executed := id :: w.executed }
  let a : Activation :=
    { unit, code, origin := (w.units[unit]?.map (·.origin)).getD .unnamed
      scope := (w.module id).scope, this := .undefined }
  have activated : moduleActivation id unit begun = .ok a begun := by
    change EStateM.Result.ok { a with code := ((w.units[unit]?).bind (·.functions.back?)).getD {} } _ = _
    rw [own]
    rfl
  have enough : stepLimit = (stepLimit - 4) + 4 := by decide
  let deep : World := { begun with calls := 0 :: begun.calls }
  obtain ⟨calls, here, running, ran⟩ := perform_passesOn (w := deep) (a := a) rfl passes rfl
    (fun w' scopes objects => gives w' scopes objects) bound (stepLimit - 4)
  rw [← enough] at ran
  have ran' : deeper (perform stepLimit (.run a)) begun = .ok (.value .undefined)
      { w.modifyScope (w.module id).scope fun s =>
          { s with bindings := delivered value s.bindings } with
        executed := id :: w.executed } := by
    exact deeper_of_ok ran
  rw [runModule_eq, runBody, body]
  exact (run_bind_of_ok activated _).trans (run_bind_of_ok ran' _)

section Exports

variable {id : Nat} {scope : ScopeId}

def spaceObject (exports : List (Text.Units × ScopeId × String)) : Object :=
  { proto := none, nature := .space exports, extensible := false }

def ownExport (scope : ScopeId) : Text.Units × ScopeId × String :=
  (defaultExport, scope, defaultBinding)

def World.withSpace (w : World) (id : Nat) (scope : ScopeId) : World :=
  { w with
    objects := w.objects.push (spaceObject [ownExport scope])
    modules := w.modules.modify id fun m => { m with space := some w.objects.size } }

theorem World.object_withSpace (w : World) (id : Nat) (scope : ScopeId) :
    (w.withSpace id scope).object w.objects.size = spaceObject [ownExport scope] := by
  have here := (w.withSpace id scope).object_push w.objects #[] (spaceObject [ownExport scope])
  rw [Array.append_empty] at here
  exact here

theorem exportedNames_own (exports : (w.module id).exports = [.own defaultExport defaultBinding]) :
    w.exportedNames w.exportDepth [] id = [defaultExport] := by
  rw [World.exportDepth, World.exportedNames, exports]
  rfl

/-- The one item of a list is kept. -/
theorem filterMapM_of_ok {α β : Type} {f : α → Action (Option β)} {item : α} {kept : β}
    {after : World} (done : f item w = .ok (some kept) after) :
    [item].filterMapM f w = .ok [kept] after := by
  rw [List.filterMapM, List.filterMapM.loop]
  exact run_bind_of_ok done _

def exportTarget (w : World) (id : Nat) (name : Text.Units) :
    Action (Option (Text.Units × ScopeId × String)) := do
  match w.export? id name with
  | .found (.binding scope localName) => pure (some (name, (scope, localName)))
  | .found (.space other) => do
    let inner ← moduleSpace w.modules.size other
    let scope ← newScope
      { parent := none
        bindings := [(defaultBinding, .held (some (.object inner)) .constant)] }
    pure (some (name, (scope, defaultBinding)))
  | _ => pure none

theorem spaceOf_eq (id : Nat) (w : World) :
    spaceOf id w =
      (match (w.module id).space with
        | some space => pure space
        | none => do
          let space ← allocate (spaceObject [])
          modifyModule id fun m => { m with space := some space }
          let names := (w.exportedNames w.exportDepth [] id).foldl
            (fun sorted n => insertName n sorted) []
          let exports ← names.filterMapM (exportTarget w id)
          modify fun w => w.modifyObject space fun o => { o with nature := .space exports }
          pure space : Action ObjectId) w := rfl

/-- A module with a default export only has an object for it. -/
theorem spaceOf_own (exports : (w.module id).exports = [.own defaultExport defaultBinding])
    (unread : (w.module id).space = none) :
    spaceOf id w = .ok w.objects.size (w.withSpace id (w.module id).scope) := by
  let w₁ : World :=
    { w with
      objects := w.objects.push (spaceObject [])
      modules := w.modules.modify id fun m => { m with space := some w.objects.size } }
  have found : exportTarget w id defaultExport w₁ =
      .ok (some (defaultExport, (w.module id).scope, defaultBinding)) w₁ := by
    rw [exportTarget, w.export?_default exports]
    rfl
  rw [spaceOf_eq, unread, exportedNames_own exports]
  refine (run_bind_of_ok (w := w₁) (filterMapM_of_ok found) _).trans ?_
  have last := Array.modify_push_append w.objects #[] (spaceObject []) fun o =>
    { o with nature := .space [ownExport (w.module id).scope] }
  rw [Array.append_empty, Array.append_empty] at last
  exact congrArg (fun objects => EStateM.Result.ok w.objects.size { w₁ with objects }) last

/-- The object of the exports holds the value of the default export. -/
theorem getMember_space {value : Value} {kind : BindingKind}
    (bound : (w.scope scope).bindings.lookup defaultBinding = some (.held (some value) kind)) :
    getMember (.object w.objects.size) defaultExport (w.withSpace id scope) =
      .ok value (w.withSpace id scope) := by
  have here : (w.withSpace id scope).object w.objects.size = spaceObject [ownExport scope] :=
    w.object_withSpace id scope
  have own : ownMember? w.objects.size defaultExport (w.withSpace id scope) =
      .ok (some { value, configurable := false }) (w.withSpace id scope) := by
    have reads (rest : World → Action (Option Property)) (w' : World) :
        (get >>= rest) w' = rest w' w' := rfl
    rw [ownMember?, reads, here]
    exact run_bind_of_ok (exportedValue_of_bound (w := w.withSpace id scope) bound defaultExport) _
  have found : memberFrom (.object w.objects.size) defaultExport
      ((w.withSpace id scope).objects.size + 1) (some w.objects.size) (w.withSpace id scope) =
        .ok (some value) (w.withSpace id scope) := by
    rw [memberFrom]
    exact run_bind_of_ok own _
  exact run_bind_of_ok found _

/-- The exports of a module with a default export only are the value of it. -/
theorem collectExports_own {value : Value} {kind : BindingKind}
    (exports : (w.module id).exports = [.own defaultExport defaultBinding])
    (unread : (w.module id).space = none)
    (bound : (w.scope (w.module id).scope).bindings.lookup defaultBinding =
      some (.held (some value) kind)) :
    BuiltModule.collectExports id w =
      .ok [("default", value)] (w.withSpace id (w.module id).scope) := by
  let after := w.withSpace id (w.module id).scope
  have names : ownNames (after.object w.objects.size) = [defaultExport] := by
    rw [World.object_withSpace]
    rfl
  let put (found : List (String × Value)) (name : Text.Units) : Action (List (String × Value)) := do
    let value ← getMember (.object w.objects.size) name
    pure (BuiltModule.collectExports.insertExport name.toString value found)
  have folded (names : List Text.Units) (same : ownNames (after.object w.objects.size) = names) :
      BuiltModule.collectExports id w = names.foldlM put [] after := by
    rw [← same]
    exact run_bind_of_ok (spaceOf_own exports unread) _
  have only : put [] defaultExport after = .ok [("default", value)] after := by
    refine (run_bind_of_ok (getMember_space bound) _).trans ?_
    rw [defaultExport, Text.Units.toString_ofString]
    rfl
  rw [folded _ names, List.foldlM_cons]
  exact run_bind_of_ok only _

end Exports

theorem bindModule_eq (id : Nat) (w : World) :
    bindModule id w =
      (match (w.module id).body with
        | .code unit => do
          (w.module id).exports.forM (checkExport id)
          (w.module id).imports.forM (bindImport id (w.module id).scope)
          let code := ((w.units[unit]?).bind (·.functions.back?)).getD {}
          code.vars.forM fun name =>
            bind (w.module id).scope name (.held (some .undefined) .mutable)
          code.lexicals.forM fun entry => bind (w.module id).scope entry.1 (.held none entry.2)
          bindFunctions unit (w.module id).scope .undefined code.functions fun name value =>
            bind (w.module id).scope name (.held (some value) .mutable)
        | _ => pure () : Action PUnit) w := rfl

/-- A module that passes a name on is bound: what it imports, and its default export without a value. -/
theorem bindModule_passesOn {id unit : Nat} {code : FunctionCode} {name : String} {imported : World}
    (body : (w.module id).body = .code unit)
    (own : (w.units[unit]?).bind (·.functions.back?) = some code) (passes : code.PassesOn name)
    (exports : (w.module id).exports = [.own defaultExport defaultBinding])
    (imports : (w.module id).imports.forM (bindImport id (w.module id).scope) w =
      .ok ⟨⟩ imported)
    (unbound : (imported.scope (w.module id).scope).bindings.lookup defaultBinding = none) :
    bindModule id w = .ok ⟨⟩ (imported.modifyScope (w.module id).scope fun s =>
      { s with bindings := Scope.insert defaultBinding (.held none .constant) s.bindings }) := by
  rw [bindModule_eq, body]
  dsimp only
  rw [own, exports, Option.getD_some, passes.vars, passes.lexicals, passes.functions]
  have checked : [ExportEntry.own defaultExport defaultBinding].forM (checkExport id) w =
    .ok ⟨⟩ w := rfl
  refine (run_bind_of_ok checked _).trans ((run_bind_of_ok imports _).trans ?_)
  have bound : bind (w.module id).scope defaultBinding (.held none .constant) imported =
      (if !((imported.scope (w.module id).scope).bindings.lookup defaultBinding).any
          Binding.isLasting then
        putBinding (w.module id).scope defaultBinding (.held none .constant)
        else pure ⟨⟩) imported := rfl
  rw [unbound] at bound
  have vars : ([] : List String).forM (fun name =>
      bind (w.module id).scope name (.held (some .undefined) .mutable)) imported =
    .ok ⟨⟩ imported := rfl
  exact (run_bind_of_ok vars _).trans (run_bind_of_ok (run_bind_of_ok bound _) _)

theorem evaluateModule_eq {id root : Nat}
    (own : (if (w.module id).status = .evaluatingAsync || (w.module id).status = .evaluated then
      (w.module id).cycleRoot.getD id else id) = root) :
    evaluateModule id w =
      (match (w.module root).result with
        | some promise => pure promise
        | none => do
          let promise ← newPromise
          modifyModule root fun m => { m with result := some promise }
          match ← attempt (evaluateInner (w.modules.size + 1) root ([], 0)) with
          | .ok _ => do
            if !((← get).module root).isWaiting then settleNew promise (.ok .undefined)
          | .error reason => do
            for other in List.range w.modules.size do
              if ((← get).module other).status = .evaluating then noteFailure reason other
            noteFailure reason root
            settleNew promise (.error reason)
          pure promise : Action ObjectId) w := by
  subst own
  rfl

/-- The evaluation of a module that nothing has evaluated, which calls no function of the host and
waits for nothing. -/
theorem evaluateModule_of_ok {root : Nat} {begun : List Nat × Nat} {after : World}
    (linked : (w.module root).status = .linked) (unevaluated : (w.module root).result = none)
    (evaluated : evaluateInner (w.modules.size + 1) root ([], 0)
      { w with
        objects := w.objects.push (promiseObject (.pending []))
        modules := w.modules.modify root fun m => { m with result := some w.objects.size } } =
        .ok begun after)
    (objects : after.objects = w.objects.push (promiseObject (.pending [])))
    (ended : (after.module root).isWaiting = false) :
    evaluateModule root w = .ok w.objects.size
      { after with objects := w.objects.push (promiseObject (.fulfilled .undefined)) } := by
  have own : (if (w.module root).status = .evaluatingAsync || (w.module root).status = .evaluated then
      (w.module root).cycleRoot.getD root else root) = root := by
    rw [linked]
    rfl
  have tried : attempt (evaluateInner (w.modules.size + 1) root ([], 0))
      { w with
        objects := w.objects.push (promiseObject (.pending []))
        modules := w.modules.modify root fun m => { m with result := some w.objects.size } } =
        .ok (.ok begun) after := by
    rw [attempt, evaluated]
  have settled : settleNew w.objects.size (.ok .undefined) after =
      .ok ⟨⟩ { after with objects := w.objects.push (promiseObject (.fulfilled .undefined)) } := by
    have done := settleNew_push after w.objects #[] (.ok .undefined)
    rw [Array.append_empty, Array.append_empty, ← objects] at done
    exact done
  have left : (if !(after.module root).isWaiting then do
        settleNew w.objects.size (.ok .undefined)
        pure w.objects.size
      else pure w.objects.size : Action ObjectId) after = .ok w.objects.size
        { after with objects := w.objects.push (promiseObject (.fulfilled .undefined)) } := by
    rw [ended]
    exact run_bind_of_ok settled _
  rw [evaluateModule_eq own, unevaluated]
  exact (run_bind_of_ok tried _).trans left

end Script
end Isolate
