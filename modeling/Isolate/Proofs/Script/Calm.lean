import Isolate.Globals
import Isolate.Proofs.Script.Law
import Isolate.Script.Module.Linking

/-!
# What leaves a world calm

Making objects, scopes and closures asks for nothing: it leaves no job and no request to load anything,
touches no module and no unit of code that is there, and settles no promise. An action is quiet if it
never fails and leaves the world calm.
-/

namespace Isolate

namespace Script

variable {α β : Type}

def Nature.promise? : Nature → Option PromiseState
  | .promise state => some state
  | _ => none

namespace World

/-- The world has grown by modules only, as far as loading modules is concerned. -/
structure Grows (w w' : World) (added : List Module) : Prop where
  jobs : w'.jobs = w.jobs
  requests : w'.requests = w.requests
  modules : w'.modules = w.modules ++ added.toArray
  units : ∀ (id : Nat) (unit : CodeUnit), w.units[id]? = some unit → w'.units[id]? = some unit
  objects : w.objects.size ≤ w'.objects.size
  promises : ∀ id, id < w.objects.size → w'.promiseState? id = w.promiseState? id

/-- Nothing has changed as far as loading modules is concerned. -/
abbrev Calm (w w' : World) : Prop := w.Grows w' []

variable {w w' w'' : World} {added added' : List Module}

theorem promiseState?_eq (w : World) (id : ObjectId) :
    w.promiseState? id = (w.object id).nature.promise? := rfl

theorem Grows.refl (w : World) : w.Calm w :=
  ⟨rfl, rfl, by simp, fun _ _ => id, Nat.le_refl _, fun _ _ => rfl⟩

theorem Grows.trans (first : w.Grows w' added) (later : w'.Grows w'' added') :
    w.Grows w'' (added ++ added') where
  jobs := later.jobs.trans first.jobs
  requests := later.requests.trans first.requests
  modules := by simp [later.modules, first.modules]
  units id unit known := later.units id unit (first.units id unit known)
  objects := Nat.le_trans first.objects later.objects
  promises id old :=
    (later.promises id (Nat.lt_of_lt_of_le old first.objects)).trans (first.promises id old)

/-- A change of nothing that loading modules looks at. -/
theorem Grows.of_eq (jobs : w'.jobs = w.jobs) (requests : w'.requests = w.requests)
    (modules : w'.modules = w.modules) (units : w'.units = w.units) (objects : w'.objects = w.objects) :
    w.Calm w' where
  jobs := jobs
  requests := requests
  modules := by simp [modules]
  units id unit known := by rw [units, known]
  objects := objects ▸ Nat.le_refl _
  promises id _ := by rw [promiseState?_eq, promiseState?_eq, object, object, objects]

/-- A new object, which is no promise that is there. -/
theorem Grows.push (w : World) (object : Object) :
    w.Calm { w with objects := w.objects.push object } where
  jobs := rfl
  requests := rfl
  modules := by simp
  units _ _ known := known
  objects := by simp
  promises id old := by
    rw [promiseState?_eq, promiseState?_eq, World.object, World.object, Array.getD_eq_getD_getElem?,
      Array.getD_eq_getD_getElem?, Array.getElem?_push_lt old, Array.getElem?_eq_getElem old]

/-- A change to an object that leaves it the promise that it is, if it is one. -/
theorem Grows.modifyObject (w : World) (id : ObjectId) (f : Object → Object)
    (kept : ∀ o, (f o).nature.promise? = o.nature.promise?) : w.Calm (w.modifyObject id f) where
  jobs := rfl
  requests := rfl
  modules := by simp [World.modifyObject]
  units _ _ known := known
  objects := by simp [World.modifyObject]
  promises other _ := by
    rw [promiseState?_eq, promiseState?_eq, object_modifyObject]
    split
    · exact kept _
    · rfl

end World

/-- An action succeeds, with a value and a world as described. -/
def Runs (action : Action α) (w : World) (Q : α → World → Prop) : Prop :=
  ∃ value w', action w = .ok value w' ∧ Q value w'

namespace Runs

variable {action : Action α} {rest : α → Action β} {w : World} {Q Q' : α → World → Prop}
  {R : β → World → Prop}

theorem mono (h : Runs action w Q) (weaker : ∀ value w', Q value w' → Q' value w') :
    Runs action w Q' := by
  obtain ⟨value, w', done, holds⟩ := h
  exact ⟨value, w', done, weaker value w' holds⟩

theorem done (h : Runs action w Q) :
    Runs action w fun value w' => Q value w' ∧ action w = .ok value w' := by
  obtain ⟨value, w', done, holds⟩ := h
  exact ⟨value, w', done, holds, done⟩

theorem pure {value : α} (h : Q value w) : Runs (pure value) w Q := ⟨value, w, rfl, h⟩

theorem bind (first : Runs action w Q) (later : ∀ value w', Q value w' → Runs (rest value) w' R) :
    Runs (action >>= rest) w R := by
  obtain ⟨value, w', done, holds⟩ := first
  obtain ⟨value', w'', done', holds'⟩ := later value w' holds
  refine ⟨value', w'', ?_, holds'⟩
  change EStateM.bind action rest w = _
  rw [EStateM.bind, done]
  exact done'

end Runs

/-- An action never fails and leaves the world calm. -/
def Quiet (action : Action α) : Prop := ∀ w : World, Runs action w fun _ w' => w.Calm w'

namespace Quiet

variable {action : Action α} {rest : α → Action β}

theorem pure (value : α) : Quiet (pure value) := fun w => .pure (.refl w)

theorem bind (first : Quiet action) (later : ∀ value, Quiet (rest value)) :
    Quiet (action >>= rest) := fun w =>
  (first w).bind fun value w' calm => (later value w').mono fun _ _ calm' => calm.trans calm'

theorem modify {f : World → World} (calm : ∀ w : World, w.Calm (f w)) :
    Quiet (modify f : Action PUnit) := fun w => ⟨⟨⟩, f w, rfl, calm w⟩

theorem forM {action : α → Action PUnit} (items : List α) (each : ∀ item, Quiet (action item)) :
    Quiet (items.forM action) := by
  induction items with
  | nil => exact .pure _
  | cons item items ih => exact .bind (each item) fun _ => ih

theorem mapM {action : α → Action β} (items : List α) (each : ∀ item, Quiet (action item)) :
    Quiet (items.mapM action) := by
  induction items with
  | nil => exact .pure _
  | cons item items ih =>
    rw [List.mapM_cons]
    exact .bind (each item) fun _ => .bind ih fun _ => .pure _

end Quiet

theorem quiet_allocate (object : Object) : Quiet (allocate object) := fun w =>
  ⟨w.objects.size, _, rfl, .push w object⟩

theorem quiet_newObject : Quiet newObject := quiet_allocate _

theorem quiet_newArray (items : List Value) : Quiet (newArray items) := quiet_allocate _

theorem quiet_newScope (scope : Scope) : Quiet (newScope scope) := fun w =>
  ⟨w.scopes.size, _, rfl, .of_eq rfl rfl rfl rfl rfl⟩

theorem quiet_putOwn (id : ObjectId) (name : Text.Units) (property : Property) :
    Quiet (putOwn id name property) := .modify fun w => .modifyObject w id _ fun o => by
  dsimp only
  cases o.nature <;> cases indexOf? name <;> rfl

theorem quiet_defineMember (id : ObjectId) (name : Text.Units) (value : Value) :
    Quiet (defineMember id name value) := quiet_putOwn id name _

theorem quiet_newError (kind : ErrorKind) (message : String) : Quiet (newError kind message) :=
  .bind (quiet_allocate _) fun _ => .pure _

theorem quiet_newFailure (kind : ErrorKind) (message : String) : Quiet (newFailure kind message) :=
  .bind (quiet_allocate _) fun _ => .pure _

theorem quiet_newFunction (callable : Callable) (name : Text.Units) (length : Nat) :
    Quiet (newFunction callable name length) := .bind (quiet_allocate _) fun _ => .pure _

theorem quiet_newClosure (unit : Nat) (code : FunctionCode) (scope : ScopeId) (this : Value) :
    Quiet (newClosure unit code scope this) := by
  refine .bind (quiet_allocate _) fun id => ?_
  dsimp only
  split
  · exact .bind quiet_newObject fun _ => .bind (quiet_putOwn _ _ _) fun _ =>
      .bind (quiet_putOwn _ _ _) fun _ => .pure _
  · split
    · exact .bind (quiet_allocate _) fun _ => .bind (quiet_putOwn _ _ _) fun _ => .pure _
    · exact .pure _

theorem runs_addUnit (unit : CodeUnit) (w : World) :
    Runs (addUnit unit) w fun id w' =>
      w.Calm w' ∧ w'.units[id]? = some unit ∧ w'.scopes = w.scopes :=
  ⟨w.units.size, { w with units := w.units.push unit }, rfl,
    { jobs := rfl, requests := rfl, modules := by simp, objects := Nat.le_refl _
      promises := fun _ _ => rfl
      units := fun id unit known => by
        obtain ⟨old, rfl⟩ := Array.getElem?_eq_some_iff.mp known
        exact Array.getElem?_push_lt old },
    by simp, rfl⟩

/-- What a module is when it is added: nothing that it requests is loaded yet. -/
structure Module.IsNew (module : Module) (body : ModuleBody) (requests : List Text.Units) : Prop where
  body : module.body = body
  requests : module.requests = requests
  loaded : module.loaded = []
  status : module.status = .unlinked

theorem runs_addModule (body : ModuleBody) (tree : Option ModuleTree) (w : World) :
    Runs (addModule body tree) w fun id w' =>
      id = w.modules.size ∧ ∃ module : Module,
        w.Grows w' [module] ∧ module.IsNew body (tree.elim [] (·.requests)) := by
  have added (w : World) (module : Module) :
      w.Grows { w with modules := w.modules.push module } [module] :=
    { jobs := rfl, requests := rfl, modules := by simp, objects := Nat.le_refl _
      promises := fun _ _ => rfl, units := fun _ _ known => known }
  refine (quiet_newScope _ w).bind fun scope w' calm => ?_
  have same : w'.modules.size = w.modules.size := by simp [calm.modules]
  cases tree with
  | none =>
    exact ⟨w'.modules.size, _, rfl, same, _,
      (calm.trans (added w' _)).trans (.of_eq rfl rfl rfl rfl rfl), ⟨rfl, rfl, rfl, rfl⟩⟩
  | some tree =>
    exact ⟨w'.modules.size, _, rfl, same, _, calm.trans (added w' _), ⟨rfl, rfl, rfl, rfl⟩⟩

/-- A promise was settled, and nothing else has changed that loading modules looks at. -/
structure World.Settles (w w' : World) (id : ObjectId) (state : PromiseState) : Prop where
  jobs : w'.jobs = w.jobs
  requests : w'.requests = w.requests
  modules : w'.modules = w.modules
  units : w'.units = w.units
  objects : w'.objects.size = w.objects.size
  promise : w'.promiseState? id = some state
  others (other : ObjectId) (apart : other ≠ id) : w'.object other = w.object other

/-- Settling a promise that nothing waits for leaves nothing to do. -/
theorem runs_settle {w : World} {id : ObjectId} (old : id < w.objects.size)
    (pending : w.promiseState? id = some (.pending [])) (outcome : Except Value Value) :
    Runs (settle id outcome) w fun _ w' => w.Settles w' id (.ofOutcome outcome) := by
  refine ⟨⟨⟩, w.modifyObject id fun o => { o with nature := .promise (.ofOutcome outcome) }, ?_,
    rfl, rfl, rfl, rfl, by simp [World.modifyObject], ?_, fun other apart => ?_⟩
  · have reads (rest : World → Action PUnit) : (get >>= rest) w = rest w w := rfl
    unfold settle
    rw [reads, pending]
    cases outcome <;> rfl
  · rw [World.promiseState?_eq, World.object_modifyObject, if_pos ⟨rfl, old⟩]
    rfl
  · rw [World.object_modifyObject, if_neg fun same => apart same.1.symm]

/-- An action leaves the world calm whenever it succeeds. -/
def Calms (action : Action α) : Prop :=
  ∀ (w : World) value w', action w = .ok value w' → w.Calm w'

namespace Calms

variable {action : Action α} {rest : α → Action β}

theorem of_quiet (h : Quiet action) : Calms action := by
  intro w value w' done
  obtain ⟨_, _, done', calm⟩ := h w
  rw [done'] at done
  obtain ⟨-, rfl⟩ := EStateM.Result.ok.inj done
  exact calm

theorem pure (value : α) : Calms (pure value) := of_quiet (.pure value)

theorem throw (abrupt : Abrupt) : Calms (throw abrupt : Action α) := fun _ _ _ done => nomatch done

theorem bind (first : Calms action) (later : ∀ value, Calms (rest value)) :
    Calms (action >>= rest) := by
  intro w value w'' done
  change EStateM.bind action rest w = _ at done
  rw [EStateM.bind] at done
  cases begun : action w with
  | error abrupt w' =>
    rw [begun] at done
    contradiction
  | ok middle w' =>
    rw [begun] at done
    exact (first w middle w' begun).trans (later middle w' value w'' done)

theorem get_bind {rest : World → Action β} (later : ∀ w, Calms (rest w)) :
    Calms (MonadState.get >>= rest) := fun w value w' done => later w w value w' done

theorem forM {action : α → Action PUnit} (items : List α) (each : ∀ item, Calms (action item)) :
    Calms (items.forM action) := by
  induction items with
  | nil => exact .pure _
  | cons item items ih => exact .bind (each item) fun _ => ih

end Calms

theorem calms_failWith (kind : ErrorKind) (message : String) :
    Calms (failWith kind message : Action α) :=
  .bind (.of_quiet (quiet_newFailure kind message)) fun _ => .get_bind fun _ => .throw _

theorem calms_ownMember? (id : ObjectId) (name : Text.Units) : Calms (ownMember? id name) := by
  have exported (scope : ScopeId) (localName : String) : Calms (exportedValue name scope localName) := by
    refine .get_bind fun w => ?_
    split
    · exact .pure _
    · exact calms_failWith _ _
  refine .get_bind fun w => ?_
  dsimp only
  split
  · split <;> exact .pure _
  · split
    · exact .pure _
    · split <;> exact .pure _
  · split
    · exact .bind (exported _ _) fun _ => .pure _
    · exact .pure _
  · exact .pure _

end Script

namespace Globals

open Script

mutual

theorem quiet_toValue : (json : Json) → Quiet (toValue json)
  | .null => .pure _
  | .bool _ => .pure _
  | .int _ => .pure _
  | .real _ => .pure _
  | .string _ => .pure _
  | .array items => by
    rw [toValue]
    exact .bind (quiet_itemValues items) fun _ => .bind (quiet_newArray _) fun _ => .pure _
  | .object members => by
    rw [toValue]
    exact .bind quiet_newObject fun id => .bind (quiet_defineMembers id members) fun _ => .pure _

theorem quiet_itemValues : (items : List Json) → Quiet (itemValues items)
  | [] => .pure _
  | item :: rest => by
    rw [itemValues]
    exact .bind (quiet_toValue item) fun _ => .bind (quiet_itemValues rest) fun _ => .pure _

theorem quiet_defineMembers (id : ObjectId) :
    (members : List (String × Json)) → Quiet (defineMembers id members)
  | [] => .pure _
  | (name, value) :: rest => by
    rw [defineMembers]
    exact .bind (quiet_toValue value) fun _ => .bind (quiet_defineMember _ _ _) fun _ =>
      quiet_defineMembers id rest

end

theorem calms_define (name : Text.Units) (property : Property) : Calms (define name property) := by
  refine .bind (calms_ownMember? _ _) fun found => ?_
  have put := Calms.of_quiet (quiet_putOwn Intrinsic.global.id name property)
  cases found with
  | none => exact put
  | some old =>
    dsimp only
    split
    · exact .bind (calms_failWith _ _) fun _ => put
    · exact put

/-- Binding the host's names leaves the world calm. -/
theorem calms_install (globals : Globals) : Calms globals.install := by
  refine .forM _ fun (name, entry) => ?_
  cases entry with
  | value json =>
    exact .bind (.of_quiet (quiet_toValue json.sorted)) fun _ => calms_define _ _
  | recorder length =>
    exact .bind (.of_quiet (quiet_newFunction _ _ _)) fun _ => calms_define _ _

end Globals
end Isolate
