import Isolate.Proofs.Script.Calm

/-!
# What building makes of a world

Adding units and modules to a world makes new objects and scopes, and changes none that is there: nothing
is recorded and no code is run. The modules that are added have scopes of their own, and their evaluation
has not begun.
-/

namespace Isolate.Script

variable {α β : Type}

/-- Another world has all that a world has, as it is there, and no more has been run. -/
structure World.Extends (w w' : World) : Prop where
  objects (id : ObjectId) (object : Object) (known : w.objects[id]? = some object) :
    w'.objects[id]? = some object
  scopes (id : ScopeId) (scope : Scope) (known : w.scopes[id]? = some scope) :
    w'.scopes[id]? = some scope
  units (id : Nat) (unit : CodeUnit) (known : w.units[id]? = some unit) : w'.units[id]? = some unit
  log : w'.log = w.log
  refusals : w'.refusals = w.refusals
  executed : w'.executed = w.executed
  limits : w'.limits = w.limits
  allows : w'.allowsCodeGeneration = w.allowsCodeGeneration

/-- The evaluation of a module has not begun. -/
structure Module.IsUntouched (module : Module) : Prop where
  cycleRoot : module.cycleRoot = none
  waitOrder : module.waitOrder = none
  waiters : module.waiters = []
  pending : module.pending = 0
  result : module.result = none
  failure : module.failure = none

def Module.IsPlain (module : Module) : Prop := ∀ unit, module.body ≠ .code unit

/-- No two imports of a module have one name, and a module without code has a default export only. -/
structure Module.IsSound (module : Module) : Prop where
  names : (module.imports.map ImportEntry.localName).Nodup
  requests (plain : module.IsPlain) : module.requests = []
  imports (plain : module.IsPlain) : module.imports = []
  exports (plain : module.IsPlain) : module.exports = [.own defaultExport defaultBinding]

/-- A world extends another one by modules and by what they need. -/
structure World.Arranged (base w : World) : Prop extends base.Extends w where
  untouched (id : Nat) (module : Module) (known : w.modules[id]? = some module) : module.IsUntouched
  /-- The modules have new scopes. -/
  scope (id : Nat) (module : Module) (known : w.modules[id]? = some module) :
    base.scopes.size ≤ module.scope ∧ module.scope < w.scopes.size
  apart (id id' : Nat) (module module' : Module) (known : w.modules[id]? = some module)
    (known' : w.modules[id']? = some module') (same : module.scope = module'.scope) : id = id'
  loaded (id : Nat) (module : Module) (known : w.modules[id]? = some module) :
    ∀ entry ∈ module.loaded, entry.2 < w.modules.size
  sound (id : Nat) (module : Module) (known : w.modules[id]? = some module) : module.IsSound

/-- A world extends another one by what building adds to it before modules are linked. -/
structure World.Assembled (base w : World) : Prop extends base.Arranged w where
  unlinked (id : Nat) (module : Module) (known : w.modules[id]? = some module) :
    module.status = .unlinked

/-- The modules and the units of a world are there in another one, with the same code. -/
structure World.Retains (w w' : World) : Prop where
  size : w.modules.size ≤ w'.modules.size
  body (id : Nat) (known : id < w.modules.size) : (w'.module id).body = (w.module id).body
  units (id : Nat) (unit : CodeUnit) (known : w.units[id]? = some unit) : w'.units[id]? = some unit

theorem size_le_of_keeps {old new : Array α}
    (kept : ∀ (i : Nat) (x : α), old[i]? = some x → new[i]? = some x) : old.size ≤ new.size := by
  refine Nat.le_of_not_lt fun fewer => ?_
  have known := kept new.size _ (Array.getElem?_eq_getElem fewer)
  rw [Array.getElem?_eq_none (Nat.le_refl _)] at known
  contradiction

theorem keeps_push (old : Array α) (added : α) (i : Nat) (x : α) (known : old[i]? = some x) :
    (old.push added)[i]? = some x := by
  obtain ⟨here, rfl⟩ := Array.getElem?_eq_some_iff.mp known
  exact Array.getElem?_push_lt here

theorem keeps_modify {old : Array α} {n : Nat} (f : α → α) {i : Nat} {x : α} (apart : n ≠ i)
    (known : old[i]? = some x) : (old.modify n f)[i]? = some x := by
  rw [Array.getElem?_modify, if_neg apart, known]

namespace World

variable {base w w' w'' : World}

theorem Extends.refl (w : World) : w.Extends w :=
  ⟨fun _ _ => id, fun _ _ => id, fun _ _ => id, rfl, rfl, rfl, rfl, rfl⟩

theorem Extends.objects_le (h : w.Extends w') : w.objects.size ≤ w'.objects.size :=
  size_le_of_keeps h.objects

theorem Extends.scopes_le (h : w.Extends w') : w.scopes.size ≤ w'.scopes.size :=
  size_le_of_keeps h.scopes

theorem Retains.refl (w : World) : w.Retains w := ⟨Nat.le_refl _, fun _ _ => rfl, fun _ _ => id⟩

theorem Retains.trans (first : w.Retains w') (later : w'.Retains w'') : w.Retains w'' where
  size := Nat.le_trans first.size later.size
  body id known := (later.body id (Nat.lt_of_lt_of_le known first.size)).trans (first.body id known)
  units id unit known := later.units id unit (first.units id unit known)

instance : IsPreorder World Retains where
  refl := .refl
  trans _ _ _ first later := first.trans later

/-- A change outside of the modules. -/
theorem Retains.of_modules (modules : w'.modules = w.modules)
    (units : ∀ (id : Nat) (unit : CodeUnit), w.units[id]? = some unit → w'.units[id]? = some unit) :
    w.Retains w' :=
  ⟨Nat.le_of_eq (by rw [modules]), fun id _ => by rw [module, modules]; rfl, units⟩

/-- A world without modules is the beginning of a build. -/
theorem assembled_of_empty (empty : w.modules = #[]) : w.Assembled w := by
  have none (id : Nat) (module : Module) (known : w.modules[id]? = some module) : False := by
    rw [empty] at known
    contradiction
  exact
    { Extends.refl w with
      untouched := fun id module known => (none id module known).elim
      scope := fun id module known => (none id module known).elim
      apart := fun id _ module _ known => (none id module known).elim
      loaded := fun id module known => (none id module known).elim
      sound := fun id module known => (none id module known).elim
      unlinked := fun id module known => (none id module known).elim }

/-- What an assembled world comes to is assembled too, and has all the modules that were there. -/
def Adds (base w w' : World) : Prop := base.Assembled w → base.Assembled w' ∧ w.Retains w'

instance : IsPreorder World (Adds base) where
  refl w assembled := ⟨assembled, .refl w⟩
  trans _ _ _ first later assembled :=
    have ⟨middle, retains⟩ := first assembled
    have ⟨last, retains'⟩ := later middle
    ⟨last, retains.trans retains'⟩

/-- A change outside of the modules and their scopes. -/
theorem adds_of_extends (extends_ : base.Assembled w → base.Extends w') (modules : w'.modules = w.modules)
    (units : ∀ (id : Nat) (unit : CodeUnit), w.units[id]? = some unit → w'.units[id]? = some unit)
    (scopes : w.scopes.size ≤ w'.scopes.size) : base.Adds w w' := fun assembled =>
  ⟨{ extends_ assembled with
      untouched := modules ▸ assembled.untouched
      scope := fun id module known =>
        have ⟨new, old⟩ := assembled.scope id module (modules ▸ known)
        ⟨new, Nat.lt_of_lt_of_le old scopes⟩
      apart := modules ▸ assembled.apart
      loaded := modules ▸ assembled.loaded
      sound := modules ▸ assembled.sound
      unlinked := modules ▸ assembled.unlinked }, .of_modules modules units⟩

end World

open World

/-- What is known of an action that succeeds, and that it adds to every world that is assembled. -/
theorem Runs.adds {action : Action α} {w : World} {Q : α → World → Prop} (runs : Runs action w Q)
    (adds : ∀ base : World, base.Adds w (left action w)) :
    Runs action w fun value w' => Q value w' ∧ ∀ base : World, base.Adds w w' := by
  obtain ⟨value, w', done, holds⟩ := runs
  rw [left_of_ok done] at adds
  exact ⟨value, w', done, holds, adds⟩

variable {base : World}

theorem adds_allocate (object : Object) : Obeys base.Adds (allocate object) := fun _ =>
  adds_of_extends (fun assembled =>
    { assembled.toExtends with
      objects := fun id old known => keeps_push _ _ _ _ (assembled.objects id old known) })
    rfl (fun _ _ => id) (Nat.le_refl _)

/-- What is done with a new object may depend on its being new. -/
theorem adds_allocate_bind {object : Object} {rest : ObjectId → Action α}
    (later : ∀ id, base.objects.size ≤ id → Obeys base.Adds (rest id)) :
    Obeys base.Adds (allocate object >>= rest) := by
  intro w assembled
  have allocated : base.Adds w (left (allocate object) w) := adds_allocate object w
  exact IsTrans.trans (r := base.Adds) _ _ _ allocated
    (later w.objects.size assembled.objects_le _) assembled

theorem adds_modifyObject {id : ObjectId} (new : base.objects.size ≤ id) (f : Object → Object) :
    Obeys base.Adds (modify fun w => w.modifyObject id f) := fun _ =>
  adds_of_extends (fun assembled =>
    { assembled.toExtends with
      objects := fun other object known => by
        have old := (Array.getElem?_eq_some_iff.mp known).1
        have apart : id ≠ other := fun same => absurd (same ▸ new) (Nat.not_le_of_lt old)
        exact keeps_modify f apart (assembled.objects other object known) })
    rfl (fun _ _ known => known) (Nat.le_refl _)

theorem adds_newScope (scope : Scope) : Obeys base.Adds (newScope scope) := fun _ =>
  adds_of_extends (fun assembled =>
    { assembled.toExtends with
      scopes := fun id old known => keeps_push _ _ _ _ (assembled.scopes id old known) })
    rfl (fun _ _ => id) (Nat.le_of_lt (Nat.lt_of_lt_of_eq (Nat.lt_succ_self _) (Array.size_push scope).symm))

theorem adds_putBinding {scope : ScopeId} (new : base.scopes.size ≤ scope) (name : String)
    (binding : Binding) : Obeys base.Adds (putBinding scope name binding) := fun _ =>
  adds_of_extends (fun assembled =>
    { assembled.toExtends with
      scopes := fun other found known => by
        have old := (Array.getElem?_eq_some_iff.mp known).1
        have apart : scope ≠ other := fun same => absurd (same ▸ new) (Nat.not_le_of_lt old)
        exact keeps_modify _ apart (assembled.scopes other found known) })
    rfl (fun _ _ => id) (Nat.le_of_eq Array.size_modify.symm)

theorem adds_bind {scope : ScopeId} (new : base.scopes.size ≤ scope) (name : String)
    (binding : Binding) : Obeys base.Adds (bind scope name binding) := by
  refine .bind .get fun w => ?_
  dsimp only
  split
  · exact adds_putBinding new name binding
  · exact .pure _

theorem adds_newError (kind : ErrorKind) (message : String) : Obeys base.Adds (newError kind message) :=
  .bind (adds_allocate _) fun _ => .pure _

theorem adds_newFailure (kind : ErrorKind) (message : String) :
    Obeys base.Adds (newFailure kind message) := .bind (adds_allocate _) fun _ => .pure _

theorem adds_failWith (kind : ErrorKind) (message : String) :
    Obeys base.Adds (failWith kind message : Action α) :=
  .bind (adds_newFailure _ _) fun _ => .bind .get fun _ => .throw _

theorem adds_newPromise : Obeys base.Adds newPromise := adds_allocate _

theorem adds_enqueue (job : Job) : Obeys base.Adds (enqueue job) := fun _ =>
  adds_of_extends (fun assembled => { assembled.toExtends with }) rfl (fun _ _ => id)
    (Nat.le_refl _)

theorem adds_settle {id : ObjectId} (new : base.objects.size ≤ id) (outcome : Except Value Value) :
    Obeys base.Adds (settle id outcome) := by
  refine .bind .get fun w => ?_
  split
  · exact .bind (adds_modifyObject new _) fun _ => .forM _ fun _ => adds_enqueue _
  · exact .pure _

theorem adds_newClosure (unit : Nat) (code : FunctionCode) (scope : ScopeId) (this : Value) :
    Obeys base.Adds (newClosure unit code scope this) := by
  refine adds_allocate_bind fun id new => ?_
  dsimp only
  split
  · exact adds_allocate_bind fun proto new' => .bind (adds_modifyObject new' _) fun _ =>
      .bind (adds_modifyObject new _) fun _ => .pure _
  · split
    · exact .bind (adds_allocate _) fun _ => .bind (adds_modifyObject new _) fun _ => .pure _
    · exact .pure _

theorem adds_addUnit (unit : CodeUnit) : Obeys base.Adds (addUnit unit) := fun _ =>
  adds_of_extends (fun assembled =>
    { assembled.toExtends with
      units := fun id old known => keeps_push _ _ _ _ (assembled.units id old known) })
    rfl (keeps_push _ _) (Nat.le_refl _)

/-- A module changes only in what loading and linking note of it. -/
theorem World.Arranged.modifyModule {w : World} (arranged : base.Arranged w) (id : Nat)
    {f : Module → Module}
    (notes : ∀ m, ∃ loaded space status, f m = { m with loaded, space, status })
    (loaded : ∀ m : Module, (∀ entry ∈ m.loaded, entry.2 < w.modules.size) →
      ∀ entry ∈ (f m).loaded, entry.2 < w.modules.size) :
    base.Arranged (left (Script.modifyModule id f) w) := by
  have size : (left (Script.modifyModule id f) w).modules.size = w.modules.size := Array.size_modify
  have found {other : Nat} {module : Module} (known : (w.modules.modify id f)[other]? = some module) :
      ∃ old, w.modules[other]? = some old ∧ (module = f old ∨ module = old) := by
    rw [Array.getElem?_modify] at known
    split at known
    · obtain ⟨old, here, rfl⟩ := Option.map_eq_some_iff.mp known
      exact ⟨old, here, .inl rfl⟩
    · exact ⟨module, known, .inr rfl⟩
  have kept {other : Nat} {module : Module} (known : (w.modules.modify id f)[other]? = some module) :
      ∃ old loaded space status, w.modules[other]? = some old ∧
        module = { old with loaded, space, status } := by
    obtain ⟨old, here, same | same⟩ := found known
    · obtain ⟨loaded, space, status, changed⟩ := notes old
      exact ⟨old, loaded, space, status, here, same.trans changed⟩
    · exact ⟨old, old.loaded, old.space, old.status, here, same⟩
  refine { arranged.toExtends with
    untouched := fun other module known => ?_, scope := fun other module known => ?_
    apart := fun other other' module module' known known' same => ?_
    loaded := fun other module known => ?_, sound := fun other module known => ?_ }
  · obtain ⟨old, _, _, _, here, rfl⟩ := kept known
    exact { arranged.untouched other old here with }
  · obtain ⟨old, _, _, _, here, rfl⟩ := kept known
    exact arranged.scope other old here
  · obtain ⟨old, _, _, _, here, rfl⟩ := kept known
    obtain ⟨old', _, _, _, here', rfl⟩ := kept known'
    exact arranged.apart other other' old old' here here' same
  · obtain ⟨old, here, same⟩ := found known
    rw [size]
    rcases same with rfl | rfl
    · exact loaded old (arranged.loaded other old here)
    · exact arranged.loaded other module here
  · obtain ⟨old, _, _, _, here, rfl⟩ := kept known
    exact { arranged.sound other old here with }

theorem World.Retains.modifyModule (w : World) (id : Nat) {f : Module → Module}
    (kept : ∀ m, (f m).body = m.body) : w.Retains (left (Script.modifyModule id f) w) where
  size := Nat.le_of_eq Array.size_modify.symm
  body other _ := by
    change ((w.modules.modify id f).getD other default).body = _
    rw [World.module, Array.getD_eq_getD_getElem?, Array.getD_eq_getD_getElem?, Array.getElem?_modify]
    split
    · cases w.modules[other]? with
      | none => rfl
      | some m => exact kept m
    · rfl
  units _ _ known := known

/-- A module changes, and stays unlinked. -/
theorem adds_modifyModule_at {w : World} (id : Nat) {f : Module → Module}
    (notes : ∀ m, ∃ loaded space, f m = { m with loaded, space })
    (loaded : ∀ m : Module, (∀ entry ∈ m.loaded, entry.2 < w.modules.size) →
      ∀ entry ∈ (f m).loaded, entry.2 < w.modules.size) :
    base.Adds w (left (modifyModule id f) w) := by
  intro assembled
  refine ⟨{ assembled.toArranged.modifyModule id (fun m => ?_) loaded with
    unlinked := fun other module known => ?_ }, .modifyModule w id fun m => ?_⟩
  · obtain ⟨loaded, space, same⟩ := notes m
    exact ⟨loaded, space, m.status, same⟩
  · change (w.modules.modify id f)[other]? = some module at known
    rw [Array.getElem?_modify] at known
    split at known
    · obtain ⟨old, here, rfl⟩ := Option.map_eq_some_iff.mp known
      obtain ⟨loaded, space, same⟩ := notes old
      rw [same]
      exact assembled.unlinked other old here
    · exact assembled.unlinked other module known
  · obtain ⟨_, _, same⟩ := notes m
    rw [same]

/-- A new module with a scope that no other module has. -/
theorem adds_pushModule {w : World} {module : Module} (untouched : module.IsUntouched)
    (sound : module.IsSound) (unlinked : module.status = .unlinked)
    (new : base.scopes.size ≤ module.scope) (old : module.scope < w.scopes.size)
    (own : ∀ (id : Nat) (m : Module), w.modules[id]? = some m → m.scope ≠ module.scope)
    (loaded : module.loaded = []) : base.Adds w { w with modules := w.modules.push module } := by
  intro assembled
  have found {id : Nat} {m : Module} (known : (w.modules.push module)[id]? = some m) :
      w.modules[id]? = some m ∨ id = w.modules.size ∧ m = module := by
    rw [Array.getElem?_push] at known
    split at known
    next last => exact .inr ⟨last, (Option.some.inj known).symm⟩
    next => exact .inl known
  have size : w.modules.size < (w.modules.push module).size :=
    Nat.lt_of_lt_of_eq (Nat.lt_succ_self _) (Array.size_push module).symm
  refine ⟨{ assembled.toExtends with
    untouched := fun id m known => ?_, scope := fun id m known => ?_
    apart := fun id id' m m' known known' same => ?_
    loaded := fun id m known entry member => ?_, sound := fun id m known => ?_
    unlinked := fun id m known => ?_ }, Nat.le_of_lt size, fun id here => ?_, fun _ _ known => known⟩
  · rcases found known with known | ⟨_, rfl⟩
    · exact assembled.untouched id m known
    · exact untouched
  · rcases found known with known | ⟨_, rfl⟩
    · exact assembled.scope id m known
    · exact ⟨new, old⟩
  · rcases found known with here | ⟨last, rfl⟩
    · rcases found known' with here' | ⟨_, rfl⟩
      · exact assembled.apart id id' m m' here here' same
      · exact absurd same (own id m here)
    · rcases found known' with here' | ⟨last', _⟩
      · exact absurd same.symm (own id' m' here')
      · exact last.trans last'.symm
  · rcases found known with known | ⟨_, rfl⟩
    · exact Nat.lt_trans (assembled.loaded id m known entry member) size
    · rw [loaded] at member
      contradiction
  · rcases found known with known | ⟨_, rfl⟩
    · exact assembled.sound id m known
    · exact sound
  · rcases found known with known | ⟨_, rfl⟩
    · exact assembled.unlinked id m known
    · exact unlinked
  · rw [World.module, World.module, Array.getD_eq_getD_getElem?, Array.getD_eq_getD_getElem?,
      Array.getElem?_push_lt here, Array.getElem?_eq_getElem here]

/-- A module of code may be added if no two imports have one name, and every other module. -/
theorem adds_addModule {body : ModuleBody} {tree : Option ModuleTree}
    (sound : ∀ t, tree = some t → (∃ unit, body = .code unit) ∧
      (t.imports.map ImportEntry.localName).Nodup) : Obeys base.Adds (addModule body tree) := by
  intro w assembled
  let scope : Scope := { parent := some globalScope, isFunction := true }
  let w' : World := { w with scopes := w.scopes.push scope }
  have opened : base.Adds w w' := adds_newScope scope w
  have own (id : Nat) (m : Module) (known : w.modules[id]? = some m) : m.scope ≠ w.scopes.size :=
    Nat.ne_of_lt (assembled.scope id m known).2
  have old : w.scopes.size < w'.scopes.size :=
    Nat.lt_of_lt_of_eq (Nat.lt_succ_self _) (Array.size_push scope).symm
  have new : base.scopes.size ≤ w.scopes.size := assembled.scopes_le
  cases tree with
  | some tree =>
    let module : Module :=
      { body, scope := w.scopes.size, requests := tree.requests, imports := tree.imports
        exports := tree.exports, awaits := tree.awaits }
    obtain ⟨⟨unit, code⟩, names⟩ := sound tree rfl
    have pushed : base.Adds w' { w' with modules := w'.modules.push module } :=
      adds_pushModule ⟨rfl, rfl, rfl, rfl, rfl, rfl⟩
        ⟨names, fun plain => absurd code (plain unit), fun plain => absurd code (plain unit),
          fun plain => absurd code (plain unit)⟩ rfl new old own rfl
    exact IsTrans.trans (r := base.Adds) _ _ _ opened pushed assembled
  | none =>
    let module : Module :=
      { body, scope := w.scopes.size, exports := [.own defaultExport defaultBinding] }
    have pushed : base.Adds w' { w' with modules := w'.modules.push module } :=
      adds_pushModule ⟨rfl, rfl, rfl, rfl, rfl, rfl⟩
        ⟨List.nodup_nil, fun _ => rfl, fun _ => rfl, fun _ => rfl⟩ rfl new old own rfl
    have bound : Obeys base.Adds (putBinding w.scopes.size defaultBinding (.held none .fixed)) :=
      adds_putBinding new _ _
    exact IsTrans.trans (r := base.Adds) _ _ _ opened
      (IsTrans.trans (r := base.Adds) _ _ _ pushed (bound _)) assembled

end Isolate.Script
