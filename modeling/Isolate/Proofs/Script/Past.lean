import Isolate.Proofs.Script.Executions
import Isolate.Proofs.Worker.Law
import Mathlib.Logic.Basic
import Mathlib.Tactic.ByContra

/-!
# What is over

A module that was evaluated is not run again, whatever a worker does afterwards: neither by linking and
evaluating what dynamic imports load, nor by going on with what has waited. What lasts in the scope of
such a module stays there, and a promise that was rejected stays so.
-/

namespace Isolate.Script

variable {α β : Type}

/-- What is over in a world: modules that were evaluated, scopes of such modules, and a promise. -/
structure Past where
  modules : Set Nat
  scopes : Set ScopeId
  promise : ObjectId

namespace Past

variable {past : Past} {w w' w'' : World} {id : Nat}

/-- The modules were evaluated and do not wait, and no other module has one of the scopes. -/
structure Holds (past : Past) (w : World) : Prop where
  evaluated (id : Nat) (member : id ∈ past.modules) : (w.module id).status = .evaluated
  waits (id : Nat) (member : id ∈ past.modules) : (w.module id).waitOrder = none
  own (id : Nat) (known : id < w.modules.size) (own : (w.module id).scope ∈ past.scopes) :
    id ∈ past.modules
  scopes (scope : ScopeId) (member : scope ∈ past.scopes) : scope < w.scopes.size
  promise : past.promise < w.objects.size

/-- Another world came later. In between none of the modules was run, what lasts in one of the scopes has
stayed, and so has the promise if it was rejected. -/
structure Since (past : Past) (w w' : World) : Prop where
  holds : past.Holds w'
  executed : ∃ others, w'.executed = others ++ w.executed ∧ ∀ id ∈ others, id ∉ past.modules
  lasting (scope : ScopeId) (member : scope ∈ past.scopes) (name : String) (binding : Binding)
    (found : (w.scope scope).bindings.lookup name = some binding) (lasts : binding.isLasting) :
    (w'.scope scope).bindings.lookup name = some binding
  rejected (reason : Value) (rejected : w.promiseState? past.promise = some (.rejected reason)) :
    w'.promiseState? past.promise = some (.rejected reason)

/-- What is over in a world is over in a later one. -/
def Keeps (past : Past) (w w' : World) : Prop := past.Holds w → past.Since w w'

instance : IsPreorder World past.Keeps where
  refl _ holds :=
    ⟨holds, ⟨[], rfl, fun _ member => nomatch member⟩, fun _ _ _ _ found _ => found, fun _ before => before⟩
  trans _ _ _ first later holds := by
    have since := first holds
    have since' := later since.holds
    obtain ⟨others, noted, new⟩ := since.executed
    obtain ⟨others', noted', new'⟩ := since'.executed
    refine ⟨since'.holds, ⟨others' ++ others, by rw [noted', noted, List.append_assoc], ?_⟩,
      fun scope member name binding found lasts => ?_, fun reason before => ?_⟩
    · exact fun id member => (List.mem_append.mp member).elim (new' id) (new id)
    · exact since'.lasting scope member name binding
        (since.lasting scope member name binding found lasts) lasts
    · exact since'.rejected reason (since.rejected reason before)

theorem rejected_of_keeps (objects : w.KeepsObjects w'.objects) {promise : ObjectId} {reason : Value}
    (rejected : w.promiseState? promise = some (.rejected reason)) :
    w'.promiseState? promise = some (.rejected reason) := by
  have here : (w.object promise).nature = .promise (.rejected reason) := by
    rw [World.promiseState?] at rejected
    split at rejected
    next state nature => rw [nature, Option.some.inj rejected]
    next => contradiction
  have same : (w'.object promise).nature = (w.object promise).nature :=
    objects.settled promise (by rw [here]; rfl)
  rw [World.promiseState?, same, here]

/-- Code has run that is not a module's own. -/
theorem keeps_of_modules (modules : w'.modules = w.modules) (executed : w'.executed = w.executed)
    (objects : w.KeepsObjects w'.objects) (scopes : w.KeepsScopes w'.scopes) : past.Keeps w w' := by
  intro holds
  have same (id : Nat) : w'.module id = w.module id := by rw [World.module, World.module, modules]
  exact
    { holds :=
        { evaluated := fun id member => by rw [same]; exact holds.evaluated id member
          waits := fun id member => by rw [same]; exact holds.waits id member
          own := fun id known => by rw [same]; exact holds.own id (modules ▸ known)
          scopes := fun scope member => Nat.lt_of_lt_of_le (holds.scopes scope member) scopes.size
          promise := Nat.lt_of_lt_of_le holds.promise objects.size }
      executed := ⟨[], executed, fun _ member => nomatch member⟩
      lasting := fun scope _ name binding => scopes.lasting scope name binding
      rejected := fun _ => rejected_of_keeps objects }

instance : World.IsCodeLaw past.Keeps where
  objects w _ kept := keeps_of_modules rfl rfl kept (.refl w)
  scopes w _ kept := keeps_of_modules rfl rfl (.refl w) kept
  place w _ _ _ := keeps_of_modules rfl rfl (.refl w) (.refl w)
  jobs w _ := keeps_of_modules rfl rfl (.refl w) (.refl w)
  request w _ _ _ := keeps_of_modules rfl rfl (.refl w) (.refl w)
  record w _ := keeps_of_modules rfl rfl (.refl w) (.refl w)
  compile w _ _ := keeps_of_modules rfl rfl (.refl w) (.refl w)
  refuse w error _ := keeps_of_modules rfl rfl (.push w error) (.refl w)

/-- A change of one module may not undo what is over. -/
theorem keeps_modifyModule (id : Nat) {f : Module → Module} (scope : ∀ m, (f m).scope = m.scope)
    (status : id ∈ past.modules → ∀ m, m.status = .evaluated → m.waitOrder = none →
      (f m).status = .evaluated ∧ (f m).waitOrder = none) :
    Obeys past.Keeps (modifyModule id f) := by
  intro w holds
  have found (other : Nat) (member : other ∈ past.modules) :
      ((left (modifyModule id f) w).module other).status = .evaluated ∧
        ((left (modifyModule id f) w).module other).waitOrder = none := by
    have ended := holds.evaluated other member
    have idle := holds.waits other member
    rw [module_modifyModule]
    split
    next same => exact status (same.1 ▸ member) _ ended idle
    next => exact ⟨ended, idle⟩
  have scopes (other : Nat) :
      ((left (modifyModule id f) w).module other).scope = (w.module other).scope := by
    rw [module_modifyModule]
    split
    · exact scope _
    · rfl
  exact
    { holds :=
        { evaluated := fun other member => (found other member).1
          waits := fun other member => (found other member).2
          own := fun other known => by
            rw [scopes]
            exact holds.own other (Nat.lt_of_lt_of_eq known (size_modifyModule id f w))
          scopes := holds.scopes
          promise := holds.promise }
      executed := ⟨[], rfl, fun _ member => nomatch member⟩
      lasting := fun _ _ _ _ found _ => found
      rejected := fun _ => fun before => before }

/-- Another promise is settled, or any other object changes. -/
theorem keeps_modifyObject {id : ObjectId} (apart : id ≠ past.promise) (f : Object → Object) :
    Obeys past.Keeps (modify fun w => w.modifyObject id f) := by
  intro w holds
  exact
    { holds :=
        { holds with promise := Nat.lt_of_lt_of_eq holds.promise Array.size_modify.symm }
      executed := ⟨[], rfl, fun _ member => nomatch member⟩
      lasting := fun _ _ _ _ found _ => found
      rejected := fun reason before => by
        change (w.modifyObject id f).promiseState? _ = _
        rw [World.promiseState?_eq, World.object_modifyObject, if_neg fun same => apart same.1,
          ← World.promiseState?_eq, before] }

/-- A new object is not the promise. -/
theorem keeps_allocate_bind {object : Object} {rest : ObjectId → Action α}
    (later : ∀ id, id ≠ past.promise → Obeys past.Keeps (rest id)) :
    Obeys past.Keeps (allocate object >>= rest) := by
  intro w holds
  have allocated : past.Keeps w (left (allocate object) w) := obeys_allocate object w
  exact IsTrans.trans (r := past.Keeps) _ _ _ allocated
    (later w.objects.size (Nat.ne_of_gt holds.promise) _) holds

/-- A name is bound in another scope. -/
theorem keeps_putBinding {scope : ScopeId} (apart : scope ∉ past.scopes) (name : String)
    (binding : Binding) : Obeys past.Keeps (putBinding scope name binding) := by
  intro w holds
  exact
    { holds :=
        { holds with
          scopes := fun other member => Nat.lt_of_lt_of_eq (holds.scopes other member) Array.size_modify.symm }
      executed := ⟨[], rfl, fun _ member => nomatch member⟩
      lasting := fun other member name' old found _ => by
        change ((w.modifyScope scope _).scope other).bindings.lookup name' = _
        have other' : scope ≠ other := fun same => apart (same ▸ member)
        rw [World.scope_modifyScope, if_neg fun both => other' both.1]
        exact found
      rejected := fun _ => fun before => before }

/-- What is done with a module that was not evaluated. -/
theorem keeps_unless (new : (w.module id).status ≠ .evaluated)
    (keeps : id ∉ past.modules → past.Keeps w w') : past.Keeps w w' :=
  fun holds => keeps (fun member => new (holds.evaluated id member)) holds

/-- A module that is run. Only modules without code of their own bind something in their scopes. -/
theorem keeps_of_executes (executes : w.Executes id w') (new : id ∉ past.modules) : past.Keeps w w' := by
  intro holds
  have same (other : Nat) : w'.module other = w.module other := by
    rw [World.module, World.module, executes.modules]
  have apart (scope : ScopeId) (member : scope ∈ past.scopes) (own : scope = (w.module id).scope) :
      ¬(w.module id).IsPlain := by
    by_cases known : id < w.modules.size
    · exact absurd (holds.own id known (own ▸ member)) new
    · rw [World.module_of_le (Nat.le_of_not_lt known)]
      exact fun plain => plain _ rfl
  exact
    { holds :=
        { evaluated := fun other member => by rw [same]; exact holds.evaluated other member
          waits := fun other member => by rw [same]; exact holds.waits other member
          own := fun other known => by rw [same]; exact holds.own other (executes.modules ▸ known)
          scopes := fun scope member => Nat.lt_of_lt_of_le (holds.scopes scope member) executes.scopes
          promise := Nat.lt_of_lt_of_le holds.promise executes.objects.size }
      executed := ⟨[id], executes.executed, fun other member => List.mem_singleton.mp member ▸ new⟩
      lasting := fun scope member name binding => executes.lasting scope name binding (apart scope member)
      rejected := fun _ => rejected_of_keeps executes.objects }

theorem keeps_addModule (body : ModuleBody) (tree : Option ModuleTree) :
    Obeys past.Keeps (addModule body tree) := by
  intro w holds
  let scope : Scope := { parent := some globalScope, isFunction := true }
  have new : w.scopes.size ∉ past.scopes := fun member => Nat.lt_irrefl _ (holds.scopes _ member)
  have opened : past.Keeps w { w with scopes := w.scopes.push scope } := obeys_newScope scope w
  have pushed {w : World} {module : Module} (apart : module.scope ∉ past.scopes) :
      past.Keeps w { w with modules := w.modules.push module } := by
    intro holds
    have old {id : Nat} (known : id < w.modules.size) :
        World.module { w with modules := w.modules.push module } id = w.module id := by
      rw [World.module, World.module, Array.getD_eq_getD_getElem?, Array.getD_eq_getD_getElem?,
        Array.getElem?_push_lt known, Array.getElem?_eq_getElem known]
    have known (id : Nat) (member : id ∈ past.modules) : id < w.modules.size :=
      World.lt_of_status (by rw [holds.evaluated id member]; decide)
    refine ⟨{ holds with
      evaluated := fun id member => by rw [old (known id member)]; exact holds.evaluated id member
      waits := fun id member => by rw [old (known id member)]; exact holds.waits id member
      own := fun id here own => ?_ }, ⟨[], rfl, fun _ member => absurd member List.not_mem_nil⟩,
      fun _ _ _ _ found _ => found, fun _ before => before⟩
    by_cases before : id < w.modules.size
    · rw [old before] at own
      exact holds.own id before own
    · have last : id = w.modules.size := by
        have size : id < w.modules.size + 1 := Nat.lt_of_lt_of_eq here (Array.size_push module)
        omega
      subst last
      rw [World.module, Array.getD_eq_getD_getElem?, Array.getElem?_push_size] at own
      exact absurd own apart
  cases tree with
  | some tree => exact IsTrans.trans (r := past.Keeps) _ _ _ opened (pushed new) holds
  | none =>
    have bound : Obeys past.Keeps (putBinding w.scopes.size defaultBinding (.held none .fixed)) :=
      keeps_putBinding new _ _
    exact IsTrans.trans (r := past.Keeps) _ _ _ opened
      (IsTrans.trans (r := past.Keeps) _ _ _ (pushed new) (bound _)) holds

theorem keeps_moduleSpace (fuel id : Nat) : Obeys past.Keeps (moduleSpace fuel id) := by
  induction fuel generalizing id with
  | zero => exact .throw _
  | succ fuel ih =>
    refine .bind .get fun w => ?_
    split
    · exact .pure _
    · refine keeps_allocate_bind fun space apart =>
        .bind (keeps_modifyModule _ (fun _ => rfl) fun _ _ => .intro) fun _ => ?_
      refine .bind (.filterMapM _ fun name => ?_) fun exports =>
        .bind (keeps_modifyObject apart _) fun _ => .pure _
      split
      · exact .pure _
      · exact .bind (ih _) fun _ => .bind (obeys_newScope _) fun _ => .pure _
      · exact .pure _

theorem keeps_spaceOf (id : Nat) : Obeys past.Keeps (spaceOf id) :=
  .bind .get fun _ => keeps_moduleSpace _ _

/-- Binding the names of a module that was not evaluated. -/
theorem keeps_bindModule (new : id ∉ past.modules) : Obeys past.Keeps (bindModule id) := by
  intro w holds
  refine bindModule_obeys keeps_spaceOf (fun entry member binding => ?_) holds
  -- A module that is not there imports nothing, and every other one has a scope of its own.
  have known : id < w.modules.size := by
    by_contra far
    rw [World.module_of_le (Nat.le_of_not_lt far)] at member
    contradiction
  exact keeps_putBinding (fun own => new (holds.own id known own)) _ _

/-- Linking comes only to modules that are not linked. -/
theorem unlinked_of_linkOrder (fuel : Nat) (order seen : List Nat) (id : Nat) :
    ∀ x ∈ (w.linkOrder fuel order seen id).1, x ∈ order ∨ (w.module x).status = .unlinked := by
  induction fuel generalizing order seen id with
  | zero => exact fun x member => .inl member
  | succ fuel ih =>
    have each (todo : List Nat) (order seen : List Nat) :
        ∀ x ∈ (todo.foldl (fun found other => w.linkOrder fuel found.1 found.2 other) (order, seen)).1,
          x ∈ order ∨ (w.module x).status = .unlinked := by
      induction todo generalizing order seen with
      | nil => exact fun x member => .inl member
      | cons first todo ih' =>
        intro x member
        exact (ih' _ _ x member).elim (ih order seen first x) .inr
    intro x member
    rw [World.linkOrder] at member
    split at member
    · exact .inl member
    next new =>
      rw [Bool.or_eq_true, not_or, decide_eq_true_eq, not_not] at new
      rcases List.mem_append.mp member with before | last
      · exact each _ _ _ x before
      · exact .inr (List.mem_singleton.mp last ▸ new.2)

theorem keeps_linkModule (id : Nat) : Obeys past.Keeps (linkModule id) := by
  intro w holds
  have new : ∀ x ∈ (w.linkOrder (w.modules.size + 1) [] [] id).1, x ∉ past.modules := by
    intro x member ended
    have unlinked := (unlinked_of_linkOrder _ _ _ _ x member).resolve_left nofun
    exact nomatch unlinked.symm.trans (holds.evaluated x ended)
  have forall_ (order : List Nat) (new : ∀ x ∈ order, x ∉ past.modules) {action : Nat → Action PUnit}
      (keeps : ∀ x, x ∉ past.modules → Obeys past.Keeps (action x)) :
      Obeys past.Keeps (order.forM action) := by
    induction order with
    | nil => exact .pure _
    | cons first order ih =>
      exact .bind (keeps first (new first List.mem_cons_self)) fun _ =>
        ih fun x later => new x (List.mem_cons_of_mem first later)
  refine Obeys.get_bind_at (R := past.Keeps) ?_ holds
  exact .bind (forall_ _ new fun _ => keeps_bindModule) fun _ =>
    forall_ _ new fun _ new => keeps_modifyModule _ (fun _ => rfl) (absurd · new)

theorem keeps_runModule (new : id ∉ past.modules) : Obeys past.Keeps (runModule id) :=
  fun w => keeps_of_executes (executes_runModule id w) new

theorem keeps_runWaiting (new : id ∉ past.modules) : Obeys past.Keeps (runWaiting id) :=
  fun w => keeps_of_executes (executes_runWaiting id w) new

theorem keeps_noteFailure (reason : Value) (id : Nat) : Obeys past.Keeps (noteFailure reason id) :=
  keeps_modifyModule id (fun _ => rfl) fun _ _ _ waits => ⟨rfl, waits⟩

theorem keeps_beginWait (new : id ∉ past.modules) : Obeys past.Keeps (beginWait id) := by
  intro w holds
  have marks : Obeys past.Keeps (modifyModule id fun m => { m with waitOrder := some w.waits }) :=
    keeps_modifyModule id (fun _ => rfl) fun member => absurd member new
  have since := marks w holds
  exact { since with holds := { since.holds with } }

/-- What is noted of a module besides how far its evaluation has come. -/
theorem keeps_note (id : Nat) {f : Module → Module} (scope : ∀ m, (f m).scope = m.scope)
    (status : ∀ m, (f m).status = m.status) (waits : ∀ m, (f m).waitOrder = m.waitOrder) :
    Obeys past.Keeps (modifyModule id f) :=
  keeps_modifyModule id scope fun _ m ended idle => ⟨(status m).trans ended, (waits m).trans idle⟩

theorem keeps_joinRequested (id other : Nat) : Obeys past.Keeps (joinRequested id other) := by
  refine .bind .get fun w => ?_
  extract_lets found awaited target join check
  have joins (go : PUnit) : Obeys past.Keeps (join go) := by
    change Obeys past.Keeps (if target.isWaiting then _ else _)
    split
    · exact .bind (keeps_note _ (fun _ => rfl) (fun _ => rfl) fun _ => rfl) fun _ =>
        keeps_note _ (fun _ => rfl) (fun _ => rfl) fun _ => rfl
    · exact .pure _
  clear_value join
  have checks (go : PUnit) : Obeys past.Keeps (check go) := by
    change Obeys past.Keeps (if found.status ≠ .evaluating then _ else _)
    split
    · split
      · exact .bind (.throw _) joins
      · exact .bind (.pure _) joins
    · exact joins ⟨⟩
  clear_value check
  split
  · split
    · exact .bind (keeps_note _ (fun _ => rfl) (fun _ => rfl) fun _ => rfl) checks
    · exact checks ⟨⟩
  · exact .pure _

theorem keeps_endCycle (id : Nat) (begun : List Nat × Nat) : Obeys past.Keeps (endCycle id begun) := by
  refine .bind .get fun w => ?_
  dsimp only
  split
  · refine .bind (.forM _ fun other => keeps_modifyModule other (fun _ => rfl) fun _ m _ idle => ?_)
      fun _ => .pure _
    exact ⟨by rw [idle]; rfl, idle⟩
  · exact .pure _

theorem keeps_runRequesting (new : id ∉ past.modules) : Obeys past.Keeps (runRequesting id) := by
  refine .bind .get fun w => ?_
  dsimp only
  split
  · refine .bind (keeps_beginWait new) fun _ => ?_
    split
    · exact keeps_runWaiting new
    · exact .pure _
  · exact keeps_runModule new

theorem keeps_runPlain (new : id ∉ past.modules) : Obeys past.Keeps (runPlain id) := by
  refine .bind (keeps_modifyModule id (fun _ => rfl) fun _ _ _ idle => ⟨rfl, idle⟩) fun _ =>
    .bind (obeys_attempt (keeps_runModule new)) fun outcome => ?_
  split
  · exact .pure _
  · exact .bind (keeps_note _ (fun _ => rfl) (fun _ => rfl) fun _ => rfl) fun _ => .throw _

theorem keeps_recallFailure (id : Nat) : Obeys past.Keeps (recallFailure id) := by
  refine .bind .get fun w => ?_
  split
  · exact .throw _
  · exact .pure _

/-- The code of a module is run only if the module was not evaluated before. -/
theorem keeps_evaluateInner (fuel id : Nat) (begun : List Nat × Nat) :
    Obeys past.Keeps (evaluateInner fuel id begun) := by
  induction fuel generalizing id begun with
  | zero => exact .throw _
  | succ fuel ih =>
    refine .get_bind fun w => ?_
    dsimp only
    split
    next unit _ linked =>
      refine keeps_unless (fun ended => nomatch linked.symm.trans ended) fun new => ?_
      have enters : Obeys past.Keeps (modifyModule id fun m =>
          { m with status := .evaluating, depthIndex := begun.2, lowestIndex := begun.2 }) :=
        keeps_modifyModule id (fun _ => rfl) fun member => absurd member new
      refine Obeys.bind_at (enters w) fun _ => .bind (.foldlM _ _ fun begun specifier => ?_)
        fun begun => .bind (keeps_runRequesting new) fun _ => keeps_endCycle id begun
      refine .bind .get fun w => ?_
      split
      · exact .pure _
      · exact .bind (ih _ _) fun begun => .bind (keeps_joinRequested _ _) fun _ => .pure begun
    · exact Obeys.bind_at (keeps_recallFailure id w) fun _ => .pure _
    · exact Obeys.bind_at (keeps_recallFailure id w) fun _ => .pure _
    next _ _ unended _ =>
      exact keeps_unless unended fun new => Obeys.bind_at (keeps_runPlain new w) fun _ => .pure _

theorem keeps_evaluateModule (id : Nat) : Obeys past.Keeps (evaluateModule id) := by
  refine .bind .get fun w => ?_
  extract_lets module root
  split
  · exact .pure _
  · refine keeps_allocate_bind fun promise apart =>
      .bind (keeps_note _ (fun _ => rfl) (fun _ => rfl) fun _ => rfl) fun _ =>
        .bind (obeys_attempt (keeps_evaluateInner _ _ _)) fun outcome => ?_
    have settles (outcome : Except Value Value) : Obeys past.Keeps (settleNew promise outcome) :=
      keeps_modifyObject apart _
    dsimp only
    split
    · refine .bind .get fun w => ?_
      split
      · exact .bind (settles _) fun _ => .pure _
      · exact .pure _
    · refine .bind (.forIn _ _ fun other _ => .bind .get fun w => ?_) fun _ =>
        .bind (keeps_noteFailure _ _) fun _ => .bind (settles _) fun _ => .pure _
      split
      · exact .bind (keeps_noteFailure _ _) fun _ => .pure _
      · exact .pure _

theorem keeps_rejectWaiting (fuel : Nat) (reason : Value) (id : Nat) :
    Obeys past.Keeps (rejectWaiting fuel reason id) := by
  induction fuel generalizing id with
  | zero => exact .pure _
  | succ fuel ih =>
    refine .bind .get fun w => ?_
    dsimp only
    split
    · exact .pure _
    · refine .bind (keeps_noteFailure _ _) fun _ => .bind (.forM _ fun _ => ih _) fun _ => ?_
      split
      · exact obeys_settle _ _
      · exact .pure _

theorem keeps_releaseWaiters (fuel : Nat) (released : List Nat) (id : Nat) :
    Obeys past.Keeps (releaseWaiters fuel released id) := by
  induction fuel generalizing released id with
  | zero => exact .pure _
  | succ fuel ih =>
    refine .bind .get fun w => .bind (.forIn _ _ fun other released => ?_) fun _ => .pure _
    refine .bind .get fun w => ?_
    have notes : Obeys past.Keeps (modifyModule other fun m => { m with pending := m.pending - 1 }) :=
      keeps_note _ (fun _ => rfl) (fun _ => rfl) fun _ => rfl
    grind

theorem keeps_endWaiting (id : Nat) : Obeys past.Keeps (endWaiting id) := by
  refine .bind (keeps_modifyModule id (fun _ => rfl) fun _ _ _ idle => ⟨rfl, idle⟩) fun _ =>
    .bind .get fun w => ?_
  split
  · exact obeys_settle _ _
  · exact .pure _

theorem keeps_continueModule (id : Nat) (outcome : Except Value Value) :
    Obeys past.Keeps (continueModule id outcome) := by
  refine .bind .get fun w => ?_
  dsimp only
  split
  · exact keeps_rejectWaiting _ _ _
  · split
    · exact .pure _
    · refine .bind (keeps_endWaiting _) fun _ => .bind (keeps_releaseWaiters _ _ _) fun released => ?_
      refine .bind (.forIn _ _ fun other _ => .get_bind fun w => ?_) fun _ => .pure _
      split
      · exact Std.Refl.refl (r := past.Keeps) w
      next new =>
        refine keeps_unless new fun new => ?_
        split
        · exact Obeys.bind_at (keeps_runWaiting new w) fun _ => .pure _
        · refine Obeys.bind_at (obeys_attempt (keeps_runModule new) w) fun outcome => ?_
          split
          · exact .bind (keeps_rejectWaiting _ _ _) fun _ => .pure _
          · exact .bind (keeps_endWaiting _) fun _ => .pure _

instance : World.IsWorkerLaw past.Keeps where
  requests w _ := keeps_of_modules rfl rfl (.refl w) (.refl w)
  unit w _ := keeps_of_modules rfl rfl (.refl w) (.refl w)
  log w _ := keeps_of_modules rfl rfl (.refl w) (.refl w)
  addModule := keeps_addModule
  loaded _ _ _ := keeps_note _ (fun _ => rfl) (fun _ => rfl) fun _ => rfl
  linkModule := keeps_linkModule
  evaluateModule := keeps_evaluateModule
  continueModule := keeps_continueModule
  spaceOf := keeps_spaceOf

end Past
end Isolate.Script
