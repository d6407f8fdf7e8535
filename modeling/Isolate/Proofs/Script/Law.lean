import Isolate.Script.Closure
import Mathlib.Order.Defs.Unbundled

/-!
# Laws of running code

Running code changes a world by a few kinds of moves only. A relation that is reflexive and transitive
and holds across every single move is a law: it holds between the world before and the world after
whatever code does, and whether the code ends well or not. Here are the moves, those of linking and
evaluating modules among them, and the actions that objects, scopes, closures and promises are made of;
they obey every law of code.
-/

namespace Isolate.Script

variable {σ α β : Type}

/-- The state that an action leaves, whether it succeeds or not. -/
def left (action : EStateM Abrupt σ α) (s : σ) : σ :=
  match action s with
  | .ok _ after => after
  | .error _ after => after

theorem left_of_ok {action : EStateM Abrupt σ α} {s after : σ} {value : α}
    (h : action s = .ok value after) : left action s = after := by rw [left, h]

theorem left_of_error {action : EStateM Abrupt σ α} {s after : σ} {abrupt : Abrupt}
    (h : action s = .error abrupt after) : left action s = after := by rw [left, h]

theorem left_bind_of_ok {action : EStateM Abrupt σ α} {s after : σ} {value : α}
    (h : action s = .ok value after) (rest : α → EStateM Abrupt σ β) :
    left (action >>= rest) s = left (rest value) after := by
  change left (EStateM.bind action rest) s = _
  unfold left EStateM.bind
  rw [h]

theorem left_bind_of_error {action : EStateM Abrupt σ α} {s after : σ} {abrupt : Abrupt}
    (h : action s = .error abrupt after) (rest : α → EStateM Abrupt σ β) :
    left (action >>= rest) s = after := by
  change left (EStateM.bind action rest) s = _
  unfold left EStateM.bind
  rw [h]

/-- A relation holds between the state before an action and the state after it. -/
def Obeys (R : σ → σ → Prop) (action : EStateM Abrupt σ α) : Prop := ∀ s, R s (left action s)

namespace Obeys

variable {R : σ → σ → Prop}

/-- What follows a look at the state may depend on it. -/
theorem get_bind {rest : σ → EStateM Abrupt σ α} (later : ∀ s, R s (left (rest s) s)) :
    Obeys R (MonadState.get >>= rest) := later

theorem get_bind_at {rest : σ → EStateM Abrupt σ α} {s : σ} (later : Obeys R (rest s)) :
    R s (left (MonadState.get >>= rest) s) := later s

variable [order : IsPreorder σ R]

@[grind ←] theorem pure (value : α) : Obeys R (pure value : EStateM Abrupt σ α) := order.refl

@[grind ←] theorem throw (abrupt : Abrupt) : Obeys R (throw abrupt : EStateM Abrupt σ α) :=
  order.refl

@[grind ←] theorem get : Obeys R (get : EStateM Abrupt σ σ) := order.refl

/-- What follows an action may depend on the state that the action leaves. -/
theorem bind_from {action : EStateM Abrupt σ α} {rest : α → EStateM Abrupt σ β} {s : σ}
    (first : R s (left action s))
    (later : ∀ value after, action s = .ok value after → R after (left (rest value) after)) :
    R s (left (action >>= rest) s) := by
  change R s (left (EStateM.bind action rest) s)
  unfold left EStateM.bind
  cases done : action s with
  | ok value after =>
    rw [left_of_ok done] at first
    exact order.trans _ _ _ first (later value after done)
  | error abrupt after =>
    rw [left_of_error done] at first
    exact first

/-- An action may obey a relation in the state that it begins in only. -/
theorem bind_at {action : EStateM Abrupt σ α} {rest : α → EStateM Abrupt σ β} {s : σ}
    (first : R s (left action s)) (later : ∀ value, Obeys R (rest value)) :
    R s (left (action >>= rest) s) := bind_from first fun value after _ => later value after

/-- A relation holds between what an action leaves and what is left after all that follows it. -/
theorem left_bind {action : EStateM Abrupt σ α} {rest : α → EStateM Abrupt σ β} (s : σ)
    (later : ∀ value, Obeys R (rest value)) : R (left action s) (left (action >>= rest) s) := by
  change R (left action s) (left (EStateM.bind action rest) s)
  unfold left EStateM.bind
  cases action s with
  | ok value after => exact later value after
  | error abrupt after => exact order.refl after

@[grind ←] theorem bind {action : EStateM Abrupt σ α} {rest : α → EStateM Abrupt σ β}
    (first : Obeys R action) (later : ∀ value, Obeys R (rest value)) :
    Obeys R (action >>= rest) := fun s => bind_at (first s) later

@[grind ←] theorem forM (items : List α) {action : α → EStateM Abrupt σ PUnit}
    (each : ∀ item, Obeys R (action item)) : Obeys R (items.forM action) := by
  induction items with
  | nil => exact .pure _
  | cons item items ih => exact .bind (each item) fun _ => ih

@[grind ←] theorem mapM (items : List α) {action : α → EStateM Abrupt σ β}
    (each : ∀ item, Obeys R (action item)) : Obeys R (items.mapM action) := by
  induction items with
  | nil => exact .pure _
  | cons item items ih =>
    rw [List.mapM_cons]
    exact .bind (each item) fun _ => .bind ih fun _ => .pure _

@[grind ←] theorem foldlM (items : List α) {action : β → α → EStateM Abrupt σ β} (start : β)
    (each : ∀ value item, Obeys R (action value item)) : Obeys R (items.foldlM action start) := by
  induction items generalizing start with
  | nil => exact .pure _
  | cons item items ih => exact .bind (each start item) fun _ => ih _

@[grind ←] theorem forIn (items : List α) {action : α → β → EStateM Abrupt σ (ForInStep β)} (start : β)
    (each : ∀ item value, Obeys R (action item value)) : Obeys R (forIn items start action) := by
  induction items generalizing start with
  | nil => exact .pure _
  | cons item items ih =>
    rw [List.forIn_cons]
    refine .bind (each item start) fun step => ?_
    cases step with
    | done value => exact .pure value
    | yield value => exact ih value

@[grind ←] theorem filterM (items : List α) {action : α → EStateM Abrupt σ Bool}
    (each : ∀ item, Obeys R (action item)) : Obeys R (items.filterM action) := by
  have aux (items kept : List α) : Obeys R (items.filterAuxM action kept) := by
    induction items generalizing kept with
    | nil => exact .pure _
    | cons item items ih => exact .bind (each item) fun _ => ih _
  exact .bind (aux items []) fun _ => .pure _

-- The loop of the library keeps what it has found so far, so the induction is over every such list.
@[grind ←] theorem filterMapM (items : List α) {action : α → EStateM Abrupt σ (Option β)}
    (each : ∀ item, Obeys R (action item)) : Obeys R (items.filterMapM action) := by
  have go (items : List α) (found : List β) : Obeys R (List.filterMapM.loop action items found) := by
    induction items generalizing found with
    | nil => exact .pure _
    | cons item items ih =>
      refine .bind (each item) fun value => ?_
      cases value <;> exact ih _
  exact go items []

end Obeys

def Nature.isSettled : Nature → Bool
  | promise (.fulfilled _) => true
  | promise (.rejected _) => true
  | _ => false

namespace World

/-- No object goes away, and what is settled stays what it is. -/
structure KeepsObjects (w : World) (objects : Array Object) : Prop where
  size : w.objects.size ≤ objects.size
  settled (id : ObjectId) (settled : (w.object id).nature.isSettled) :
    (objects.getD id default).nature = (w.object id).nature

/-- No scope goes away, and no binding that lasts. -/
structure KeepsScopes (w : World) (scopes : Array Scope) : Prop where
  size : w.scopes.size ≤ scopes.size
  lasting (id : ScopeId) (name : String) (binding : Binding)
    (found : (w.scope id).bindings.lookup name = some binding) (lasting : binding.isLasting) :
    (scopes.getD id default).bindings.lookup name = some binding

/-- A relation between worlds that holds across every move of objects. -/
class IsObjectLaw (R : World → World → Prop) : Prop extends IsPreorder World R where
  objects (w : World) (objects : Array Object) (kept : w.KeepsObjects objects) : R w { w with objects }

/-- A relation between worlds that holds across every move of running code. -/
class IsCodeLaw (R : World → World → Prop) : Prop extends IsObjectLaw R where
  scopes (w : World) (scopes : Array Scope) (kept : w.KeepsScopes scopes) : R w { w with scopes }
  /-- The running code is at some place. -/
  place (w : World) (calls : List Nat) (here : Option Site) (running : Nat) :
    R w { w with calls, here, running }
  jobs (w : World) (jobs : List Job) : R w { w with jobs }
  /-- The code of a unit imports something. -/
  request (w : World) (unit : Nat) (specifier : Text.Units) (result : ObjectId) :
    R w { w with
      requests := w.requests ++
        [⟨(w.units[unit]?.map (·.referrer)).getD .anonymous, specifier, result⟩] }
  record (w : World) (text : Text.Units) : R w { w with log := w.log ++ [text] }
  /-- The running code compiles a string. -/
  compile (w : World) (origin : CodeOrigin) (functions : Array FunctionCode) :
    R w { w with
      units := w.units.push
        ⟨origin, functions, (w.units[w.running]?.map (·.referrer)).getD .anonymous⟩ }
  /-- The host refuses to compile a string, and makes an error. -/
  refuse (w : World) (error : Object) (forbidden : w.allowsCodeGeneration = false) :
    R w { w with
      objects := w.objects.push error
      refusals := ⟨w.here, .object w.objects.size⟩ :: w.refusals }

/-- A law of code that holds across what finding the exports of modules does, too. -/
class IsExportLaw (R : World → World → Prop) : Prop extends IsCodeLaw R where
  /-- Objects change, and none goes away. -/
  change (w : World) (objects : Array Object) (kept : w.objects.size ≤ objects.size) :
    R w { w with objects }
  /-- A module gets an object of its exports. -/
  space (w : World) (id : Nat) (space : ObjectId) :
    R w { w with modules := w.modules.modify id fun m => { m with space := some space } }

/-- A relation between worlds that holds across every move of running code and of linking modules. -/
class IsLaw (R : World → World → Prop) : Prop extends IsPreorder World R where
  /-- Objects change, and none goes away. -/
  objects (w : World) (objects : Array Object) (kept : w.objects.size ≤ objects.size) :
    R w { w with objects }
  scopes (w : World) (scopes : Array Scope) : R w { w with scopes }
  /-- Modules change, and none comes or goes. -/
  modules (w : World) (modules : Array Module) (waits : Nat) (kept : modules.size = w.modules.size) :
    R w { w with modules, waits }
  place (w : World) (calls : List Nat) (here : Option Site) (running : Nat) :
    R w { w with calls, here, running }
  jobs (w : World) (jobs : List Job) : R w { w with jobs }
  request (w : World) (unit : Nat) (specifier : Text.Units) (result : ObjectId) :
    R w { w with
      requests := w.requests ++
        [⟨(w.units[unit]?.map (·.referrer)).getD .anonymous, specifier, result⟩] }
  record (w : World) (text : Text.Units) : R w { w with log := w.log ++ [text] }
  compile (w : World) (origin : CodeOrigin) (functions : Array FunctionCode) :
    R w { w with
      units := w.units.push
        ⟨origin, functions, (w.units[w.running]?.map (·.referrer)).getD .anonymous⟩ }
  refuse (w : World) (error : Object) (forbidden : w.allowsCodeGeneration = false) :
    R w { w with
      objects := w.objects.push error
      refusals := ⟨w.here, .object w.objects.size⟩ :: w.refusals }

/-- A law of linking that holds across the beginning of a module's code, too. -/
class IsEvaluationLaw (R : World → World → Prop) : Prop extends IsLaw R where
  execute (w : World) (id : Nat) : R w { w with executed := id :: w.executed }

instance {R : World → World → Prop} [law : IsLaw R] : IsCodeLaw R where
  objects w objects kept := law.objects w objects kept.size
  scopes w scopes _ := law.scopes w scopes
  place := law.place
  jobs := law.jobs
  request := law.request
  record := law.record
  compile := law.compile
  refuse := law.refuse

instance {R : World → World → Prop} [law : IsLaw R] : IsExportLaw R where
  change := law.objects
  space w _ _ := law.modules w _ w.waits (by simp)

variable (w : World)

theorem KeepsObjects.push (object : Object) : w.KeepsObjects (w.objects.push object) where
  size := by simp
  settled id settled := by
    by_cases old : id < w.objects.size
    · rw [World.object, Array.getD_eq_getD_getElem?, Array.getD_eq_getD_getElem?,
        Array.getElem?_push_lt old, Array.getElem?_eq_getElem old]
    · rw [World.object, Array.getD_eq_getD_getElem?,
        Array.getElem?_eq_none (Nat.le_of_not_lt old)] at settled
      contradiction

theorem object_modifyObject (id other : ObjectId) (f : Object → Object) :
    (w.modifyObject id f).object other =
      if id = other ∧ other < w.objects.size then f (w.object other) else w.object other := by
  rw [object, object, modifyObject, Array.getD_eq_getD_getElem?, Array.getD_eq_getD_getElem?,
    Array.getElem?_modify]
  by_cases here : other < w.objects.size
  · rw [Array.getElem?_eq_getElem here]
    by_cases same : id = other <;> simp [same, here]
  · rw [Array.getElem?_eq_none (Nat.le_of_not_lt here)]
    simp [here]

/-- A change to an object that leaves it what it is, if it is a settled promise. -/
theorem KeepsObjects.modify {id : ObjectId} {f : Object → Object}
    (kept : (w.object id).nature.isSettled → (f (w.object id)).nature = (w.object id).nature) :
    w.KeepsObjects (w.modifyObject id f).objects where
  size := by simp [modifyObject]
  settled other settled := by
    change ((w.modifyObject id f).object other).nature = _
    rw [object_modifyObject]
    split
    next same =>
      obtain ⟨rfl, _⟩ := same
      exact kept settled
    next => rfl

theorem scope_modifyScope (id other : ScopeId) (f : Scope → Scope) :
    (w.modifyScope id f).scope other =
      if id = other ∧ other < w.scopes.size then f (w.scope other) else w.scope other := by
  rw [scope, scope, modifyScope, Array.getD_eq_getD_getElem?, Array.getD_eq_getD_getElem?,
    Array.getElem?_modify]
  by_cases here : other < w.scopes.size
  · rw [Array.getElem?_eq_getElem here]
    by_cases same : id = other <;> simp [same, here]
  · rw [Array.getElem?_eq_none (Nat.le_of_not_lt here)]
    simp [here]

theorem KeepsScopes.push (scope : Scope) : w.KeepsScopes (w.scopes.push scope) where
  size := by simp
  lasting id name binding found _ := by
    by_cases old : id < w.scopes.size
    · rwa [Array.getD_eq_getD_getElem?, Array.getElem?_push_lt old, ← Array.getElem?_eq_getElem old,
        ← Array.getD_eq_getD_getElem?]
    · rw [World.scope, Array.getD_eq_getD_getElem?,
        Array.getElem?_eq_none (Nat.le_of_not_lt old)] at found
      contradiction

theorem not_settled_of_pending {id : ObjectId} {reactions : List Reaction}
    (waits : w.promiseState? id = some (.pending reactions)) {nature : Nature}
    (settled : (w.object id).nature.isSettled) : nature = (w.object id).nature := by
  rw [promiseState?] at waits
  split at waits
  next state is =>
    rw [is, Option.some.inj waits] at settled
    contradiction
  next => contradiction

theorem lookup_cons_eq (name key : String) (binding : Binding) (rest : List (String × Binding)) :
    ((key, binding) :: rest).lookup name = if name = key then some binding else rest.lookup name := by
  by_cases same : name = key
  · rw [if_pos same, List.lookup_cons, beq_iff_eq.mpr same]
  · rw [if_neg same, List.lookup_cons, beq_eq_false_iff_ne.mpr same]

theorem lookup_insert (name other : String) (binding : Binding)
    (bindings : List (String × Binding)) :
    (Scope.insert name binding bindings).lookup other =
      if other = name then some binding else bindings.lookup other := by
  induction bindings with
  | nil => exact lookup_cons_eq _ _ _ _
  | cons entry rest ih =>
    obtain ⟨key, old⟩ := entry
    rw [Scope.insert]
    split
    next same =>
      rw [lookup_cons_eq, lookup_cons_eq, same]
      split <;> rfl
    next apart =>
      rw [lookup_cons_eq, lookup_cons_eq, ih]
      split
      next here => rw [if_neg fun same => apart (same.symm.trans here)]
      next => rfl

/-- A binding takes the place of one that does not last. -/
theorem KeepsScopes.putBinding {id : ScopeId} {name : String} (binding : Binding)
    (free : ∀ old, (w.scope id).bindings.lookup name = some old → ¬old.isLasting) :
    w.KeepsScopes (w.modifyScope id fun s =>
      { s with bindings := Scope.insert name binding s.bindings }).scopes where
  size := by simp [modifyScope]
  lasting other name' binding' found lasting := by
    change ((w.modifyScope id _).scope other).bindings.lookup name' = _
    rw [scope_modifyScope]
    split
    next same =>
      obtain ⟨rfl, _⟩ := same
      rw [lookup_insert]
      split
      next same =>
        subst same
        exact absurd lasting (free _ found)
      next => exact found
    next => exact found

end World

def Invoke.Obeys (R : World → World → Prop) (call : Invoke) : Prop :=
  ∀ callee this args, Script.Obeys R (call callee this args)

theorem Invoke.Obeys.apply {R : World → World → Prop} {call : Invoke} (h : call.Obeys R)
    (callee this : Value) (args : List Value) : Script.Obeys R (call callee this args) :=
  h callee this args

section Objects

variable {R : World → World → Prop} [law : World.IsObjectLaw R]

theorem modifyObject_obeys {w : World} {id : ObjectId} {f : Object → Object}
    (kept : (w.object id).nature.isSettled → (f (w.object id)).nature = (w.object id).nature) :
    R w (left (modify fun w => w.modifyObject id f) w) :=
  law.objects w _ (.modify w kept)

theorem obeys_modifyObject (id : ObjectId) {f : Object → Object}
    (kept : ∀ o, o.nature.isSettled → (f o).nature = o.nature) :
    Obeys R (modify fun w => w.modifyObject id f) :=
  fun _ => modifyObject_obeys (kept _)

@[grind ←] theorem obeys_allocate (object : Object) : Obeys R (allocate object) :=
  fun w => law.objects w _ (.push w object)

@[grind ←] theorem obeys_newObject : Obeys R newObject := obeys_allocate _

@[grind ←] theorem obeys_newArray (items : List Value) : Obeys R (newArray items) := obeys_allocate _

@[grind ←] theorem obeys_newError (kind : ErrorKind) (message : String) :
    Obeys R (newError kind message) := .bind (obeys_allocate _) fun _ => .pure _

@[grind ←] theorem obeys_newFailure (kind : ErrorKind) (message : String) :
    Obeys R (newFailure kind message) := .bind (obeys_allocate _) fun _ => .pure _

theorem expose_obeys (w : World) (value : Value) : R w (w.expose value) := by
  cases value with
  | object id => exact modifyObject_obeys fun _ => rfl
  | undefined | null | bool | number | string => exact law.refl w

@[grind ←] theorem obeys_fail (value : Value) : Obeys R (fail value : Action α) :=
  .bind .get fun _ => .throw _

@[grind ←] theorem obeys_failWith (kind : ErrorKind) (message : String) :
    Obeys R (failWith kind message : Action α) := .bind (obeys_newFailure _ _) fun _ => obeys_fail _

@[grind ←] theorem obeys_failNoObject : Obeys R (failNoObject : Action α) := obeys_failWith _ _

@[grind ←] theorem obeys_exportedValue (name : Text.Units) (scope : ScopeId) (localName : String) :
    Obeys R (exportedValue name scope localName) := by
  unfold exportedValue
  grind

@[grind ←] theorem obeys_ownMember? (id : ObjectId) (name : Text.Units) :
    Obeys R (ownMember? id name) := by
  unfold ownMember?
  grind

@[grind ←] theorem obeys_hasOwn (id : ObjectId) (name : Text.Units) : Obeys R (hasOwn id name) := by
  unfold hasOwn
  grind

@[grind ←] theorem obeys_computedMember? (holder : ObjectId) (receiver : Value) (name : Text.Units) :
    Obeys R (computedMember? holder receiver name) := by
  unfold computedMember?
  grind

@[grind ←] theorem obeys_memberFrom (receiver : Value) (name : Text.Units) (fuel : Nat)
    (id : Option ObjectId) : Obeys R (memberFrom receiver name fuel id) := by
  induction fuel generalizing id with
  | zero => exact .pure _
  | succ fuel ih =>
    unfold memberFrom
    grind

@[grind ←] theorem obeys_getMember (base : Value) (name : Text.Units) :
    Obeys R (getMember base name) := by
  unfold getMember
  grind

@[grind ←] theorem obeys_hasMember (name : Text.Units) (fuel : Nat) (id : Option ObjectId) :
    Obeys R (hasMember name fuel id) := by
  induction fuel generalizing id with
  | zero => exact .pure _
  | succ fuel ih =>
    unfold hasMember
    grind

@[grind ←] theorem obeys_putOwn (id : ObjectId) (name : Text.Units) (property : Property) :
    Obeys R (putOwn id name property) := obeys_modifyObject _ fun o settled => by
  dsimp only
  cases nature : o.nature with
  | array length =>
    rw [nature] at settled
    contradiction
  | _ => rfl

@[grind ←] theorem obeys_setLength (id : ObjectId) (length : Nat) : Obeys R (setLength id length) :=
  obeys_modifyObject _ fun o settled => by
    cases nature : o.nature with
    | array length =>
      rw [nature] at settled
      contradiction
    | _ => exact nature

@[grind ←] theorem obeys_assignmentFrom (name : Text.Units) (fuel : Nat) (id : Option ObjectId) :
    Obeys R (assignmentFrom name fuel id) := by
  induction fuel generalizing id with
  | zero => exact .pure _
  | succ fuel ih =>
    unfold assignmentFrom
    grind

@[grind ←] theorem obeys_changePrototype (id : ObjectId) (value : Value) :
    Obeys R (changePrototype id value) := by
  cases value with
  | null => exact obeys_modifyObject _ fun _ _ => rfl
  | object proto =>
    refine .bind .get fun w => ?_
    dsimp only
    split
    · exact obeys_failWith _ _
    · exact obeys_modifyObject _ fun _ _ => rfl
  | undefined | bool | number | string => exact .pure _

@[grind ←] theorem obeys_setOwnOrAdd (id : ObjectId) (name : Text.Units) (value : Value) :
    Obeys R (setOwnOrAdd id name value) := by
  refine .bind .get fun w => ?_
  dsimp only
  split
  · exact .pure _
  · refine .bind (obeys_ownMember? _ _) fun found => ?_
    cases found with
    | some property =>
      dsimp only
      split
      · exact .pure _
      · split
        · split
          · split
            · exact .bind (obeys_setLength _ _) fun _ => .pure _
            · exact obeys_failWith _ _
          · exact .bind (obeys_putOwn _ _ _) fun _ => .pure _
        · exact .bind (obeys_putOwn _ _ _) fun _ => .pure _
    | none =>
      refine .bind (obeys_assignmentFrom _ _ _) fun assignment => ?_
      cases assignment with
      | refuse => exact .pure _
      | setPrototype => exact .bind (obeys_changePrototype _ _) fun _ => .pure _
      | add => grind

@[grind ←] theorem obeys_setMember (isStrict : Bool) (base : Value) (name : Text.Units)
    (value : Value) : Obeys R (setMember isStrict base name value) := by
  unfold setMember
  grind

@[grind ←] theorem obeys_deleteMember (isStrict : Bool) (base : Value) (name : Text.Units) :
    Obeys R (deleteMember isStrict base name) := by
  have told (done : Bool) : Obeys R
      (if !done && isStrict then failWith .type "Cannot delete property" else pure done) := by grind
  cases base with
  | object id =>
    refine .bind .get fun w => ?_
    dsimp only
    split
    · exact .bind (.pure _) told
    · refine .bind (obeys_ownMember? _ _) fun found => ?_
      cases found with
      | none => exact .bind (.pure _) told
      | some property =>
        dsimp only
        split
        · exact .bind (obeys_modifyObject _ fun _ _ => rfl) fun _ => .bind (.pure _) told
        · exact .bind (.pure _) told
  | undefined | null => exact .bind obeys_failNoObject told
  | bool | number | string => exact .bind (.pure _) told

@[grind ←] theorem obeys_visibleNames (id : ObjectId) : Obeys R (visibleNames id) := by
  unfold visibleNames
  grind

@[grind ←] theorem obeys_defineMember (id : ObjectId) (name : Text.Units) (value : Value) :
    Obeys R (defineMember id name value) := obeys_putOwn _ _ _

@[grind ←] theorem obeys_isCallable (value : Value) : Obeys R (isCallable value) :=
  .bind .get fun _ => .pure _

@[grind ←] theorem obeys_toObject (value : Value) : Obeys R (toObject value) := by
  unfold toObject
  grind

@[grind ←] theorem obeys_newFunction (callable : Callable) (name : Text.Units) (length : Nat) :
    Obeys R (newFunction callable name length) := .bind (obeys_allocate _) fun _ => .pure _

end Objects

variable {R : World → World → Prop} [law : World.IsCodeLaw R]

@[grind ←] theorem obeys_newScope (scope : Scope) : Obeys R (newScope scope) :=
  fun w => law.scopes w _ (.push w scope)

@[grind ←] theorem obeys_findName? (scope : ScopeId) (name : String) :
    Obeys R (findName? scope name) := .bind .get fun _ => .pure _

@[grind ←] theorem obeys_failUndefined (name : String) : Obeys R (failUndefined name : Action α) :=
  obeys_failWith _ _

@[grind ←] theorem obeys_loadNameIfBound (scope : ScopeId) (name : String) :
    Obeys R (loadNameIfBound scope name) := by
  unfold loadNameIfBound
  grind

@[grind ←] theorem obeys_loadName (scope : ScopeId) (name : String) : Obeys R (loadName scope name) := by
  unfold loadName
  grind

@[grind ←] theorem obeys_bind (scope : ScopeId) (name : String) (binding : Binding) :
    Obeys R (bind scope name binding) := by
  intro w
  change R w (left (if !((w.scope scope).bindings.lookup name).any Binding.isLasting then
    putBinding scope name binding else pure ⟨⟩) w)
  split
  next free =>
    refine law.scopes w _ (.putBinding w binding fun old found lasting => ?_)
    rw [found, Option.any_some, lasting] at free
    contradiction
  next => exact law.refl w

@[grind ←] theorem obeys_storeName (isStrict : Bool) (scope : ScopeId) (name : String)
    (value : Value) : Obeys R (storeName isStrict scope name value) := by
  unfold storeName
  grind

@[grind ←] theorem obeys_initName (scope : ScopeId) (name : String) (value : Value) :
    Obeys R (initName scope name value) := by
  unfold initName
  grind

@[grind ←] theorem obeys_deleteName (scope : ScopeId) (name : String) :
    Obeys R (deleteName scope name) := by
  unfold deleteName
  grind

@[grind ←] theorem obeys_declareVar (scope : ScopeId) (isDeletable : Bool) (name : String) :
    Obeys R (declareVar scope isDeletable name) := by
  unfold declareVar
  grind

@[grind ←] theorem obeys_declareFunction (scope : ScopeId) (isDeletable : Bool) (name : String)
    (value : Value) : Obeys R (declareFunction scope isDeletable name value) := by
  unfold declareFunction
  grind

@[grind ←] theorem obeys_newClosure (unit : Nat) (code : FunctionCode) (scope : ScopeId)
    (this : Value) : Obeys R (newClosure unit code scope this) := by
  unfold newClosure
  grind

@[grind ←] theorem obeys_functionCode (unit index : Nat) : Obeys R (functionCode unit index) :=
  .bind .get fun _ => .pure _

@[grind ←] theorem obeys_bindFunctions (unit : Nat) (scope : ScopeId) (this : Value)
    (declared : List (String × Nat)) {put : String → Value → Action PUnit}
    (puts : ∀ name value, Obeys R (put name value)) :
    Obeys R (bindFunctions unit scope this declared put) := by
  unfold bindFunctions
  grind

@[grind ←] theorem obeys_newArguments (args : List Value) : Obeys R (newArguments args) :=
  .bind (obeys_allocate _) fun _ => .pure _

@[grind ←] theorem obeys_thisFor (code : FunctionCode) (captured : Option Value) (this : Value) :
    Obeys R (thisFor code captured this) := by
  unfold thisFor
  grind

@[grind ←] theorem obeys_activate (callee : Value) (unit : Nat) (code : FunctionCode)
    (scope : ScopeId) (captured : Option Value) (this : Value) (args : List Value) :
    Obeys R (activate callee unit code scope captured this args) := by
  have bound (own : ScopeId) (this : Value) : Obeys R
      (bindFunctions unit own this code.functions fun name value =>
        bind own name (.held (some value) .mutable)) :=
    obeys_bindFunctions _ _ _ _ fun _ _ => obeys_bind _ _ _
  refine .bind .get fun w => .bind (obeys_thisFor _ _ _) fun this => ?_
  dsimp only
  split <;> grind

@[grind ←] theorem obeys_newPromise : Obeys R newPromise := obeys_allocate _

@[grind ←] theorem obeys_enqueue (job : Job) : Obeys R (enqueue job) := fun w => law.jobs w _

@[grind ←] theorem obeys_settle (id : ObjectId) (outcome : Except Value Value) :
    Obeys R (settle id outcome) := by
  refine .get_bind fun w => ?_
  split
  next waits =>
    refine Obeys.bind_at (modifyObject_obeys ?_) fun _ => .forM _ fun _ => obeys_enqueue _
    exact w.not_settled_of_pending waits
  next => exact law.refl w

@[grind ←] theorem obeys_subscribe (id : ObjectId) (reaction : Reaction) :
    Obeys R (subscribe id reaction) := by
  refine .get_bind fun w => ?_
  split
  next waits => exact modifyObject_obeys (w.not_settled_of_pending waits)
  next => exact obeys_enqueue _ w
  next => exact obeys_enqueue _ w
  next => exact law.refl w

@[grind ←] theorem obeys_attempt {action : Action α} (h : Obeys R action) :
    Obeys R (attempt action) := by
  intro w
  have first := h w
  unfold Script.left at first ⊢
  unfold attempt
  cases done : action w with
  | ok value after => simpa [done] using first
  | error abrupt after =>
    rw [done] at first
    cases abrupt with
    | thrown reason site => exact law.trans _ _ _ first (expose_obeys after reason)
    | stopped | exhausted => exact first

@[grind ←] theorem obeys_resolvePromise (id : ObjectId) (value : Value) :
    Obeys R (resolvePromise id value) := by
  unfold resolvePromise
  grind

@[grind ←] theorem obeys_resolveWith (id : ObjectId) (outcome : Except Value Value) :
    Obeys R (resolveWith id outcome) := by
  unfold resolveWith
  grind

@[grind ←] theorem obeys_resolvingFunctions (id : ObjectId) : Obeys R (resolvingFunctions id) := by
  unfold resolvingFunctions
  grind

@[grind ←] theorem obeys_settleOnce (id guard : ObjectId) (rejects : Bool) (value : Value) :
    Obeys R (settleOnce id guard rejects value) := by
  refine .get_bind fun w => ?_
  split
  next flag =>
    refine Obeys.bind_at (modifyObject_obeys fun settled => ?_) fun _ => obeys_resolveWith _ _
    rw [flag] at settled
    contradiction
  next => exact law.refl w

@[grind ←] theorem obeys_promiseOf (value : Value) : Obeys R (promiseOf value) := by
  unfold promiseOf
  grind

@[grind ←] theorem obeys_promiseThen (id : ObjectId) (onFulfilled onRejected : Value) :
    Obeys R (promiseThen id onFulfilled onRejected) := by
  unfold promiseThen
  grind

end Isolate.Script
