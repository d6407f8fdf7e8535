import Isolate.Proofs.Script.Delivery
import Isolate.Proofs.Script.Representation

/-!
# Global names bound to JSON values

The host binds names that no new world has. In the world that it leaves, each of the names stands for the
last value that it was bound to, and nothing else has changed but the global object.
-/

namespace Isolate

/-- JSON values under global names. -/
def Globals.ofValues (bindings : List (String × Json)) : Globals :=
  bindings.map fun binding => (binding.1, .value binding.2)

namespace Script

def IsStandardGlobal (name : String) : Prop :=
  (Properties.get? Intrinsic.globalMembers (Text.Units.ofString name)).isSome

instance (name : String) : Decidable (IsStandardGlobal name) := by
  unfold IsStandardGlobal
  infer_instance

def initialObjects : Array Object :=
  (Intrinsic.all.map Intrinsic.object ++ Builtin.all.map Builtin.object).toArray

theorem intrinsic_initial (i : Intrinsic) : initialObjects[i.id]? = some i.object := by
  have listed : (Intrinsic.all.map Intrinsic.object)[i.id]? = some i.object := by
    rw [List.getElem?_map, Intrinsic.all_getElem?_id, Option.map_some]
  obtain ⟨inside, -⟩ := List.getElem?_eq_some_iff.mp listed
  rw [initialObjects, List.getElem?_toArray, List.getElem?_append_left inside, listed]

theorem jsonStringify_initial :
    initialObjects[Builtin.jsonStringify.id]? = some Builtin.jsonStringify.object := rfl

def globalObject (properties : Properties) : Object := { Intrinsic.global.object with properties }

variable {w : World} {bindings : List (String × Json)} {objects objects' : Array Object} {name : String}

/-- The objects of a world in which names were bound. -/
structure BindsValues (bindings : List (String × Json)) (objects : Array Object) : Prop where
  keeps : KeepsBut [Intrinsic.global.id] initialObjects objects
  global : ∃ properties,
    objects[Intrinsic.global.id]? = some (globalObject properties) ∧
      (∀ name, Json.lookup name bindings = none →
        properties.get? (Text.Units.ofString name) =
          Properties.get? Intrinsic.globalMembers (Text.Units.ofString name)) ∧
      ∀ name json, Json.lookup name bindings = some json →
        ∃ value, properties.get? (Text.Units.ofString name) = some { value := value } ∧
          Represents objects [Intrinsic.global.id] json.sorted value

/-- A new world binds nothing. -/
theorem bindsValues_initial : BindsValues [] initialObjects :=
  ⟨.refl _ _, Intrinsic.globalMembers, intrinsic_initial .global, fun _ _ => rfl, nofun⟩

/-- What was bound stays bound when objects are added. -/
theorem BindsValues.mono (binds : BindsValues bindings objects) (keeps : KeepsBut [] objects objects') :
    BindsValues bindings objects' := by
  obtain ⟨properties, here, others, bound⟩ := binds.global
  refine ⟨binds.keeps.trans (keeps.mono (List.nil_subset _)), properties,
    keeps _ List.not_mem_nil _ here, others, fun name json found => ?_⟩
  obtain ⟨value, known, represents⟩ := bound name json found
  exact ⟨value, known, represents.frame (keeps.mono (List.nil_subset _))⟩

/-- A member of the global object that may be taken away, or is not there, is defined. -/
theorem define_of_configurable {properties : Properties} {name : Text.Units} {property : Property}
    (here : w.objects[Intrinsic.global.id]? = some (globalObject properties))
    (free : ∀ old, properties.get? name = some old → old.configurable = true) :
    Runs (Globals.define name property) w fun _ w' =>
      KeepsBut [Intrinsic.global.id] w.objects w'.objects ∧
        w'.objects[Intrinsic.global.id]? =
          some (globalObject (properties.insert name property)) := by
  have known := World.object_of_known here
  have own : ownMember? Intrinsic.global.id name w = .ok (properties.get? name) w := by
    rw [ownMember?_plain (by rw [known]; rfl), known]
    rfl
  have put : Runs (putOwn Intrinsic.global.id name property) w fun _ w' =>
      KeepsBut [Intrinsic.global.id] w.objects w'.objects ∧
        w'.objects[Intrinsic.global.id]? =
          some (globalObject (properties.insert name property)) := by
    refine ⟨⟨⟩, _, rfl, .modify _ _ _, ?_⟩
    change (w.objects.modify Intrinsic.global.id _)[Intrinsic.global.id]? = _
    rw [Array.getElem?_modify, if_pos rfl, here, Option.map_some]
    cases indexOf? name <;> rfl
  have defined : Globals.define name property w = putOwn Intrinsic.global.id name property w := by
    refine (run_bind_of_ok own _).trans ?_
    cases found : properties.get? name with
    | none => rfl
    | some old =>
      dsimp only
      rw [free old found]
      rfl
  obtain ⟨_, w', done, holds⟩ := put
  exact ⟨_, w', defined.trans done, holds⟩

/-- Binding a name takes nothing from what the other names were bound to. -/
theorem runs_bindEntry {json : Json} (binds : BindsValues bindings w.objects)
    (other : ¬IsStandardGlobal name) :
    Runs (Globals.bindEntry name (.value json)) w fun _ w' =>
      BindsValues (bindings ++ [(name, json)]) w'.objects := by
  refine (isMade_sorted json w).bind fun value w₁ added => ?_
  have binds₁ := binds.mono added.keeps
  obtain ⟨properties, here, others, bound⟩ := binds₁.global
  obtain ⟨_, here₀, -⟩ := binds.global
  obtain ⟨old, -⟩ := Array.getElem?_eq_some_iff.mp here₀
  have free : ∀ old, properties.get? (Text.Units.ofString name) = some old →
      old.configurable = true := by
    intro old found
    cases known : Json.lookup name bindings with
    | none =>
      rw [others name known] at found
      exact absurd (Option.isSome_of_mem found) other
    | some json =>
      obtain ⟨value, is, -⟩ := bound name json known
      obtain rfl := Option.some.inj (is.symm.trans found)
      rfl
  refine (define_of_configurable here free).mono fun _ w₂ put => ?_
  obtain ⟨keeps, here₂⟩ := put
  refine ⟨binds₁.keeps.trans keeps, _, here₂, fun key unbound => ?_, fun key json' known => ?_⟩
  · rw [Json.lookup_concat] at unbound
    split at unbound
    next => contradiction
    next apart =>
      rw [get?_insert, if_neg fun same => apart (ofString_injective same).symm]
      exact others key unbound
  · rw [Json.lookup_concat] at known
    rw [get?_insert]
    split at known
    next same =>
      subst same
      cases known
      refine ⟨value, if_pos rfl, (added.holds _ ?_).frame keeps⟩
      exact List.forall_mem_singleton.mpr (.inl old)
    next apart =>
      rw [if_neg fun same => apart (ofString_injective same).symm]
      obtain ⟨value', is, represents⟩ := bound key json' known
      exact ⟨value', is, represents.frame keeps⟩

/-- Names that no new world has can be bound, one after the other. -/
theorem runs_install {done : List (String × Json)}
    (others : ∀ binding ∈ bindings, ¬IsStandardGlobal binding.1) (binds : BindsValues done w.objects) :
    Runs (Globals.install (Globals.ofValues bindings)) w fun _ w' =>
      BindsValues (done ++ bindings) w'.objects := by
  induction bindings generalizing done w with
  | nil =>
    rw [List.append_nil]
    exact .pure binds
  | cons binding bindings ih =>
    obtain ⟨other, others⟩ := List.forall_mem_cons.mp others
    rw [List.append_cons]
    exact (runs_bindEntry binds other).bind fun _ _ binds => ih others binds

/-- A name that was bound stands for its last value where nothing else has the name. -/
theorem gives_of_bindsValues {json : Json} (binds : BindsValues bindings objects)
    (keeps : KeepsBut [] objects w.objects) (known : Json.lookup name bindings = some json)
    {scope : ScopeId} {inner outermost : Scope}
    (here : w.scopes[scope]? = some inner) (inside : inner.bindings.lookup name = none)
    (alone : inner.object = none) (parent : inner.parent = some globalScope)
    (around : w.scopes[globalScope]? = some outermost) (unbound : outermost.bindings = [])
    (global : outermost.object = some Intrinsic.global.id) :
    ∃ value, w.Gives scope name value ∧ Represents objects [Intrinsic.global.id] json.sorted value := by
  obtain ⟨properties, hereGlobal, -, bound⟩ := binds.global
  have hereGlobal := keeps _ List.not_mem_nil _ hereGlobal
  obtain ⟨value, found, represents⟩ := bound name json known
  refine ⟨value, fun w' scopes same => ?_, represents⟩
  have object : w'.object Intrinsic.global.id = globalObject properties :=
    World.object_of_known (same ▸ hereGlobal)
  have scopeAt {id : ScopeId} {s : Scope} (here : w.scopes[id]? = some s) : w'.scope id = s := by
    rw [World.scope, Array.getD_eq_getD_getElem?, scopes, here, Option.getD_some]
  have notHere : w'.findHere? scope name = none := by
    rw [World.findHere?, scopeAt here]
    simp only [inside, alone, Option.bind_none]
  have there : w'.findHere? globalScope name = some (.member Intrinsic.global.id) := by
    rw [World.findHere?, scopeAt around]
    simp only [unbound, global, List.lookup_nil, Option.bind_some, object, globalObject, found,
      Option.isSome_some, if_true]
  obtain ⟨inRange, -⟩ := Array.getElem?_eq_some_iff.mp here
  obtain ⟨size, sized⟩ := Nat.exists_eq_add_one.mpr (Nat.lt_of_le_of_lt (Nat.zero_le _) inRange)
  have named : findName? scope name w' = .ok (some (.member Intrinsic.global.id)) w' := by
    have searched : w'.find? name (w'.scopes.size + 1) (some scope) =
        some (.member Intrinsic.global.id) := by
      rw [World.find?, notHere, scopeAt here, parent, scopes, sized, World.find?, there]
    exact congrArg (EStateM.Result.ok · w') searched
  have own : ownMember? Intrinsic.global.id (Text.Units.ofString name) w' =
      .ok (some { value := value }) w' := by
    rw [ownMember?_plain (by rw [object]; rfl), object]
    exact congrArg (EStateM.Result.ok · w') found
  have loaded : loadNameIfBound scope name w' = .ok (some value) w' := by
    rw [loadNameIfBound, run_bind_of_ok named]
    exact run_bind_of_ok (getMember_own own) _
  rw [loadName, run_bind_of_ok loaded]
  rfl

end Script
end Isolate
