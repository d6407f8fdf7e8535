import Isolate.Proofs.Blueprint.Verbatim
import Isolate.Proofs.Json.Reading
import Isolate.Proofs.Script.GlobalNames
import Isolate.Proofs.Script.Stringify

/-!
# JSON values that pass through a world

The host binds names to JSON values, a module exports what one of the names stands for, and the host reads
the export as JSON again. It reads a value that is equal to the last one that the name was bound to.
-/

namespace Isolate

open Script

section Reading

variable {bindings : List (String × Json)} {w : World} {json : Json}

theorem hasPrototypes_of_bindsValues (binds : BindsValues bindings w.objects) : w.HasPrototypes where
  object := binds.keeps _ (by decide) _ (intrinsic_initial .objectPrototype)
  array := binds.keeps _ (by decide) _ (intrinsic_initial .arrayPrototype)

/-- The world's own way to write JSON is where it was in the beginning. -/
theorem stringify_of_bindsValues (binds : BindsValues bindings w.objects)
    (others : ∀ binding ∈ bindings, ¬IsStandardGlobal binding.1) :
    getMember Intrinsic.global.value (Text.Units.ofString "JSON") w = .ok Intrinsic.json.value w ∧
      getMember Intrinsic.json.value (Text.Units.ofString "stringify") w =
        .ok Builtin.jsonStringify.value w := by
  obtain ⟨properties, here, unbound, -⟩ := binds.global
  constructor
  · have global := World.object_of_known here
    have standard : Json.lookup "JSON" bindings = none := by
      rw [Json.lookup_eq_none_iff]
      intro member is same
      have standard : IsStandardGlobal "JSON" := by decide +kernel
      exact others member is (same ▸ standard)
    have own : ownMember? Intrinsic.global.id (Text.Units.ofString "JSON") w =
        .ok (some (.hidden Intrinsic.json.value)) w := by
      rw [ownMember?_plain (by rw [global]; rfl), global, globalObject, unbound _ standard]
      rfl
    exact getMember_own own
  · have json := World.object_of_known (binds.keeps _ (by decide) _ (intrinsic_initial .json))
    have own : ownMember? Intrinsic.json.id (Text.Units.ofString "stringify") w =
        .ok (some (.hidden Builtin.jsonStringify.value)) w := by
      rw [ownMember?, get_bind_run, json]
      rfl
    exact getMember_own own

theorem callable?_jsonStringify (binds : BindsValues bindings w.objects) :
    callable? w Builtin.jsonStringify.value = some (.builtin .jsonStringify) := by
  rw [Builtin.value, callable?,
    World.object_of_known (binds.keeps _ (by decide) _ jsonStringify_initial)]
  rfl

/-- Calling the function that writes JSON writes JSON. -/
theorem invoke_jsonStringify {value result : Value} (binds : BindsValues bindings w.objects)
    (written : ∀ call, Runs (Stringify.text call value .undefined .undefined) w fun found _ =>
      found = result) :
    Runs (invoke Builtin.jsonStringify.value .undefined [value]) w fun found _ => found = result := by
  obtain ⟨result, w', done, rfl⟩ := written (Means.by (perform (stepLimit - 1))).call
  have called : callBy (perform (stepLimit - 1)) Builtin.jsonStringify.value .undefined [value] w =
      .ok (.value result) w' := by
    refine (get_bind_run _ _).trans ?_
    rw [callable?_jsonStringify binds]
    exact run_bind_of_ok done _
  have limit : stepLimit = (stepLimit - 1) + 1 := by decide
  have performed : perform stepLimit (.call Builtin.jsonStringify.value .undefined [value]) w =
      .ok (.value result) w' := by
    rw [limit]
    exact called
  exact ⟨_, w', run_bind_of_ok performed _, rfl⟩

/-- What a JSON value was made into is read as an equal JSON value. -/
theorem exists_jsonText (exact : json.HasInts fun n => n.natAbs ≤ Number.exactBound)
    (shallow : json.depth < Stringify.depthLimit) :
    ∃ json', json.Agrees json' ∧
      ∀ (bindings : List (String × Json)) (w : World) (outer : List ObjectId) (value : Value),
        BindsValues bindings w.objects → (∀ binding ∈ bindings, ¬IsStandardGlobal binding.1) →
          Represents w.objects outer json value →
            Runs (BuiltModule.jsonText value) w fun text _ => text = some json'.toText := by
  obtain ⟨json', agrees, written⟩ := Stringify.exists_text exact shallow
  refine ⟨json', agrees, fun bindings w outer value binds others represents => ?_⟩
  obtain ⟨global, stringify⟩ := stringify_of_bindsValues binds others
  have isCallable : isCallable Builtin.jsonStringify.value w = .ok true w := by
    rw [isCallable_run, callable?_jsonStringify binds]
    rfl
  obtain ⟨_, w', invoked, rfl⟩ := invoke_jsonStringify binds fun call =>
    written call w outer value (hasPrototypes_of_bindsValues binds) represents
  refine ⟨_, w', ?_, rfl⟩
  refine (run_bind_of_ok global _).trans ((run_bind_of_ok stringify _).trans ?_)
  refine (run_bind_of_ok isCallable _).trans ((run_bind_of_ok invoked _).trans ?_)
  refine congrArg (fun text => EStateM.Result.ok (some text) w') ?_
  rw [Json.toText, ← ofString_ofList, Text.Units.toString_ofString]

/-- A module that exports what a JSON value was made into exports an equal value as JSON. -/
theorem exists_exportedJson {σ : Type} (exact : json.HasInts fun n => n.natAbs ≤ 2 ^ 53)
    (shallow : json.depth < Json.depthLimit) :
    ∃ json', json.Agrees json' ∧
      ∀ (module : BuiltModule) (host : Host σ) (bindings : List (String × Json)) (outer : List ObjectId)
        (value : Value), module.exports = some [("default", value)] →
          BindsValues bindings module.world.objects →
            (∀ binding ∈ bindings, ¬IsStandardGlobal binding.1) →
              Represents module.world.objects outer json value →
                (module.exportedJson? host "default").1 = .ok (some json') := by
  have deepest : Json.depthLimit ≤ Stringify.depthLimit := by decide
  obtain ⟨json', agrees, reads⟩ := exists_jsonText exact (Nat.lt_of_lt_of_le shallow deepest)
  refine ⟨json', agrees, fun module host bindings outer value exports binds others represents => ?_⟩
  have words := (agrees.ints _ exact).mono fun n => Json.isWord_of_natAbs_le
  have parsed := Json.ofText_toText words (Nat.lt_of_le_of_lt agrees.depth shallow)
  obtain ⟨_, _, read, rfl⟩ := reads bindings
    { module.world with log := host.log, here := none, calls := [] } outer value binds others represents
  have exported : module.export? "default" = .ok (some value) := by
    rw [BuiltModule.export?, BuiltModule.exported, exports]
    rfl
  rw [BuiltModule.exportedJson?, exported]
  dsimp only
  rw [read]
  dsimp only
  rw [parsed]

end Reading

/-- A name that a module can read a global of the host by: it is an identifier and no reserved word, and
no new world has it. -/
structure Globals.IsFree (name : String) : Prop where
  identifier : Text.IsIdentifier name
  unreserved : Grammar.moduleContext.isName name
  other : ¬IsStandardGlobal name

namespace Blueprint

/-- A new world binds the names. -/
theorem exists_newWorld (blueprint : Blueprint) {bindings : List (String × Json)}
    (others : ∀ binding ∈ bindings, ¬IsStandardGlobal binding.1) :
    ∃ objects, BindsValues bindings objects ∧
      blueprint.newWorld (.ofValues bindings) =
        .ok (blueprint.furnished objects [] #[] #[globalNames] #[]) := by
  have new : BindsValues [] blueprint.emptyWorld.objects := bindsValues_initial
  obtain ⟨_, w, installed, binds⟩ := runs_install others new
  have made : blueprint.newWorld (.ofValues bindings) = .ok w := by
    rw [emptyWorld] at installed
    rw [newWorld, installed]
  exact ⟨w.objects, binds, furnished_of_newWorld made⟩

section Exports

variable {σ : Type} [Store.Source σ] {blueprint : Blueprint} {host : Host σ}
  {bindings : List (String × Json)} {x : String} {value : Json}

/-- A module that passes a name on that the host bound exports what the last value was made into. -/
theorem exports_bound (unused : host.session.isBound = false)
    (free : ∀ binding ∈ bindings, Globals.IsFree binding.1)
    (last : Json.lookup x bindings = some value) (source : blueprint.source = passingSource x) :
    ∃ built host₁ module host₂ exported,
      blueprint.buildModule (.ofValues bindings) host = (.ok built, host₁) ∧
      (built.run host₁ : Except Error Unit × BuiltModule × Host σ) = (.ok ⟨⟩, module, host₂) ∧
      module.exports = some [("default", exported)] ∧
      BindsValues bindings module.world.objects ∧
      Represents module.world.objects [Intrinsic.global.id] value.sorted exported := by
  have named : Globals.IsFree x := free _ (Json.mem_of_lookup last)
  obtain ⟨objects, binds, new⟩ := blueprint.exists_newWorld fun binding is => (free binding is).other
  have bound : host.session.bind = .ok { host.session with isBound := true } := by
    rw [Session.bind, unused]
    rfl
  obtain ⟨unit, code, next, own, passes, built⟩ :=
    buildModule_passing bound new source named.identifier named.unreserved
  let loaded := objects.push (promiseObject (.fulfilled .undefined))
  let begun : World := blueprint.furnished (loaded.push (promiseObject (.pending []))) host.log #[unit]
    #[globalNames, moduleNames [unset]] #[]
  have here : begun.scopes[1]? = some (moduleNames [unset]) := rfl
  have apart : x ≠ defaultBinding := by
    rintro rfl
    exact absurd named.identifier (by decide +kernel)
  have outside : (moduleNames [unset]).bindings.lookup x = none :=
    List.lookup_eq_none_iff.mpr (List.forall_mem_singleton.mpr (bne_iff_ne.mpr apart))
  -- Loading and running only add objects, so that the value stays what it was made as.
  have loads : KeepsBut [] objects loaded := .push _ _ _
  have begins : KeepsBut [] objects begun.objects := loads.trans (.push _ _ _)
  obtain ⟨exported, gives, represents⟩ :=
    gives_of_bindsValues binds begins last here outside rfl rfl rfl rfl rfl
  obtain ⟨module, ran, exports, made⟩ :=
    run_passing { host with session := next } blueprint.label own passes gives
  have ends : KeepsBut [] objects module.world.objects := by
    rw [made]
    exact (loads.trans (.push _ _ _)).trans (.push _ _ _)
  exact ⟨_, _, module, _, exported, built, ran, exports, binds.mono ends,
    represents.frame (ends.mono (List.nil_subset _))⟩

/-- A module that exports a name that the host bound to a JSON value exports an equal value as JSON: the
value that the name was bound to last. -/
theorem bound_json_survives (unused : host.session.isBound = false)
    (free : ∀ binding ∈ bindings, Globals.IsFree binding.1)
    (last : Json.lookup x bindings = some value) (source : blueprint.source = passingSource x)
    (shallow : value.depth ≤ 127) (exact : value.HasInts fun n => n.natAbs ≤ 2 ^ 53) :
    ∃ built host₁ module host₂ json,
      blueprint.buildModule (.ofValues bindings) host = (.ok built, host₁) ∧
      (built.run host₁ : Except Error Unit × BuiltModule × Host σ) = (.ok ⟨⟩, module, host₂) ∧
      (module.exportedJson? host₂ "default").1 = .ok (some json) ∧
      json.sorted = value.sorted := by
  have sorts := Json.agrees_sorted value
  obtain ⟨json, agrees, reads⟩ := exists_exportedJson (sorts.ints _ exact)
    (Nat.lt_succ_of_le (Nat.le_trans sorts.depth shallow))
  obtain ⟨built, host₁, module, host₂, exported, builds, runs, exports, binds, represents⟩ :=
    exports_bound unused free last source
  have others : ∀ binding ∈ bindings, ¬IsStandardGlobal binding.1 := fun binding is =>
    (free binding is).other
  exact ⟨built, host₁, module, host₂, json, builds, runs,
    reads module host₂ bindings _ exported exports binds others represents,
    (sorts.trans agrees).sorted⟩

end Exports

/-- A value with names and texts that are easily mistaken for something else, and with the largest and the
smallest of the numbers that count as exact. -/
def strangeJson : Json :=
  .object [("b", .array [.int (2 ^ 53), .int (-(2 ^ 53)), .null]), ("__proto__", .object []),
    ("10", .string "\x00\"\\\n😀"), ("9", .bool true), ("toJSON", .string "\u2028")]

/-- A module that exports a global of the host. -/
def passesConfig : Blueprint := { source := passingSource "config", origin := .anonymous }

def newHost : Host Store.Recording := { session := { rules := [] }, store := { inner := .ofList [] } }

/-- The value that a name was bound to before is not exported, and the strange one is, as it is. -/
theorem bound_strange_json_survives :
    ∃ built host₁ module host₂ json,
      passesConfig.buildModule (.ofValues [("config", .int 1), ("config", strangeJson)]) newHost =
        (.ok built, host₁) ∧
      (built.run host₁ : Except Error Unit × BuiltModule × Host Store.Recording) =
        (.ok ⟨⟩, module, host₂) ∧
      (module.exportedJson? host₂ "default").1 = .ok (some json) ∧
      json.sorted = strangeJson.sorted := by
  have free : Globals.IsFree "config" :=
    ⟨by decide +kernel, by decide +kernel, by decide +kernel⟩
  have each : ∀ binding ∈ [("config", Json.int 1), ("config", strangeJson)], Globals.IsFree binding.1 :=
    List.forall_mem_cons.mpr ⟨free, List.forall_mem_singleton.mpr free⟩
  have exact : strangeJson.HasInts fun n => n.natAbs ≤ 2 ^ 53 := by
    simp [strangeJson, Json.HasInts, Json.ItemsHaveInts, Json.MembersHaveInts]
  exact bound_json_survives rfl each rfl rfl (by decide) exact

end Blueprint
end Isolate
