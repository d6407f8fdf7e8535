import Isolate.Globals
import Isolate.Proofs.Json.Sorting
import Isolate.Proofs.Script.Calm
import Isolate.Proofs.Script.Members

/-!
# JSON values in a world

A JSON value is made into a value of a world: lists and objects become objects of their own, which nothing
else refers to. Such a value stays what it is as long as its objects do. The global names of the host hold
the values that they were bound to last.
-/

namespace Isolate

namespace Script

def arrayObject (items : List Value) : Object :=
  { proto := some Intrinsic.arrayPrototype.id, nature := .array items.length
    properties := items.mapIdx fun index item => (indexName index, { value := item }) }

def recordObject (properties : Properties) : Object :=
  { proto := some Intrinsic.objectPrototype.id, properties }

mutual

/-- What a JSON value is in a world with these objects. None of its objects lies inside itself or is
one of those around it. -/
inductive Represents (objects : Array Object) : (outer : List ObjectId) → Json → Value → Prop where
  | null {outer : List ObjectId} : Represents objects outer .null .null
  | bool {outer : List ObjectId} (value : Bool) : Represents objects outer (.bool value) (.bool value)
  | int {outer : List ObjectId} (n : Int) : Represents objects outer (.int n) (.number (.ofInt n))
  | real {outer : List ObjectId} (f : Float) : Represents objects outer (.real f) (.number (.ofFloat f))
  | string {outer : List ObjectId} (text : String) :
      Represents objects outer (.string text) (.ofString text)
  | array {outer : List ObjectId} {items : List Json} {values : List Value} {id : ObjectId}
      (apart : id ∉ outer) (here : objects[id]? = some (arrayObject values))
      (each : RepresentsItems objects (id :: outer) items values) :
      Represents objects outer (.array items) (.object id)
  | object {outer : List ObjectId} {members : List (String × Json)} {properties : Properties}
      {id : ObjectId} (apart : id ∉ outer) (distinct : Json.HasDistinctNames members)
      (here : objects[id]? = some (recordObject properties))
      (each : RepresentsMembers objects (id :: outer) members properties) :
      Represents objects outer (.object members) (.object id)

inductive RepresentsItems (objects : Array Object) : (outer : List ObjectId) → List Json →
    List Value → Prop where
  | nil {outer : List ObjectId} : RepresentsItems objects outer [] []
  | cons {outer : List ObjectId} {item : Json} {items : List Json} {value : Value} {values : List Value}
      (first : Represents objects outer item value) (later : RepresentsItems objects outer items values) :
      RepresentsItems objects outer (item :: items) (value :: values)

inductive RepresentsMembers (objects : Array Object) : (outer : List ObjectId) →
    List (String × Json) → Properties → Prop where
  | nil {outer : List ObjectId} : RepresentsMembers objects outer [] []
  | cons {outer : List ObjectId} {name : String} {json : Json} {members : List (String × Json)}
      {value : Value} {properties : Properties} (first : Represents objects outer json value)
      (later : RepresentsMembers objects outer members properties) :
      RepresentsMembers objects outer ((name, json) :: members)
        ((Text.Units.ofString name, { value := value }) :: properties)

end

section

variable {objects objects' : Array Object} {outer outer' : List ObjectId} {json : Json} {value : Value}
  {items items' : List Json} {values : List Value} {members : List (String × Json)}
  {properties : Properties} {name : String} {id : ObjectId}

theorem RepresentsItems.length_eq (each : RepresentsItems objects outer items values) :
    values.length = items.length := by
  induction items generalizing values with
  | nil =>
    cases each
    rfl
  | cons item items ih =>
    cases each with
    | cons first later => rw [List.length_cons, List.length_cons, ih later]

theorem RepresentsItems.get (each : RepresentsItems objects outer items values) {index : Nat}
    (known : items[index]? = some json) :
    ∃ value, values[index]? = some value ∧ Represents objects outer json value := by
  induction items generalizing values index with
  | nil => contradiction
  | cons item items ih =>
    cases each with
    | cons first later =>
      cases index with
      | zero =>
        cases known
        exact ⟨_, rfl, first⟩
      | succ index => exact ih later known

theorem RepresentsMembers.names (each : RepresentsMembers objects outer members properties) :
    properties.map Prod.fst = members.map fun member => Text.Units.ofString member.1 := by
  induction members generalizing properties with
  | nil =>
    cases each
    rfl
  | cons member members ih =>
    cases each with
    | cons first later => rw [List.map_cons, List.map_cons, ih later]

/-- A member of an object is found under its name. -/
theorem RepresentsMembers.get (each : RepresentsMembers objects outer members properties)
    (distinct : Json.HasDistinctNames members) (known : (name, json) ∈ members) :
    ∃ value, properties.get? (Text.Units.ofString name) = some { value := value } ∧
      Represents objects outer json value := by
  induction members generalizing properties with
  | nil => contradiction
  | cons member members ih =>
    obtain ⟨fresh, distinctLater⟩ := distinct.of_cons
    cases each with
    | cons first later =>
      rw [get?_cons]
      obtain ⟨⟨⟩⟩ | known := List.mem_cons.mp known
      · exact ⟨_, if_pos rfl, first⟩
      · rw [if_neg fun same => fresh _ known (ofString_injective same)]
        exact ih later distinctLater known

/-- What is found under a name is a visible member. -/
theorem RepresentsMembers.exists_of_get? (each : RepresentsMembers objects outer members properties)
    {name : Text.Units} {property : Property} (found : properties.get? name = some property) :
    ∃ json value, property = { value := value } ∧ Represents objects outer json value := by
  induction members generalizing properties with
  | nil =>
    cases each
    contradiction
  | cons member members ih =>
    cases each with
    | cons first later =>
      rw [get?_cons] at found
      split at found
      · cases found
        exact ⟨_, _, rfl, first⟩
      · exact ih later found

theorem RepresentsMembers.concat (each : RepresentsMembers objects outer members properties)
    (last : Represents objects outer json value) :
    RepresentsMembers objects outer (members ++ [(name, json)])
      (properties ++ [(Text.Units.ofString name, { value := value })]) := by
  induction members generalizing properties with
  | nil =>
    cases each
    exact .cons last .nil
  | cons member members ih =>
    cases each with
    | cons first later => exact .cons first (ih later)

def KeepsBut (changed : List ObjectId) (objects objects' : Array Object) : Prop :=
  ∀ id ∉ changed, ∀ object, objects[id]? = some object → objects'[id]? = some object

theorem RepresentsItems.mono (each : RepresentsItems objects outer items values)
    (keeps : ∀ item ∈ items, ∀ value, Represents objects outer item value →
      Represents objects' outer' item value) : RepresentsItems objects' outer' items values := by
  induction items generalizing values with
  | nil =>
    cases each
    exact .nil
  | cons item items ih =>
    obtain ⟨keeps, keepsLater⟩ := List.forall_mem_cons.mp keeps
    cases each with
    | cons first later => exact .cons (keeps _ first) (ih later keepsLater)

theorem RepresentsMembers.mono (each : RepresentsMembers objects outer members properties)
    (keeps : ∀ member ∈ members, ∀ value, Represents objects outer member.2 value →
      Represents objects' outer' member.2 value) :
    RepresentsMembers objects' outer' members properties := by
  induction members generalizing properties with
  | nil =>
    cases each
    exact .nil
  | cons member members ih =>
    obtain ⟨keeps, keepsLater⟩ := List.forall_mem_cons.mp keeps
    cases each with
    | cons first later => exact .cons (keeps _ first) (ih later keepsLater)

/-- A change of objects around a value leaves the value what it is, and so does forgetting some of
them. -/
theorem Represents.transfer (represents : Represents objects outer json value)
    (keeps : KeepsBut outer objects objects') (fewer : outer' ⊆ outer) :
    Represents objects' outer' json value := by
  induction json generalizing outer outer' value with
  | null =>
    cases represents
    exact .null
  | bool value =>
    cases represents
    exact .bool value
  | int n =>
    cases represents
    exact .int n
  | real f =>
    cases represents
    exact .real f
  | string text =>
    cases represents
    exact .string text
  | array items ih =>
    cases represents with
    | @array _ _ _ id apart here each =>
      refine .array (fun member => apart (fewer member)) (keeps id apart _ here)
        (each.mono fun item member value represents => ?_)
      exact ih item member represents (fun other inside =>
        keeps other fun outside => inside (List.mem_cons_of_mem _ outside)) (List.cons_subset_cons _ fewer)
  | object members ih =>
    cases represents with
    | @object _ _ _ id apart distinct here each =>
      refine .object (fun member => apart (fewer member)) distinct (keeps id apart _ here)
        (each.mono fun member is value represents => ?_)
      exact ih member is represents (fun other inside =>
        keeps other fun outside => inside (List.mem_cons_of_mem _ outside)) (List.cons_subset_cons _ fewer)

theorem Represents.frame (represents : Represents objects outer json value)
    (keeps : KeepsBut outer objects objects') : Represents objects' outer json value :=
  represents.transfer keeps (List.Subset.refl _)

theorem KeepsBut.refl (changed : List ObjectId) (objects : Array Object) :
    KeepsBut changed objects objects := fun _ _ _ => id

theorem KeepsBut.trans {objects'' : Array Object} {changed : List ObjectId}
    (first : KeepsBut changed objects objects') (later : KeepsBut changed objects' objects'') :
    KeepsBut changed objects objects'' :=
  fun id apart object known => later id apart object (first id apart object known)

theorem KeepsBut.mono {changed changed' : List ObjectId} (keeps : KeepsBut changed objects objects')
    (more : changed ⊆ changed') : KeepsBut changed' objects objects' :=
  fun id apart => keeps id fun member => apart (more member)

theorem KeepsBut.push (changed : List ObjectId) (objects : Array Object) (object : Object) :
    KeepsBut changed objects (objects.push object) := by
  intro id _ other known
  obtain ⟨old, rfl⟩ := Array.getElem?_eq_some_iff.mp known
  exact Array.getElem?_push_lt old

/-- An object that was added is none of those that are kept. -/
theorem KeepsBut.of_push {object : Object}
    (keeps : KeepsBut [objects.size] (objects.push object) objects') :
    KeepsBut [] objects objects' := by
  intro id _ other known
  obtain ⟨old, -⟩ := Array.getElem?_eq_some_iff.mp known
  refine keeps id (fun same => ?_) other (KeepsBut.push [] _ _ id List.not_mem_nil other known)
  rw [List.mem_singleton.mp same] at old
  exact Nat.lt_irrefl _ old

theorem KeepsBut.modify (objects : Array Object) (id : ObjectId) (f : Object → Object) :
    KeepsBut [id] objects (objects.modify id f) := by
  intro other apart object known
  rw [Array.getElem?_modify, if_neg fun same => apart (List.mem_singleton.mpr same.symm), known]

end

/-- None of these numbers is one from `low` on below `high`. -/
def AreOutside (outer : List ObjectId) (low high : Nat) : Prop :=
  ∀ id : Nat, id ∈ outer → id < low ∨ high ≤ id

theorem AreOutside.mono {outer : List ObjectId} {low low' high high' : Nat}
    (outside : AreOutside outer low high) (from_le : low ≤ low') (le_to : high' ≤ high) :
    AreOutside outer low' high' := by
  intro id member
  have := outside id member
  omega

/-- Objects were added, and none of those that were there is another. What holds of the new ones holds
inside all objects but these. -/
structure Adds (objects objects' : Array Object) (Holds : List ObjectId → Prop) : Prop where
  size : objects.size ≤ objects'.size
  keeps : KeepsBut [] objects objects'
  holds (outer : List ObjectId) (outside : AreOutside outer objects.size objects'.size) : Holds outer

def IsMade (json : Json) : Prop :=
  ∀ w : World, Runs (Globals.toValue json) w fun value w' =>
    Adds w.objects w'.objects fun outer => Represents w'.objects outer json value

/-- A value that is no list and no object is made at once. -/
theorem isMade_of_pure {json : Json} {value : Value} (same : Globals.toValue json = pure value)
    (represents : ∀ objects outer, Represents objects outer json value) : IsMade json := by
  intro w
  rw [same]
  exact .pure ⟨Nat.le_refl _, .refl _ _, fun outer _ => represents _ outer⟩

theorem runs_itemValues {items : List Json} (made : ∀ item ∈ items, IsMade item) (w : World) :
    Runs (Globals.itemValues items) w fun values w' =>
      Adds w.objects w'.objects fun outer => RepresentsItems w'.objects outer items values := by
  induction items generalizing w with
  | nil =>
    rw [Globals.itemValues]
    exact .pure ⟨Nat.le_refl _, .refl _ _, fun _ _ => .nil⟩
  | cons item items ih =>
    obtain ⟨made, madeLater⟩ := List.forall_mem_cons.mp made
    rw [Globals.itemValues]
    refine (made w).bind fun value w₁ first => (ih madeLater w₁).bind fun values w₂ later => .pure ?_
    refine ⟨Nat.le_trans first.size later.size, first.keeps.trans later.keeps, fun outer outside => ?_⟩
    have represents := first.holds outer (outside.mono (Nat.le_refl _) later.size)
    exact .cons (represents.frame (later.keeps.mono (List.nil_subset _)))
      (later.holds outer (outside.mono first.size (Nat.le_refl _)))

/-- The elements are made before the array, which holds nothing else. -/
theorem isMade_array {items : List Json} (made : ∀ item ∈ items, IsMade item) :
    IsMade (.array items) := by
  intro w
  rw [Globals.toValue]
  refine (runs_itemValues made w).bind fun values w₁ added => ?_
  refine ⟨_, { w₁ with objects := w₁.objects.push (arrayObject values) }, rfl, ?_, ?_,
    fun outer outside => ?_⟩
  · simpa using Nat.le_succ_of_le added.size
  · exact added.keeps.trans (.push _ _ _)
  · rw [Array.size_push] at outside
    refine .array (fun member => ?_) Array.getElem?_push_size ?_
    · have := outside _ member
      have := added.size
      omega
    · have inside : AreOutside (w₁.objects.size :: outer) w.objects.size w₁.objects.size :=
        List.forall_mem_cons.mpr ⟨.inr (Nat.le_refl _), outside.mono (Nat.le_refl _) (Nat.le_succ _)⟩
      exact (added.holds _ inside).mono fun item _ value represents =>
        represents.frame (.push _ _ _)

/-- A member is put behind the others of a plain object. -/
theorem defineMember_of_fresh {w : World} {id : ObjectId} {properties : Properties} {name : Text.Units}
    (here : w.objects[id]? = some (recordObject properties))
    (fresh : ∀ member ∈ properties, member.1 ≠ name) (value : Value) :
    Runs (defineMember id name value) w fun _ w' =>
      w'.objects.size = w.objects.size ∧ KeepsBut [id] w.objects w'.objects ∧
        w'.objects[id]? = some (recordObject (properties ++ [(name, { value := value })])) := by
  refine ⟨⟨⟩, _, rfl, ?_, KeepsBut.modify _ _ _, ?_⟩
  · exact Array.size_modify
  · change (w.objects.modify id _)[id]? = _
    rw [Array.getElem?_modify, if_pos rfl, here, Option.map_some]
    refine congrArg some ?_
    rw [← insert_of_fresh _ fresh]
    cases indexOf? name <;> rfl

/-- The members of an object are made and put behind those that it has. -/
theorem runs_defineMembers {members : List (String × Json)} (done : List (String × Json)) {id : ObjectId}
    (made : ∀ member ∈ members, IsMade member.2) (distinct : Json.HasDistinctNames (done ++ members))
    {w : World} {properties : Properties} (here : w.objects[id]? = some (recordObject properties))
    (before : ∀ outer, AreOutside outer id w.objects.size →
      RepresentsMembers w.objects (id :: outer) done properties) :
    Runs (Globals.defineMembers id members) w fun _ w' =>
      w.objects.size ≤ w'.objects.size ∧ KeepsBut [id] w.objects w'.objects ∧
        ∃ properties', w'.objects[id]? = some (recordObject properties') ∧
          ∀ outer, AreOutside outer id w'.objects.size →
            RepresentsMembers w'.objects (id :: outer) (done ++ members) properties' := by
  induction members generalizing done w properties with
  | nil =>
    rw [Globals.defineMembers]
    refine .pure ⟨Nat.le_refl _, .refl _ _, properties, here, ?_⟩
    rw [List.append_nil]
    exact before
  | cons member members ih =>
    obtain ⟨name, json⟩ := member
    obtain ⟨made, madeLater⟩ := List.forall_mem_cons.mp made
    obtain ⟨old, -⟩ := Array.getElem?_eq_some_iff.mp here
    rw [Globals.defineMembers]
    refine (made w).bind fun value w₁ added => ?_
    have here₁ := added.keeps id List.not_mem_nil _ here
    have fresh : ∀ member ∈ properties, member.1 ≠ Text.Units.ofString name := by
      intro member is same
      have named : Text.Units.ofString name ∈ properties.map Prod.fst :=
        List.mem_map.mpr ⟨member, is, same⟩
      rw [(before [] nofun).names, List.mem_map] at named
      obtain ⟨other, is, same⟩ := named
      exact (List.pairwise_append.mp (List.pairwise_map.mp distinct)).2.2 other is _ List.mem_cons_self
        (ofString_injective same)
    refine (defineMember_of_fresh here₁ fresh value).bind fun _ w₂ put => ?_
    obtain ⟨size, keeps, here₂⟩ := put
    rw [List.append_cons] at distinct ⊢
    have keepsInner (outer : List ObjectId) : KeepsBut (id :: outer) w₁.objects w₂.objects :=
      keeps.mono (List.cons_subset_cons _ (List.nil_subset _))
    refine (ih _ madeLater distinct here₂ fun outer outside => ?_).mono fun _ w₃ rest => ?_
    · rw [size] at outside
      have outsideOld : AreOutside outer id w.objects.size := outside.mono (Nat.le_refl _) added.size
      have outsideNew : AreOutside (id :: outer) w.objects.size w₁.objects.size :=
        List.forall_mem_cons.mpr ⟨.inl old, outside.mono (Nat.le_of_lt old) (Nat.le_refl _)⟩
      have first := (added.holds _ outsideNew).frame (keepsInner outer)
      refine RepresentsMembers.concat ((before outer outsideOld).mono fun member _ value represents => ?_)
        first
      exact (represents.frame (added.keeps.mono (List.nil_subset _))).frame (keepsInner outer)
    · obtain ⟨size', keeps', known⟩ := rest
      have size₁ := added.size
      exact ⟨by omega, ((added.keeps.mono (List.nil_subset _)).trans keeps).trans keeps', known⟩

/-- An object is made before its members, which lie inside it. -/
theorem isMade_object {members : List (String × Json)} (made : ∀ member ∈ members, IsMade member.2)
    (distinct : Json.HasDistinctNames members) : IsMade (.object members) := by
  intro w
  rw [Globals.toValue]
  let w₁ : World := { w with objects := w.objects.push (recordObject []) }
  have begun : newObject w = .ok w.objects.size w₁ := rfl
  have here : w₁.objects[w.objects.size]? = some (recordObject []) := Array.getElem?_push_size
  have size : w₁.objects.size = w.objects.size + 1 := Array.size_push _
  have filled := runs_defineMembers [] made distinct here fun _ _ => .nil
  obtain ⟨_, w₂, done, size', keeps, properties, here', each⟩ := filled
  refine ⟨_, w₂, (run_bind_of_ok begun _).trans (run_bind_of_ok done _), by omega, keeps.of_push,
    fun outer outside => .object (fun member => ?_) distinct here' (each outer outside)⟩
  have := outside _ member
  omega

/-- The sorted form of every JSON value can be made. -/
theorem isMade_sorted (json : Json) : IsMade json.sorted := by
  induction json with
  | null =>
    change IsMade (.null)
    exact isMade_of_pure (by rw [Globals.toValue]) fun _ _ => .null
  | bool value =>
    change IsMade (.bool value)
    exact isMade_of_pure (by rw [Globals.toValue]) fun _ _ => .bool value
  | int n =>
    change IsMade (.int n)
    exact isMade_of_pure (by rw [Globals.toValue]) fun _ _ => .int n
  | real f =>
    change IsMade (.real f)
    exact isMade_of_pure (by rw [Globals.toValue]) fun _ _ => .real f
  | string text =>
    change IsMade (.string text)
    exact isMade_of_pure (by rw [Globals.toValue]) fun _ _ => .string text
  | array items ih =>
    rw [Json.sorted, Json.sortedItems_eq]
    exact isMade_array (List.forall_mem_map.mpr ih)
  | object members ih =>
    rw [Json.sorted]
    refine isMade_object (fun member is => ?_) (Json.sortedMembers_ascending members).distinct
    obtain ⟨json, is, same⟩ := Json.exists_of_mem_sortedMembers is
    rw [same]
    exact ih _ is

end Script
end Isolate
