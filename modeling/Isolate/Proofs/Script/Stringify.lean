import Isolate.Proofs.Script.Representation
import Isolate.Script.Stringify

/-!
# Writing values as JSON text

What a JSON value is made into is written as the text of an equal JSON value: the members of an object
stand in the order in which the object lists its names.
-/

namespace Isolate

open Text

namespace Text.Units

theorem ofList_cons (c : Char) (text : List Char) : ofList (c :: text) = ofChar c ++ ofList text :=
  List.flatMap_cons

theorem ofList_append (text later : List Char) : ofList (text ++ later) = ofList text ++ ofList later :=
  List.flatMap_append

theorem ofList_flatMap (f : Char → List Char) (text : List Char) :
    ofList (text.flatMap f) = text.flatMap fun c => ofList (f c) :=
  List.flatMap_assoc

theorem ofList_intercalate (separator : List Char) (texts : List (List Char)) :
    ofList (separator.intercalate texts) = (ofList separator).intercalate (texts.map ofList) := by
  induction texts with
  | nil => rfl
  | cons text texts ih =>
    cases texts with
    | nil => simp
    | cons next texts =>
      rw [List.map_cons] at ih ⊢
      rw [List.map_cons, List.intercalate_cons_cons, List.intercalate_cons_cons, ofList_append,
        ofList_append, ih]

end Text.Units

namespace Json

/-- The elements of a list stand between commas. -/
theorem writeItems_eq (items : List Json) :
    writeItems items = [','].intercalate (items.map write) ++ [']'] := by
  induction items with
  | nil => rw [writeItems]; rfl
  | cons item items ih =>
    cases items with
    | nil => rw [writeItems]; simp
    | cons next items =>
      rw [writeItems, ih, List.map_cons, List.map_cons, List.map_cons, List.intercalate_cons_cons]
      simp

def writeMember (member : String × Json) : List Char := writeString member.1 ++ ':' :: write member.2

/-- The members of an object stand between commas. -/
theorem writeMembers_eq (members : List (String × Json)) :
    writeMembers members = [','].intercalate (members.map writeMember) ++ ['}'] := by
  induction members with
  | nil => rw [writeMembers]; rfl
  | cons member members ih =>
    cases members with
    | nil => rw [writeMembers]; simp [writeMember]
    | cons next members =>
      rw [writeMembers, ih, List.map_cons, List.map_cons, List.map_cons, List.intercalate_cons_cons]
      simp [writeMember]

end Json

namespace Script.Stringify

/-- A unit beyond the backslash stands for itself. -/
theorem quoteUnit_of_lt {u : UInt16} (large : 0x5c < u.toNat) : quoteUnit u = [u] := by
  have apart {v : UInt16} (small : v.toNat ≤ 0x5c) : u ≠ v := by
    rintro rfl
    omega
  have noControl : ¬u < 0x20 := by
    rw [UInt16.lt_iff_toNat_lt]
    have : (0x20 : UInt16).toNat = 0x20 := rfl
    omega
  rw [quoteUnit, if_neg (apart (by decide)), if_neg (apart (by decide)), if_neg (apart (by decide)),
    if_neg (apart (by decide)), if_neg (apart (by decide)), if_neg (apart (by decide)),
    if_neg (apart (by decide)), if_neg noControl]

theorem lt_of_mem_ofChar {c : Char} {u : UInt16} (large : 0x5c < c.toNat) (member : u ∈ Units.ofChar c) :
    0x5c < u.toNat := by
  have bound : c.toNat < 0x110000 := by
    have := c.valid
    rcases this with small | large
    · exact Nat.lt_trans small (by decide)
    · exact large.2
  rw [Units.ofChar] at member
  split at member
  next small =>
    rw [List.mem_singleton.mp member, UInt16.toNat_ofNat_of_lt' small]
    exact large
  next =>
    obtain rfl | rfl := List.mem_pair.mp member
    all_goals
      rw [UInt16.toNat_ofNat_of_lt' (by rw [UInt16.size]; omega)]
      omega

/-- A character is escaped as it is in JSON text. -/
theorem quote_char (c : Char) :
    (Units.ofChar c).flatMap quoteUnit = Units.ofList (Json.escapeStringChar c) := by
  by_cases large : 0x5c < c.toNat
  · have plain : Json.escapeStringChar c = [c] := by
      rw [Json.escapeStringChar.eq_def]
      split
      case h_8 => exact if_neg (by omega)
      all_goals exact absurd large (by decide)
    have units : ∀ u ∈ Units.ofChar c, quoteUnit u = [u] := fun u member =>
      quoteUnit_of_lt (lt_of_mem_ofChar large member)
    rw [plain, List.flatMap_congr units, List.flatMap_singleton', Units.ofList, List.flatMap_singleton]
  · have low : ∀ n ≤ 0x5c, (Units.ofChar (Char.ofNat n)).flatMap quoteUnit =
        Units.ofList (Json.escapeStringChar (Char.ofNat n)) := by decide +kernel
    have known := low c.toNat (by omega)
    rwa [Char.ofNat_toNat] at known

/-- A text is quoted as it is in JSON text. -/
theorem quote_ofString (text : String) :
    quote (Units.ofString text) = Units.ofList (Json.writeString text) := by
  have pieces : quote (Units.ofString text) =
      0x22 :: (text.toList.flatMap fun c => (Units.ofChar c).flatMap quoteUnit) ++ [0x22] := by
    rw [quote, Units.ofString, Units.pieces_ofList, List.flatMap_map]
  rw [pieces, List.flatMap_congr fun c _ => quote_char c, Json.writeString, Units.ofList_append,
    Units.ofList_cons, Units.ofList_flatMap]
  rfl

/-- Without a gap, the parts stand between commas. -/
theorem enclose_plain (indent : Units) (opening closing : UInt16) (parts : List Units) :
    enclose {} indent opening closing parts = opening :: ([0x2c].intercalate parts ++ [closing]) := by
  cases parts <;> rfl

theorem enclose_items (indent : Units) (items : List Json) :
    enclose {} indent 0x5b 0x5d (items.map fun item => Units.ofList item.write) =
      Units.ofList (Json.array items).write := by
  rw [enclose_plain, Json.write, Json.writeItems_eq, Units.ofList_cons, Units.ofList_append,
    Units.ofList_intercalate, List.map_map]
  rfl

theorem enclose_members (indent : Units) (members : List (String × Json)) :
    enclose {} indent 0x7b 0x7d (members.map fun member => Units.ofList (Json.writeMember member)) =
      Units.ofList (Json.object members).write := by
  rw [enclose_plain, Json.write, Json.writeMembers_eq, Units.ofList_cons, Units.ofList_append,
    Units.ofList_intercalate, List.map_map]
  rfl

end Script.Stringify

namespace Script

variable {w : World}

section Loops

variable {α β γ : Type}

theorem run_mapM_of_ok {action : β → Action γ} {items : List α} {key : α → β} (result : α → γ)
    (each : ∀ item ∈ items, action (key item) w = .ok (result item) w) :
    (items.map key).mapM action w = .ok (items.map result) w := by
  induction items with
  | nil => rfl
  | cons item items ih =>
    obtain ⟨first, later⟩ := List.forall_mem_cons.mp each
    rw [List.map_cons, List.mapM_cons, run_bind_of_ok first, run_bind_of_ok (ih later)]
    rfl

theorem run_filterMapM_of_ok {action : β → Action (Option γ)} {items : List α} {key : α → β}
    (result : α → γ) (each : ∀ item ∈ items, action (key item) w = .ok (some (result item)) w) :
    (items.map key).filterMapM action w = .ok (items.map result) w := by
  have loop (found : List γ) : List.filterMapM.loop action (items.map key) found w =
      .ok (found.reverse ++ items.map result) w := by
    induction items generalizing found with
    | nil =>
      rw [List.map_nil, List.map_nil, List.append_nil]
      rfl
    | cons item items ih =>
      obtain ⟨first, later⟩ := List.forall_mem_cons.mp each
      rw [List.map_cons, List.filterMapM.loop, run_bind_of_ok first]
      dsimp only
      rw [ih later, List.reverse_cons, List.append_assoc]
      rfl
  exact loop []

theorem run_filterM_of_ok {keeps : α → Action Bool} {items : List α}
    (each : ∀ item ∈ items, keeps item w = .ok true w) : items.filterM keeps w = .ok items w := by
  have loop (kept : List α) : items.filterAuxM keeps kept w = .ok (items.reverse ++ kept) w := by
    induction items generalizing kept with
    | nil => rfl
    | cons item items ih =>
      obtain ⟨first, later⟩ := List.forall_mem_cons.mp each
      rw [List.filterAuxM, run_bind_of_ok first]
      refine (ih later (item :: kept)).trans ?_
      rw [List.reverse_cons, List.append_assoc]
      rfl
  refine (run_bind_of_ok (loop []) _).trans ?_
  rw [List.append_nil, List.reverse_reverse]
  rfl

end Loops

/-- The objects that lists and plain objects inherit from are those that every world starts with. -/
structure World.HasPrototypes (w : World) : Prop where
  object : w.objects[Intrinsic.objectPrototype.id]? = some Intrinsic.objectPrototype.object
  array : w.objects[Intrinsic.arrayPrototype.id]? = some Intrinsic.arrayPrototype.object

theorem World.HasPrototypes.mono {w w' : World} (prototypes : w.HasPrototypes)
    (keeps : KeepsBut [] w.objects w'.objects) : w'.HasPrototypes where
  object := keeps _ List.not_mem_nil _ prototypes.object
  array := keeps _ List.not_mem_nil _ prototypes.array

/-- The name of the method that puts another value in the place of one that is written. -/
def toJsonName : Units := Units.ofString "toJSON"

variable {outer : List ObjectId} {json : Json} {value : Value} {id : ObjectId}
  {values : List Value} {properties : Properties}

theorem toJson_of_objectPrototype (prototypes : w.HasPrototypes) (receiver : Value) (fuel : Nat) :
    memberFrom receiver toJsonName fuel (some Intrinsic.objectPrototype.id) w = .ok none w := by
  cases fuel with
  | zero => rfl
  | succ fuel =>
    have known := World.object_of_known prototypes.object
    have own : ownMember? Intrinsic.objectPrototype.id toJsonName w = .ok none w := by
      rw [ownMember?_plain (by rw [known]; rfl), known]
      rfl
    rw [memberFrom_inherited own (computedMember?_none (by decide) (by decide) _ _), known]
    cases fuel <;> rfl

theorem toJson_of_arrayPrototype (prototypes : w.HasPrototypes) (receiver : Value) (fuel : Nat) :
    memberFrom receiver toJsonName fuel (some Intrinsic.arrayPrototype.id) w = .ok none w := by
  cases fuel with
  | zero => rfl
  | succ fuel =>
    have known := World.object_of_known prototypes.array
    have own : ownMember? Intrinsic.arrayPrototype.id toJsonName w = .ok none w := by
      rw [ownMember?_array (by rw [known]; rfl) (by decide), known]
      rfl
    rw [memberFrom_inherited own (computedMember?_none (by decide) (by decide) _ _), known]
    exact toJson_of_objectPrototype prototypes receiver fuel

theorem ownMember?_arrayObject (here : w.objects[id]? = some (arrayObject values)) {name : Units}
    (other : name ≠ lengthName) :
    ownMember? id name w = .ok ((arrayObject values).properties.get? name) w := by
  have object := World.object_of_known here
  rw [ownMember?_array (by rw [object]; rfl) other, object]

theorem ownMember?_recordObject (here : w.objects[id]? = some (recordObject properties)) (name : Units) :
    ownMember? id name w = .ok (properties.get? name) w := by
  have object := World.object_of_known here
  rw [ownMember?_plain (by rw [object]; rfl), object]
  rfl

/-- An element of an array is read under its index. -/
theorem getMember_arrayObject (here : w.objects[id]? = some (arrayObject values)) {index : Nat}
    (known : values[index]? = some value) :
    getMember (.object id) (indexName index) w = .ok value w := by
  have noLength : indexName index ≠ lengthName :=
    ne_indexName (u := 0x6c) (by decide) (by decide) index
  have own := ownMember?_arrayObject here noLength
  rw [arrayObject, get?_mapIdx indexName_injective, known] at own
  exact getMember_own own

/-- An array has no method that replaces it. -/
theorem toJson_of_arrayObject (prototypes : w.HasPrototypes)
    (here : w.objects[id]? = some (arrayObject values)) :
    getMember (.object id) toJsonName w = .ok .undefined w := by
  have notLength : toJsonName ≠ lengthName := by decide
  have own := ownMember?_arrayObject here notLength
  have absent : (arrayObject values).properties.get? toJsonName = none := by
    rw [get?_eq_none_iff]
    intro member is same
    obtain ⟨index, inside, rfl⟩ := List.mem_mapIdx.mp is
    have apart : indexName index ≠ toJsonName := ne_indexName (u := 0x74) (by decide) (by decide) index
    exact apart same.symm
  rw [absent] at own
  refine getMember_of_absent own (computedMember?_none (by decide) (by decide) _ _) fun fuel => ?_
  rw [World.object_of_known here]
  exact toJson_of_arrayPrototype prototypes _ fuel

theorem isCallable_run (value : Value) (w : World) :
    isCallable value w = .ok (callable? w value).isSome w := rfl

/-- A value that was made of a JSON value is no function. -/
theorem Represents.not_callable (represents : Represents w.objects outer json value) :
    callable? w value = none := by
  cases represents with
  | array apart here each =>
    rw [callable?, World.object_of_known here]
    rfl
  | object apart distinct here each =>
    rw [callable?, World.object_of_known here]
    rfl
  | _ => rfl

/-- What an object has under the name of the method that replaces it is no function. -/
theorem toJson_of_recordObject (prototypes : w.HasPrototypes)
    (here : w.objects[id]? = some (recordObject properties)) {members : List (String × Json)}
    (each : RepresentsMembers w.objects outer members properties) :
    ∃ value, getMember (.object id) toJsonName w = .ok value w ∧ callable? w value = none := by
  have own := ownMember?_recordObject here toJsonName
  cases found : properties.get? toJsonName with
  | none =>
    rw [found] at own
    refine ⟨_, getMember_of_absent own (computedMember?_none (by decide) (by decide) _ _) fun fuel => ?_,
      rfl⟩
    rw [World.object_of_known here]
    exact toJson_of_objectPrototype prototypes _ fuel
  | some property =>
    rw [found] at own
    obtain ⟨json, value, rfl, represents⟩ := each.exists_of_get? found
    exact ⟨value, getMember_own own, represents.not_callable⟩

namespace Stringify

/-- No object has a method that puts another value in its place, and no object is a wrapper. -/
theorem replaced_object {call : Invoke} {method : Value}
    (known : getMember (.object id) toJsonName w = .ok method w) (noMethod : callable? w method = none)
    (noWrapper : ∀ value, (w.object id).nature ≠ .wrapper value) (holder : Value) (name : Units) :
    replaced call {} holder name (.object id) w = .ok (.object id) w := by
  have plain : isCallable method w = .ok false w := by
    rw [isCallable_run, noMethod]
    rfl
  refine (run_bind_of_ok known _).trans ((run_bind_of_ok plain _).trans ?_)
  simp only [Bool.false_eq_true, if_false, pure_bind]
  rw [get_bind_run]
  cases found : (w.object id).nature with
  | wrapper value => exact absurd found (noWrapper value)
  | _ => rfl

/-- Nothing is put in the place of what a JSON value was made into. -/
theorem replaced_of_represents (prototypes : w.HasPrototypes)
    (represents : Represents w.objects outer json value) (call : Invoke) (holder : Value) (name : Units) :
    replaced call {} holder name value w = .ok value w := by
  cases represents with
  | array apart here each =>
    refine replaced_object (toJson_of_arrayObject prototypes here) rfl (fun value => ?_) holder name
    rw [World.object_of_known here]
    nofun
  | object apart distinct here each =>
    obtain ⟨method, known, noMethod⟩ := toJson_of_recordObject prototypes here each
    refine replaced_object known noMethod (fun value => ?_) holder name
    rw [World.object_of_known here]
    nofun
  | _ => rfl

/-- A plain object lists all its members. -/
theorem visibleNames_of_recordObject (here : w.objects[id]? = some (recordObject properties))
    {members : List (String × Json)} (each : RepresentsMembers w.objects outer members properties) :
    visibleNames id w = .ok (ownNames (recordObject properties)) w := by
  rw [visibleNames, get_bind_run, World.object_of_known here]
  refine run_filterM_of_ok fun name listed => ?_
  have own := ownMember?_recordObject here name
  rw [run_bind_of_ok own]
  have named : name ∈ properties.map Prod.fst := (ownNames_perm rfl).mem_iff.mp listed
  obtain ⟨member, is, rfl⟩ := List.mem_map.mp named
  cases found : properties.get? member.1 with
  | none => exact absurd rfl (get?_eq_none_iff.mp found member is)
  | some property =>
    obtain ⟨json, value, rfl, represents⟩ := each.exists_of_get? found
    rfl

def namesOf (members : List (String × Json)) : List Units :=
  ownNames (recordObject (members.map fun member => (Units.ofString member.1, { value := .undefined })))

theorem ownNames_of_represents {members : List (String × Json)}
    (each : RepresentsMembers w.objects outer members properties) :
    ownNames (recordObject properties) = namesOf members := by
  unfold namesOf ownNames recordObject
  dsimp only
  rw [each.names, List.map_map]
  rfl

/-- The names are those of the members, in some order. -/
theorem exists_perm_namesOf (members : List (String × Json)) :
    ∃ between, members.Perm between ∧
      between.map (fun member => Units.ofString member.1) = namesOf members := by
  have listed : (namesOf members).Perm (members.map fun member => Units.ofString member.1) := by
    refine (ownNames_perm rfl).trans (.of_eq ?_)
    exact List.map_map
  obtain ⟨between, listed, perm⟩ := (congrFun₂ (List.eq_map_comp_perm _) _ _).mpr listed
  exact ⟨between, perm.symm, listed.symm⟩

/-- In every world, what the one JSON value was made into is written as the other one. -/
def IsWrittenAs (json json' : Json) : Prop :=
  ∀ (call : Invoke) (w : World) (outer : List ObjectId) (value : Value) (fuel : Nat) (indent : Units)
    (holder : Value) (name : Units), w.HasPrototypes → Represents w.objects outer json value →
      json.depth < fuel →
        member call {} fuel outer indent holder name value w = .ok (some (Units.ofList json'.write)) w

/-- Every element of an array is read under its index and written. -/
theorem isWrittenAs_array {items : List Json} {f : Json → Json}
    (each : ∀ item ∈ items, IsWrittenAs item (f item)) :
    IsWrittenAs (.array items) (.array (items.map f)) := by
  intro call w outer value fuel indent holder name prototypes represents deep
  obtain ⟨fuel, rfl⟩ := Nat.exists_eq_add_one.mpr (Nat.lt_of_le_of_lt (Nat.zero_le _) deep)
  refine (run_bind_of_ok (replaced_of_represents prototypes represents call holder name) _).trans ?_
  cases represents with
  | @array _ _ values id apart here parts =>
    have indices : List.range values.length = items.zipIdx.map Prod.snd := by
      rw [List.zipIdx_map_snd, List.range_eq_range', parts.length_eq]
    dsimp only
    rw [get_bind_run, World.object_of_known here, List.contains_eq_mem, decide_eq_false apart]
    simp only [Bool.false_eq_true, if_false, arrayObject]
    rw [indices]
    refine (run_bind_of_ok (run_mapM_of_ok (fun item => Units.ofList (f item.1).write)
      fun item listed => ?_) _).trans ?_
    · have known := List.mem_zipIdx_iff_getElem?.mp listed
      obtain ⟨part, is, represents⟩ := parts.get known
      have inside := List.mem_of_getElem? known
      have shallow := (Json.depth_array_lt_iff.mp deep).2 _ inside
      rw [run_bind_of_ok (getMember_arrayObject here is)]
      exact run_bind_of_ok (each _ inside call w _ _ _ _ _ _ prototypes represents shallow) _
    · refine congrArg (fun text => EStateM.Result.ok (some text) w) ?_
      rw [← enclose_items indent, List.map_map]
      refine congrArg (enclose {} indent 0x5b 0x5d) ?_
      conv_rhs => rw [← List.zipIdx_map_fst 0 items, List.map_map]
      rfl

/-- Every member of an object is read under its name and written, in the order of the names. -/
theorem isWrittenAs_object {members between : List (String × Json)} {f : String × Json → Json}
    (each : ∀ member ∈ members, IsWrittenAs member.2 (f member)) (perm : members.Perm between)
    (listed : between.map (fun member => Units.ofString member.1) = namesOf members) :
    IsWrittenAs (.object members) (.object (between.map fun member => (member.1, f member))) := by
  intro call w outer value fuel indent holder name prototypes represents deep
  obtain ⟨fuel, rfl⟩ := Nat.exists_eq_add_one.mpr (Nat.lt_of_le_of_lt (Nat.zero_le _) deep)
  refine (run_bind_of_ok (replaced_of_represents prototypes represents call holder name) _).trans ?_
  cases represents with
  | @object _ _ properties id apart distinct here parts =>
    dsimp only
    rw [get_bind_run, World.object_of_known here, List.contains_eq_mem, decide_eq_false apart]
    simp only [Bool.false_eq_true, if_false, recordObject]
    rw [run_bind_of_ok (visibleNames_of_recordObject here parts)]
    rw [ownNames_of_represents parts, ← listed]
    refine (run_bind_of_ok (run_filterMapM_of_ok
      (fun member => Units.ofList (Json.writeMember (member.1, f member))) fun member is => ?_) _).trans ?_
    · have inside := perm.mem_iff.mpr is
      obtain ⟨part, found, represents⟩ := parts.get distinct inside
      have shallow := (Json.depth_object_lt_iff.mp deep).2 _ inside
      have own := ownMember?_recordObject here (Units.ofString member.1)
      rw [found] at own
      rw [run_bind_of_ok (getMember_own own),
        run_bind_of_ok (each _ inside call w _ _ _ _ _ _ prototypes represents shallow)]
      refine congrArg (fun text => EStateM.Result.ok (some text) w) ?_
      rw [quote_ofString, Json.writeMember, Units.ofList_append, Units.ofList_cons]
      exact List.append_assoc ..
    · refine congrArg (fun text => EStateM.Result.ok (some text) w) ?_
      rw [← enclose_members indent, List.map_map]
      rfl

/-- A value that is neither a list nor an object is written at once. -/
theorem isWrittenAs_plain (value : Value)
    (only : ∀ objects outer value', Represents objects outer json value' → value' = value)
    (written : ∀ call fuel outer indent holder name w,
      member call {} (fuel + 1) outer indent holder name value w =
        .ok (some (Units.ofList json.write)) w) :
    IsWrittenAs json json := by
  intro call w outer value fuel indent holder name _ represents deep
  obtain ⟨fuel, rfl⟩ := Nat.exists_eq_add_one.mpr (Nat.lt_of_le_of_lt (Nat.zero_le _) deep)
  rw [only _ _ _ represents]
  exact written ..

theorem toText_int (n : Int) : (Number.int n).toText = Json.writeInt n := by
  cases n <;> rfl

/-- What every JSON value with exact numbers was made into is written as an equal JSON value. -/
theorem exists_isWrittenAs (exact : json.HasInts fun n => n.natAbs ≤ Number.exactBound) :
    ∃ json', json.Agrees json' ∧ IsWrittenAs json json' := by
  induction json with
  | null =>
    refine ⟨_, .refl _, isWrittenAs_plain .null (fun _ _ value represents => ?_)
      fun _ _ _ _ _ _ _ => rfl⟩
    cases represents
    rfl
  | bool value =>
    refine ⟨_, .refl _, isWrittenAs_plain (.bool value) (fun _ _ value' represents => ?_)
      fun _ _ _ _ _ _ _ => ?_⟩
    · cases represents
      rfl
    · cases value <;> rfl
  | int n =>
    rw [Json.hasInts_int] at exact
    refine ⟨_, .refl _, isWrittenAs_plain (.number (.int n)) (fun _ _ value represents => ?_)
      fun _ _ _ _ _ _ w => ?_⟩
    · cases represents
      rw [Number.ofInt, if_pos exact]
    · refine congrArg (fun text => EStateM.Result.ok (some text) w) ?_
      rw [Json.write, ← toText_int]
      rfl
  | real f => exact absurd exact (by simp [Json.HasInts])
  | string text =>
    refine ⟨_, .refl _, isWrittenAs_plain (.ofString text) (fun _ _ value represents => ?_)
      fun _ _ _ _ _ _ w => ?_⟩
    · cases represents
      rfl
    · refine congrArg (fun text => EStateM.Result.ok (some text) w) ?_
      rw [Json.write]
      exact quote_ofString text
  | array items ih =>
    rw [Json.hasInts_array] at exact
    choose! f agrees written using fun item member => ih item member (exact item member)
    exact ⟨_, .array agrees, isWrittenAs_array written⟩
  | object members ih =>
    rw [Json.hasInts_object] at exact
    choose! f agrees written using fun member is => ih member is (exact member is)
    obtain ⟨between, perm, listed⟩ := exists_perm_namesOf members
    by_cases distinct : Json.HasDistinctNames members
    · exact ⟨_, .object_perm distinct perm agrees, isWrittenAs_object written perm listed⟩
    · refine ⟨_, .refl _, fun _ _ _ _ _ _ _ _ _ represents => ?_⟩
      cases represents with
      | object _ known => exact absurd known distinct

/-- The text of what such a JSON value was made into is that of an equal one. -/
theorem exists_text (exact : json.HasInts fun n => n.natAbs ≤ Number.exactBound)
    (shallow : json.depth < depthLimit) :
    ∃ json', json.Agrees json' ∧
      ∀ (call : Invoke) (w : World) (outer : List ObjectId) (value : Value), w.HasPrototypes →
        Represents w.objects outer json value →
          Runs (text call value .undefined .undefined) w fun result _ =>
            result = .string (Units.ofList json'.write) := by
  obtain ⟨json', agrees, written⟩ := exists_isWrittenAs exact
  refine ⟨json', agrees, fun call w outer value prototypes represents => ?_⟩
  let w₁ : World := { w with objects := w.objects.push (recordObject []) }
  have begun : newObject w = .ok w.objects.size w₁ := rfl
  have here : w₁.objects[w.objects.size]? = some (recordObject []) := Array.getElem?_push_size
  have fresh : ∀ member ∈ ([] : Properties), member.1 ≠ [] := nofun
  obtain ⟨_, w₂, put, -, keeps, -⟩ := defineMember_of_fresh here fresh value
  have represents := represents.transfer (keeps.of_push.mono (List.nil_subset _)) (List.nil_subset _)
  have done := written call w₂ [] value depthLimit [] (.object w.objects.size) []
    (prototypes.mono keeps.of_push) represents shallow
  have style : styleOf call .undefined .undefined w = .ok {} w := rfl
  refine ⟨_, w₂, ?_, rfl⟩
  refine (run_bind_of_ok style _).trans ((run_bind_of_ok begun _).trans ?_)
  exact (run_bind_of_ok put _).trans (run_bind_of_ok done _)

end Stringify

end Script
end Isolate
