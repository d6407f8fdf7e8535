import Isolate.Proofs.Json.Numbers
import Isolate.Proofs.Script.Modules
import Mathlib.Data.List.Perm.Basic

/-!
# Members by their names

The name of an index is its numeral, and an index is read back from its name. The elements of an array are
members under the names of their indices, and an object lists the names of its members with the indices in
front.
-/

namespace Isolate.Script

open Text

theorem ofString_injective : Function.Injective Units.ofString :=
  Function.LeftInverse.injective Units.toString_ofString

theorem ofString_ofList (text : List Char) : Units.ofString (String.ofList text) = Units.ofList text := by
  rw [Units.ofString, String.toList_ofList]

/-- The units of a digit. -/
theorem ofChar_of_isDigit {c : Char} (digit : Json.isDigit c = true) :
    Units.ofChar c = [c.toNat.toUInt16] := by
  have low := Json.isDigit_iff.mp digit
  rw [Units.ofChar, if_pos (by omega)]

theorem toNat_of_isDigit {c : Char} (digit : Json.isDigit c = true) :
    c.toNat.toUInt16.toNat = c.toNat := by
  have low := Json.isDigit_iff.mp digit
  exact UInt16.toNat_ofNat_of_lt' (by rw [UInt16.size]; omega)

theorem indexName_eq (index : Nat) : indexName index = Units.ofList (Nat.toDigits 10 index) :=
  ofString_ofList _

theorem indexName_injective : Function.Injective indexName := by
  intro index other same
  have digits : Nat.toDigits 10 index = Nat.toDigits 10 other :=
    String.ofList_injective (ofString_injective same)
  rw [← Nat.ofDigitChars_ten_toDigits (n := index), digits, Nat.ofDigitChars_ten_toDigits]

/-- The name of an index consists of digits. -/
theorem digits_of_mem_indexName {index : Nat} {u : UInt16} (member : u ∈ indexName index) :
    0x30 ≤ u.toNat ∧ u.toNat ≤ 0x39 := by
  rw [indexName_eq, Units.ofList, List.mem_flatMap] at member
  obtain ⟨c, isDigit, member⟩ := member
  have digit := Json.isDigit_of_mem_toDigits isDigit
  rw [ofChar_of_isDigit digit, List.mem_singleton] at member
  rw [member, toNat_of_isDigit digit]
  exact Json.isDigit_iff.mp digit

/-- A name with anything but digits is not the name of an index. -/
theorem ne_indexName {name : Units} {u : UInt16} (member : u ∈ name)
    (other : ¬(0x30 ≤ u.toNat ∧ u.toNat ≤ 0x39)) (index : Nat) : indexName index ≠ name := by
  rintro rfl
  exact other (digits_of_mem_indexName member)

/-- Digits that have a value are the digits of that value. -/
theorem exists_digits_of_digitsValue? {name : Units} {value index : Nat}
    (found : digitsValue? value name = some index) :
    ∃ digits : List Char, (∀ c ∈ digits, Json.isDigit c = true) ∧ name = Units.ofList digits ∧
      index = Nat.ofDigitChars 10 digits value := by
  induction name generalizing value with
  | nil =>
    cases found
    exact ⟨[], nofun, rfl, rfl⟩
  | cons u name ih =>
    rw [digitsValue?] at found
    split at found
    next isDigit =>
      obtain ⟨digits, areDigits, rfl, rfl⟩ := ih found
      simp only [Bool.and_eq_true, decide_eq_true_eq, UInt16.le_iff_toNat_le] at isDigit
      have low : 0x30 ≤ u.toNat ∧ u.toNat ≤ 0x39 := isDigit
      have toNat : (Char.ofNat u.toNat).toNat = u.toNat := Text.Utf8.toNat_ofNat (.inl (by omega))
      have digit : Json.isDigit (Char.ofNat u.toNat) = true :=
        Json.isDigit_iff.mpr (by rw [toNat]; exact low)
      refine ⟨Char.ofNat u.toNat :: digits, List.forall_mem_cons.mpr ⟨digit, areDigits⟩, ?_, ?_⟩
      · have split : Units.ofList (Char.ofNat u.toNat :: digits) =
            Units.ofChar (Char.ofNat u.toNat) ++ Units.ofList digits := List.flatMap_cons
        rw [split, ofChar_of_isDigit digit, toNat]
        exact congrArg (· :: Units.ofList digits) (UInt16.ofNat_toNat).symm
      · rw [Nat.ofDigitChars_cons, toNat]
        rfl
    next => contradiction

/-- A name that is read as an index is the name of the index. -/
theorem indexName_of_indexOf? {name : Units} {index : Nat} (found : indexOf? name = some index) :
    indexName index = name := by
  rw [indexOf?.eq_def] at found
  split at found
  next => contradiction
  next =>
    cases found
    rfl
  next u rest notZero =>
    split at found
    next => contradiction
    next plain =>
      obtain ⟨digits, areDigits, spelled, rfl⟩ := exists_digits_of_digitsValue? found
      obtain _ | ⟨c, digits⟩ := digits
      · exact absurd spelled (List.cons_ne_nil u rest)
      obtain ⟨digit, areDigits⟩ := List.forall_mem_cons.mp areDigits
      have low := Json.isDigit_iff.mp digit
      rw [Units.ofList, List.flatMap_cons, ofChar_of_isDigit digit] at spelled
      obtain ⟨rfl, rfl⟩ := List.cons.inj spelled
      have positive : 0 < c.toNat - '0'.toNat := by
        have other : c.toNat.toUInt16 ≠ 0x30 := fun same => plain (by rw [same]; rfl)
        have zero : '0'.toNat = 0x30 := rfl
        have different : c.toNat ≠ 0x30 := fun same => other (by rw [same]; rfl)
        omega
      have small : c.toNat - '0'.toNat < 10 := by
        have zero : '0'.toNat = 0x30 := rfl
        omega
      rw [indexName_eq, Nat.ofDigitChars_cons, Nat.mul_zero, Nat.zero_add,
        Json.toDigits_ofDigitChars areDigits positive, Nat.toDigits_of_lt_base small,
        Json.digitChar_of_isDigit digit, List.singleton_append, Units.ofList, List.flatMap_cons,
        ofChar_of_isDigit digit]
      rfl

theorem insertIndex_perm (index : Nat) (sorted : List Nat) :
    (insertIndex index sorted).Perm (index :: sorted) := by
  induction sorted with
  | nil => exact .refl _
  | cons first sorted ih =>
    rw [insertIndex]
    split
    · exact .refl _
    · exact (ih.cons _).trans (.swap ..)

theorem sortIndices_perm (indices sorted : List Nat) :
    (indices.foldl (fun sorted index => insertIndex index sorted) sorted).Perm (indices ++ sorted) := by
  induction indices generalizing sorted with
  | nil => exact .refl _
  | cons index indices ih =>
    rw [List.foldl_cons, List.cons_append]
    exact (ih _).trans (((insertIndex_perm index sorted).append_left indices).trans List.perm_middle)

theorem map_indexName_filterMap (names : List Units) :
    (names.filterMap indexOf?).map indexName = names.filter fun name => (indexOf? name).isSome := by
  induction names with
  | nil => rfl
  | cons name names ih =>
    cases found : indexOf? name with
    | none => rw [List.filterMap_cons_none found, List.filter_cons_of_neg (by simp [found]), ih]
    | some index =>
      rw [List.filterMap_cons_some found, List.map_cons, List.filter_cons_of_pos (by simp [found]), ih,
        indexName_of_indexOf? found]

/-- A plain object lists the names of its members, each of them once for each time that it is there. -/
theorem ownNames_perm {object : Object} (plain : object.nature = .plain) :
    (ownNames object).Perm (object.properties.map Prod.fst) := by
  have listed : ownNames object =
      (((object.properties.map Prod.fst).filterMap indexOf?).foldl
        (fun sorted index => insertIndex index sorted) []).map indexName ++
          (object.properties.map Prod.fst).filter fun name => (indexOf? name).isNone := by
    unfold ownNames
    rw [plain]
    rfl
  have sorted := (sortIndices_perm ((object.properties.map Prod.fst).filterMap indexOf?) []).map indexName
  rw [List.append_nil, map_indexName_filterMap] at sorted
  have parts := List.filter_append_perm (fun name => (indexOf? name).isSome)
    (object.properties.map Prod.fst)
  simp only [Option.not_isSome] at parts
  rw [listed]
  exact (sorted.append_right _).trans parts

theorem get?_mapIdx {key : Nat → Units} (injective : Function.Injective key) {α : Type} (values : List α)
    (property : α → Property) (index : Nat) :
    Properties.get? (values.mapIdx fun i value => (key i, property value)) (key index) =
      values[index]?.map property := by
  induction values generalizing key index with
  | nil => rfl
  | cons value values ih =>
    rw [List.mapIdx_cons, Properties.get?, List.lookup_cons]
    cases index with
    | zero => rw [beq_self_eq_true]; rfl
    | succ index =>
      have apart : key (index + 1) ≠ key 0 := fun same => Nat.succ_ne_zero _ (injective same)
      rw [beq_eq_false_iff_ne.mpr apart]
      have later : Function.Injective fun i => key (i + 1) := fun i j same =>
        Nat.succ.inj (injective same)
      exact ih later index

theorem get?_cons (key name : Units) (property : Property) (properties : Properties) :
    Properties.get? ((key, property) :: properties) name =
      if name = key then some property else Properties.get? properties name := by
  by_cases same : name = key
  · rw [if_pos same, Properties.get?, List.lookup_cons, beq_iff_eq.mpr same]
  · rw [if_neg same, Properties.get?, List.lookup_cons, beq_eq_false_iff_ne.mpr same]
    rfl

theorem get?_eq_none_iff {properties : Properties} {name : Units} :
    properties.get? name = none ↔ ∀ member ∈ properties, name ≠ member.1 := by
  rw [Properties.get?, List.lookup_eq_none_iff]
  simp

theorem get?_insert (properties : Properties) (name other : Units) (property : Property) :
    (properties.insert name property).get? other =
      if other = name then some property else properties.get? other := by
  induction properties with
  | nil =>
    rw [Properties.insert, get?_cons]
  | cons member properties ih =>
    obtain ⟨key, old⟩ := member
    rw [Properties.insert, get?_cons]
    split
    next same =>
      subst same
      rw [get?_cons]
      split <;> rfl
    next apart =>
      rw [get?_cons, ih]
      split
      next same =>
        rw [if_neg]
        rintro rfl
        exact apart same.symm
      next => rfl

/-- A member that was not there is added behind the others. -/
theorem insert_of_fresh {properties : Properties} {name : Units} (property : Property)
    (fresh : ∀ member ∈ properties, member.1 ≠ name) :
    properties.insert name property = properties ++ [(name, property)] := by
  induction properties with
  | nil => rfl
  | cons member properties ih =>
    obtain ⟨apart, fresh⟩ := List.forall_mem_cons.mp fresh
    rw [Properties.insert, if_neg apart, ih fresh]
    rfl

section

variable {w : World} {id : ObjectId} {object : Object} {receiver : Value} {name : Units}
  {property : Property}

theorem World.object_of_known (here : w.objects[id]? = some object) : w.object id = object := by
  rw [World.object, Array.getD_eq_getD_getElem?, here, Option.getD_some]

/-- What follows a look at the world sees the world. -/
theorem get_bind_run {α : Type} (rest : World → Action α) (w : World) : (get >>= rest) w = rest w w := rfl

theorem ownMember?_plain (plain : (w.object id).nature = .plain) (name : Units) :
    ownMember? id name w = .ok (Properties.get? (w.object id).properties name) w := by
  rw [ownMember?, get_bind_run, plain]
  rfl

theorem ownMember?_error {kind : ErrorKind} {made : Option Site}
    (error : (w.object id).nature = .error kind made) (name : Units) :
    ownMember? id name w = .ok (Properties.get? (w.object id).properties name) w := by
  rw [ownMember?, get_bind_run, error]
  rfl

theorem ownMember?_array {length : Nat} (array : (w.object id).nature = .array length)
    (other : name ≠ lengthName) :
    ownMember? id name w = .ok (Properties.get? (w.object id).properties name) w := by
  rw [ownMember?, get_bind_run, array]
  dsimp only
  rw [if_neg other]
  rfl

/-- No member is computed, but the prototype and the length of a buffer. -/
theorem computedMember?_none (noProto : name ≠ protoName)
    (noLength : name ≠ Units.ofString "byteLength") (holder : ObjectId) (receiver : Value) :
    computedMember? holder receiver name w = .ok none w := by
  rw [computedMember?, get_bind_run]
  cases receiver with
  | object id => simp only [noProto, noLength, decide_false, Bool.and_false]; rfl
  | _ => rfl

theorem memberFrom_own (own : ownMember? id name w = .ok (some property) w) (fuel : Nat) :
    memberFrom receiver name (fuel + 1) (some id) w = .ok (some property.value) w := by
  rw [memberFrom, run_bind_of_ok own]
  rfl

/-- A member that an object lacks is looked for in its prototype. -/
theorem memberFrom_inherited (own : ownMember? id name w = .ok none w)
    (computed : computedMember? id receiver name w = .ok none w) (fuel : Nat) :
    memberFrom receiver name (fuel + 1) (some id) w =
      memberFrom receiver name fuel (w.object id).proto w := by
  rw [memberFrom, run_bind_of_ok own]
  dsimp only
  rw [run_bind_of_ok computed]
  rfl

theorem getMember_of_found {found : Option Value}
    (reads : memberFrom (.object id) name (w.objects.size + 1) (some id) w = .ok found w) :
    getMember (.object id) name w = .ok (found.getD .undefined) w :=
  run_bind_of_ok reads _

/-- A member that neither an object nor its prototype has is undefined. -/
theorem getMember_of_absent (own : ownMember? id name w = .ok none w)
    (computed : computedMember? id (.object id) name w = .ok none w)
    (inherited : ∀ fuel, memberFrom (.object id) name fuel (w.object id).proto w = .ok none w) :
    getMember (.object id) name w = .ok .undefined w :=
  getMember_of_found ((memberFrom_inherited own computed _).trans (inherited _))

theorem getMember_own (own : ownMember? id name w = .ok (some property) w) :
    getMember (.object id) name w = .ok property.value w :=
  getMember_of_found (memberFrom_own own _)

end

end Isolate.Script
