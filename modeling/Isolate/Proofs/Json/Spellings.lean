import Isolate.Proofs.Json.Containers
import Mathlib.Data.List.Pairwise

/-!
# Spellings of a record

Two syntax trees are alike if they spell the same record: the members of the object stand in another
order, members with unknown names come in, a field is left out or written with its default value, or the
object is written as the list of its fields. What a reader of records makes of a tree is described here
by slots, one for each field; alike trees have the same meaning.
-/

namespace Isolate.Json

/-- A field as it is written: its name, the values that are spelled in two ways, and the value that may
be left out. -/
structure Field where
  name : String
  Alike : Tree → Tree → Prop
  default? : Option Tree

def named (fields : List Field) (items : List Tree) : List (Option String × Tree) :=
  List.zipWith (fun field item => (some field.name, item)) fields items

/-- The same record, spelled in two ways. -/
inductive Alike (fields : List Field) : Tree → Tree → Prop where
  | refl (tree : Tree) : Alike fields tree tree
  | symm {tree tree' : Tree} (alike : Alike fields tree tree') : Alike fields tree' tree
  | trans {tree tree' tree'' : Tree} (alike : Alike fields tree tree')
      (alike' : Alike fields tree' tree'') : Alike fields tree tree''
  | permuted {members members' : List (Option String × Tree)} (perm : members.Perm members') :
      Alike fields (.object members) (.object members')
  | unknown {name : String} (isUnknown : ∀ field ∈ fields, field.name ≠ name) (value : Tree)
      (before after : List (Option String × Tree)) :
      Alike fields (.object (before ++ after)) (.object (before ++ (some name, value) :: after))
  | omitted {field : Field} {value : Tree} (isField : field ∈ fields)
      (isDefault : field.default? = some value) {before after : List (Option String × Tree)}
      (isOmitted : ∀ member ∈ before ++ after, member.1 ≠ some field.name) :
      Alike fields (.object (before ++ after)) (.object (before ++ (some field.name, value) :: after))
  | inField {field : Field} {value value' : Tree} (isField : field ∈ fields)
      (alike : field.Alike value value') (before after : List (Option String × Tree)) :
      Alike fields (.object (before ++ (some field.name, value) :: after))
        (.object (before ++ (some field.name, value') :: after))
  | listed {items : List Tree} (fits : items.length ≤ fields.length) :
      Alike fields (.list items) (.object (named fields items))

/-- A field of the records that are read into a draft. -/
structure Slot (σ : Type) where
  field : Field
  Value : Type
  meaning : Tree → Option Value
  get : σ → Option Value
  set : Value → σ → σ
  get_set : ∀ value draft, get (set value draft) = some value
  congr : ∀ {tree tree'}, field.Alike tree tree' → meaning tree = meaning tree'

variable {σ α : Type} {slots : List (Slot σ)} {draft draft' : σ} {tree tree' : Tree}
  {members members' : List (Option String × Tree)}

namespace Slot

def put (slot : Slot σ) (draft : σ) (tree : Tree) : Option σ :=
  if (slot.get draft).isSome then none
  else (slot.meaning tree).map fun value => slot.set value draft

/-- Two fields with different names and different places in the draft. -/
structure Apart (slot slot' : Slot σ) : Prop where
  name_ne : slot.field.name ≠ slot'.field.name
  get_set : ∀ value draft, slot.get (slot'.set value draft) = slot.get draft
  get_set' : ∀ value draft, slot'.get (slot.set value draft) = slot'.get draft
  set_set : ∀ value value' draft,
    slot.set value (slot'.set value' draft) = slot'.set value' (slot.set value draft)

theorem Apart.symm {slot slot' : Slot σ} (apart : slot.Apart slot') : slot'.Apart slot where
  name_ne := apart.name_ne.symm
  get_set := apart.get_set'
  get_set' := apart.get_set
  set_set value value' draft := (apart.set_set value' value draft).symm

instance : Std.Symm (@Apart σ) := ⟨fun _ _ => Apart.symm⟩

theorem put_of_isSome {slot : Slot σ} (filled : (slot.get draft).isSome = true) (tree : Tree) :
    slot.put draft tree = none := if_pos filled

theorem put_of_none {slot : Slot σ} (empty : slot.get draft = none) (tree : Tree) :
    slot.put draft tree = (slot.meaning tree).map fun value => slot.set value draft := by
  rw [put, empty]
  rfl

/-- A record without the field is finished as with its default value. -/
def HasDefault (slot : Slot σ) (finish : σ → Option α) : Prop :=
  ∀ tree, slot.field.default? = some tree → ∃ value, slot.meaning tree = some value ∧
    ∀ draft, slot.get draft = none → finish (slot.set value draft) = finish draft

theorem hasDefault_of_none {slot : Slot σ} {finish : σ → Option α}
    (isNeeded : slot.field.default? = none) : slot.HasDefault finish := by
  intro tree isDefault
  rw [isNeeded] at isDefault
  contradiction

theorem hasDefault_of_some {slot : Slot σ} {finish : σ → Option α} {value : slot.Value}
    (isDefault : slot.field.default? = some tree) (isMeant : slot.meaning tree = some value)
    (same : ∀ draft, slot.get draft = none → finish (slot.set value draft) = finish draft) :
    slot.HasDefault finish := by
  intro tree' isDefault'
  obtain rfl := Option.some.inj (isDefault.symm.trans isDefault')
  exact ⟨value, isMeant, same⟩

theorem exists_of_put {slot : Slot σ} (is : slot.put draft tree = some draft') :
    slot.get draft = none ∧ ∃ value, slot.meaning tree = some value ∧
      slot.set value draft = draft' := by
  cases found : slot.get draft with
  | some _ =>
    rw [put_of_isSome (by rw [found]; rfl)] at is
    contradiction
  | none =>
    rw [put_of_none found] at is
    exact ⟨rfl, Option.map_eq_some_iff.mp is⟩

/-- A field does not take a second value. -/
theorem put_put (slot : Slot σ) (draft : σ) (tree tree' : Tree) :
    (slot.put draft tree).bind (slot.put · tree') = none := by
  apply Option.bind_eq_none_iff.mpr
  intro draft' is
  obtain ⟨-, value, -, rfl⟩ := exists_of_put is
  exact put_of_isSome (by rw [slot.get_set]; rfl) tree'

/-- The order in which two fields take their values does not matter. -/
theorem Apart.put_comm {slot slot' : Slot σ} (apart : slot.Apart slot') (draft : σ)
    (tree tree' : Tree) :
    (slot.put draft tree).bind (slot'.put · tree') = (slot'.put draft tree').bind (slot.put · tree) := by
  cases found : slot.get draft <;> cases found' : slot'.get draft <;>
    cases is : slot.meaning tree <;> cases is' : slot'.meaning tree' <;>
    simp [put, found, found', is, is', apart.get_set, apart.get_set', apart.set_set]

/-- A field that takes its value leaves the others as they are. -/
theorem Apart.get_of_put {slot slot' : Slot σ} (apart : slot.Apart slot')
    (is : slot'.put draft tree = some draft') : slot.get draft' = slot.get draft := by
  obtain ⟨-, value, -, rfl⟩ := exists_of_put is
  exact apart.get_set value draft

end Slot

/-- Put a value into the field of this name; an unknown name is passed over. -/
def put : List (Slot σ) → String → σ → Tree → Option σ
  | [], _, draft, _ => some draft
  | slot :: slots, name, draft, tree =>
    if name = slot.field.name then slot.put draft tree else put slots name draft tree

def putList : List (Slot σ) → σ → List Tree → Option σ
  | _, draft, [] => some draft
  | [], _, _ :: _ => none
  | slot :: slots, draft, tree :: trees =>
    (slot.put draft tree).bind fun draft => putList slots draft trees

theorem put_of_unknown {name : String} (isUnknown : ∀ slot ∈ slots, slot.field.name ≠ name)
    (draft : σ) (tree : Tree) : put slots name draft tree = some draft := by
  induction slots with
  | nil => rfl
  | cons slot slots ih =>
    obtain ⟨ne, others⟩ := List.forall_mem_cons.mp isUnknown
    rw [put, if_neg ne.symm]
    exact ih others

theorem put_of_mem {slot : Slot σ} (apart : slots.Pairwise Slot.Apart) (isSlot : slot ∈ slots)
    (draft : σ) (tree : Tree) : put slots slot.field.name draft tree = slot.put draft tree := by
  induction apart with
  | nil => contradiction
  | cons apart _ ih =>
    rw [put]
    obtain rfl | isSlot := List.mem_cons.mp isSlot
    · exact if_pos rfl
    · rw [if_neg (apart slot isSlot).name_ne.symm]
      exact ih isSlot

theorem putList_cons {slot : Slot σ} {value : slot.Value} (isEmpty : slot.get draft = none)
    (isMeant : slot.meaning tree = some value) (trees : List Tree) :
    putList (slot :: slots) draft (tree :: trees) = putList slots (slot.set value draft) trees := by
  rw [putList, slot.put_of_none isEmpty, isMeant]
  rfl

/-- A name is that of a field or unknown. -/
theorem exists_slot_or_unknown (slots : List (Slot σ)) (name : String) :
    (∃ slot ∈ slots, slot.field.name = name) ∨ ∀ slot ∈ slots, slot.field.name ≠ name := by
  by_cases known : ∃ slot ∈ slots, slot.field.name = name
  · exact .inl known
  · exact .inr fun slot isSlot same => known ⟨slot, isSlot, same⟩

/-- The order of two members does not matter. -/
theorem put_comm (apart : slots.Pairwise Slot.Apart) (name name' : String) (draft : σ)
    (tree tree' : Tree) :
    (put slots name draft tree).bind (put slots name' · tree') =
      (put slots name' draft tree').bind (put slots name · tree) := by
  obtain ⟨slot, isSlot, rfl⟩ | isUnknown := exists_slot_or_unknown slots name
  · obtain ⟨slot', isSlot', rfl⟩ | isUnknown' := exists_slot_or_unknown slots name'
    · simp only [put_of_mem apart isSlot, put_of_mem apart isSlot']
      by_cases same : slot = slot'
      · subst same
        rw [slot.put_put, slot.put_put]
      · have apart := apart.forall isSlot isSlot' same
        exact apart.put_comm draft tree tree'
    · simp only [put_of_unknown isUnknown', Option.bind_some, Option.bind_fun_some]
  · simp only [put_of_unknown isUnknown, Option.bind_some, Option.bind_fun_some]

theorem putAll_append (put : String → σ → Tree → Option σ) (draft : σ)
    (members members' : List (Option String × Tree)) :
    putAll put draft (members ++ members') =
      (putAll put draft members).bind (putAll put · members') := by
  induction members generalizing draft with
  | nil => rfl
  | cons member members ih =>
    simp only [List.cons_append, putAll, ih, Option.bind_assoc]

/-- The order of the members does not matter. -/
theorem putAll_perm (apart : slots.Pairwise Slot.Apart) (perm : members.Perm members')
    (draft : σ) : putAll (put slots) draft members = putAll (put slots) draft members' := by
  induction perm generalizing draft with
  | nil => rfl
  | cons member _ ih => simp only [putAll, ih]
  | swap member member' members =>
    obtain ⟨name, tree⟩ := member
    obtain ⟨name', tree'⟩ := member'
    simp only [putAll]
    cases name with
    | none => simp only [Option.bind_none, Option.bind_fun_none]
    | some name =>
      cases name' with
      | none => simp only [Option.bind_none, Option.bind_fun_none]
      | some name' =>
        simp only [Option.bind_some, ← Option.bind_assoc]
        rw [put_comm apart name' name draft tree' tree]
  | trans _ _ ih ih' => exact (ih draft).trans (ih' draft)

/-- A field without a member stays as it is. -/
theorem get_of_putAll {slot : Slot σ} (apart : slots.Pairwise Slot.Apart) (isSlot : slot ∈ slots)
    (isOmitted : ∀ member ∈ members, member.1 ≠ some slot.field.name)
    (is : putAll (put slots) draft members = some draft') : slot.get draft' = slot.get draft := by
  induction members generalizing draft with
  | nil =>
    cases is
    rfl
  | cons member members ih =>
    obtain ⟨name, tree⟩ := member
    obtain ⟨ne, areOthers⟩ := List.forall_mem_cons.mp isOmitted
    obtain ⟨name, rfl, isLater⟩ := Option.bind_eq_some_iff.mp is
    obtain ⟨draft'', isPut, isLater⟩ := Option.bind_eq_some_iff.mp isLater
    rw [ih areOthers isLater]
    obtain ⟨slot', isSlot', rfl⟩ | isUnknown := exists_slot_or_unknown slots name
    · rw [put_of_mem apart isSlot'] at isPut
      have different : slot ≠ slot' := by
        rintro rfl
        exact ne rfl
      have apart := apart.forall isSlot isSlot' different
      exact apart.get_of_put isPut
    · rw [put_of_unknown isUnknown] at isPut
      cases isPut
      rfl

/-- The elements of a list go where the members of their names go. -/
theorem putAll_named {all : List (Slot σ)} (apart : all.Pairwise Slot.Apart)
    (areSlots : ∀ slot ∈ slots, slot ∈ all) {items : List Tree}
    (fits : items.length ≤ slots.length) (draft : σ) :
    putAll (put all) draft (named (slots.map Slot.field) items) = putList slots draft items := by
  induction slots generalizing items draft with
  | nil =>
    obtain rfl := List.length_eq_zero_iff.mp (Nat.le_zero.mp fits)
    rfl
  | cons slot slots ih =>
    obtain ⟨isSlot, areSlots⟩ := List.forall_mem_cons.mp areSlots
    cases items with
    | nil => rfl
    | cons item items =>
      have fits : items.length ≤ slots.length := Nat.le_of_succ_le_succ fits
      have later : ∀ draft, putAll (put all) draft (named (slots.map Slot.field) items) =
          putList slots draft items := ih areSlots fits
      show putAll (put all) draft ((some slot.field.name, item) :: named (slots.map Slot.field) items)
        = _
      simp only [putAll, putList, Option.bind_some, put_of_mem apart isSlot, later]

/-- How a record is made of its fields. -/
structure Record (σ α : Type) where
  slots : List (Slot σ)
  apart : slots.Pairwise Slot.Apart
  /-- The draft of a record no field of which has been read. -/
  start : σ
  isEmpty : ∀ slot ∈ slots, slot.get start = none
  finish : σ → Option α
  isDefault : ∀ slot ∈ slots, slot.HasDefault finish

namespace Record

variable {record : Record σ α}

def fields (record : Record σ α) : List Field := record.slots.map Slot.field

def meaning (record : Record σ α) : Tree → Option α
  | .object members => (putAll (put record.slots) record.start members).bind record.finish
  | .list items => (putList record.slots record.start items).bind record.finish
  | _ => none

theorem meaning_perm (perm : members.Perm members') :
    record.meaning (.object members) = record.meaning (.object members') := by
  rw [meaning, meaning, putAll_perm record.apart perm]

/-- A member may as well stand in front. -/
theorem meaning_middle (before after : List (Option String × Tree))
    (member : Option String × Tree) :
    record.meaning (.object (before ++ member :: after)) =
      record.meaning (.object (member :: (before ++ after))) :=
  meaning_perm List.perm_middle

theorem meaning_unknown {name : String} (isUnknown : ∀ field ∈ record.fields, field.name ≠ name)
    (value : Tree) (before after : List (Option String × Tree)) :
    record.meaning (.object (before ++ (some name, value) :: after)) =
      record.meaning (.object (before ++ after)) := by
  have isUnknown : ∀ slot ∈ record.slots, slot.field.name ≠ name := fun slot isSlot =>
    isUnknown _ (List.mem_map_of_mem isSlot)
  rw [meaning_middle, meaning, putAll, Option.bind_some, put_of_unknown isUnknown,
    Option.bind_some, meaning]

theorem meaning_inField {field : Field} (isField : field ∈ record.fields)
    (alike : field.Alike tree tree') (before after : List (Option String × Tree)) :
    record.meaning (.object (before ++ (some field.name, tree) :: after)) =
      record.meaning (.object (before ++ (some field.name, tree') :: after)) := by
  obtain ⟨slot, isSlot, rfl⟩ := List.mem_map.mp isField
  have same (draft : σ) : put record.slots slot.field.name draft tree =
      put record.slots slot.field.name draft tree' := by
    rw [put_of_mem record.apart isSlot, put_of_mem record.apart isSlot, Slot.put, Slot.put,
      slot.congr alike]
  rw [meaning_middle, meaning_middle]
  simp only [meaning, putAll, Option.bind_some, same]

/-- A field that is left out has its default value. -/
theorem meaning_omitted {field : Field} (isField : field ∈ record.fields)
    (isDefault : field.default? = some tree) {before after : List (Option String × Tree)}
    (isOmitted : ∀ member ∈ before ++ after, member.1 ≠ some field.name) :
    record.meaning (.object (before ++ (some field.name, tree) :: after)) =
      record.meaning (.object (before ++ after)) := by
  obtain ⟨slot, isSlot, rfl⟩ := List.mem_map.mp isField
  obtain ⟨value, isMeant, same⟩ := record.isDefault slot isSlot tree isDefault
  have perm : (before ++ (some slot.field.name, tree) :: after).Perm
      (before ++ after ++ [(some slot.field.name, tree)]) :=
    List.perm_middle.trans (List.perm_append_singleton _ _).symm
  rw [meaning_perm perm, meaning, putAll_append, Option.bind_assoc, meaning]
  apply Option.bind_congr
  intro draft is
  have isNone : slot.get draft = none :=
    (get_of_putAll record.apart isSlot isOmitted is).trans (record.isEmpty slot isSlot)
  simp [putAll, put_of_mem record.apart isSlot, Slot.put_of_none isNone, isMeant, same draft isNone]

theorem meaning_listed {items : List Tree} (fits : items.length ≤ record.fields.length) :
    record.meaning (.list items) = record.meaning (.object (named record.fields items)) := by
  rw [fields, List.length_map] at fits
  rw [meaning, meaning, fields, putAll_named record.apart (fun _ => id) fits]

/-- Alike trees spell the same record, or none. -/
theorem meaning_congr (alike : Alike record.fields tree tree') :
    record.meaning tree = record.meaning tree' := by
  induction alike with
  | refl tree => rfl
  | symm _ ih => exact ih.symm
  | trans _ _ ih ih' => exact ih.trans ih'
  | permuted perm => exact meaning_perm perm
  | unknown isUnknown value before after =>
    exact (meaning_unknown isUnknown value before after).symm
  | omitted isField isDefault isOmitted => exact (meaning_omitted isField isDefault isOmitted).symm
  | inField isField alike before after => exact meaning_inField isField alike before after
  | listed fits => exact meaning_listed fits

end Record

end Isolate.Json
