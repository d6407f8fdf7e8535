import Isolate.Proofs.Json.Spellings
import Isolate.Proofs.Json.Skipping

/-!
# Readers of records

A record is read from an object member by member and from a list field by field. Either way the reader
finds what the tree means by the slots of the record, and takes nothing that is no tree.
-/

namespace Isolate.Json

variable {α β γ σ : Type} {cursor : Cursor} {rest rest' text : List Char} {isFirst : Bool}
  {items : List Tree} {item tree : Tree}

theorem Outcome.andThen_assoc (outcome : Outcome α) (next : α → Reader β) (last : β → Reader γ) :
    (outcome.andThen next).andThen last =
      outcome.andThen fun a cursor => (next a cursor).andThen last := by
  cases outcome <;> rfl

theorem Outcome.map_eq_andThen (outcome : Outcome α) (f : α → β) :
    outcome.map f = outcome.andThen fun a cursor => .value (f a) cursor := by
  cases outcome <;> rfl

def closing (reader : Reader α) : Reader α := fun cursor =>
  (reader cursor).andThen fun a after => (closeList after).map fun _ => a

theorem closing_andThen (outcome : Outcome β) (next : β → Reader α) :
    ((outcome.andThen next).andThen fun a after => (closeList after).map fun _ => a) =
      outcome.andThen fun b => closing (next b) :=
  outcome.andThen_assoc next _

def EndsList (reader : Reader α) (found : Option α) : Prop :=
  ∀ ⦃isFirst : Bool⦄ ⦃cursor : Cursor⦄ ⦃rest : List Char⦄, AtItems isFirst [] rest cursor →
    (closing reader cursor).Tells found rest

def ReadsFields (slots : List (Slot σ)) (finish : σ → Option α) (draft : σ) (isFirst : Bool)
    (reader : Reader α) : Prop :=
  ∀ ⦃items : List Tree⦄ ⦃cursor : Cursor⦄ ⦃rest : List Char⦄, AtItems isFirst items rest cursor →
    (closing reader cursor).Tells ((putList slots draft items).bind finish) rest

theorem atItems_end (before : cursor.Before (']' :: rest)) (isFirst : Bool) :
    AtItems isFirst [] rest cursor :=
  ⟨[], spellsItems_nil.mpr isBlanks_nil, before⟩

theorem endsList_value {a : α} : EndsList (fun cursor => .value a cursor) (some a) := by
  intro isFirst cursor rest here
  have atEnd : AtItems false [] rest cursor := by
    obtain ⟨inside, spells, before⟩ := here
    exact ⟨inside, spellsItems_nil.mpr (spellsItems_nil.mp spells), before⟩
  exact (closeList_tells atEnd).map fun _ => a

theorem endsList_unplaced (cause : Cause) :
    EndsList (fun cursor => (.unplaced cause cursor : Outcome α)) none :=
  fun _ _ _ _ => .unplaced _ _

/-- At the end of a list there is no further element. -/
theorem endsList_element? {value : Reader β} {next : Option β → Reader α} {found : Option α}
    (goesOn : EndsList (next none) found) (isFirst : Bool) :
    EndsList (fun cursor => (element? isFirst value cursor).andThen next) found := by
  intro isFirst' cursor rest here
  have here : AtItems isFirst [] rest cursor := by
    obtain ⟨inside, spells, before⟩ := here
    exact ⟨inside, spellsItems_nil.mpr (spellsItems_nil.mp spells), before⟩
  rw [closing, closing_andThen, element?, Outcome.andThen_assoc]
  refine (nextElement_none here).andThen_some ?_
  intro cursor before
  exact goesOn (atItems_end before isFirst)

/-- With no field left the list ends. -/
theorem readsFields_value {finish : σ → Option α} {draft : σ} {a : α}
    (isFinished : finish draft = some a) :
    ReadsFields [] finish draft false fun cursor => .value a cursor := by
  intro items cursor rest here
  have tells := (closeList_tells here).map fun _ => a
  cases items with
  | nil => rwa [putList, Option.bind_some, isFinished]
  | cons item items => exact tells

/-- The element of a list for a field, and what stands behind it. -/
theorem readsFields_element? {slot : Slot σ} {slots : List (Slot σ)} {finish : σ → Option α}
    {draft : σ} {value : Reader slot.Value} {next : Option slot.Value → Reader α}
    (isEmpty : slot.get draft = none) (finds : ∀ tree, Finds value slot.meaning tree)
    (goesOn : ∀ a, ReadsFields slots finish (slot.set a draft) false (next (some a)))
    (ends : EndsList (next none) (finish draft)) :
    ReadsFields (slot :: slots) finish draft isFirst fun cursor =>
      (element? isFirst value cursor).andThen next := by
  intro items cursor rest here
  cases items with
  | nil => exact endsList_element? ends isFirst here
  | cons item items =>
    obtain ⟨_, spells, before⟩ := here
    obtain ⟨front, chunk, later, rfl, separates, spells, spellsRest⟩ := spellsItems_cons.mp spells
    rw [List.append_assoc, List.append_assoc] at before
    rw [closing, closing_andThen, element?, Outcome.andThen_assoc]
    refine (nextElement_some separates spells before).andThen_some ?_
    intro cursor before
    have atItem : cursor.Before ([] ++ (chunk ++ (later ++ ']' :: rest))) := before
    have found := finds item atItem isBlanks_nil spells (ends_items spellsRest rest)
    have putItem : ((putList (slot :: slots) draft (item :: items)).bind finish) =
        (slot.meaning item).bind fun a => (putList slots (slot.set a draft) items).bind finish := by
      rw [putList, slot.put_of_none isEmpty, Option.bind_assoc, Option.bind_map]
      rfl
    rw [putItem, if_pos rfl, Outcome.map_eq_andThen, Outcome.andThen_assoc]
    refine found.andThen _ ?_
    intro a cursor _ before
    exact goesOn a ⟨later, spellsRest, before⟩

theorem finds_fieldOnce {slot : Slot σ} {value : Reader slot.Value} {draft : σ} {name : String}
    {blanks blanks' chunk : List Char} (finds : Finds value slot.meaning tree)
    (before : cursor.Before (blanks ++ ':' :: (blanks' ++ (chunk ++ rest))))
    (areBlanks : IsBlanks blanks) (areBlanks' : IsBlanks blanks') (spells : Spells tree chunk)
    (ends : Ends rest) :
    ((fieldOnce name (slot.get draft) value cursor).map fun a => slot.set a draft).Tells
      (slot.put draft tree) rest := by
  rw [fieldOnce, Slot.put]
  split
  next => exact .unplaced _ _
  next =>
    refine Outcome.Tells.map ?_ _
    refine (colon_tells areBlanks before).andThen_some ?_
    intro cursor before
    exact finds before areBlanks' spells ends

/-- Further names of fields are looked for behind the first. -/
theorem findsMember_field {slot : Slot σ} {slots : List (Slot σ)} {value : Reader slot.Value}
    {others : String → σ → Reader σ} (finds : Finds value slot.meaning tree)
    (findsOthers : FindsMember others (put slots) tree) :
    FindsMember (fun name draft =>
      if name = slot.field.name then fun cursor =>
        (fieldOnce name (slot.get draft) value cursor).map fun a => slot.set a draft
      else others name draft) (put (slot :: slots)) tree := by
  intro name draft cursor blanks blanks' chunk rest before areBlanks areBlanks' spells ends
  rw [put]
  dsimp only
  split
  next => exact finds_fieldOnce finds before areBlanks areBlanks' spells ends
  next => exact findsOthers name draft before areBlanks areBlanks' spells ends

theorem findsMember_ignored :
    FindsMember (fun _ draft cursor => (fieldIgnored cursor).map fun _ => draft)
      (put ([] : List (Slot σ))) tree := by
  intro name draft cursor blanks blanks' chunk rest before areBlanks areBlanks' spells ends
  have tells : (fieldIgnored cursor).Tells (some ()) rest := by
    refine (colon_tells areBlanks before).andThen_some ?_
    intro cursor before
    exact finds_skipValue tree before areBlanks' spells ends
  exact tells.map fun _ => draft

/-- A record is found in its object and in its list. -/
theorem finds_recordValue {record : Record σ α} {name : String} {fromList : Reader α}
    {member : String → σ → Reader σ} {last : σ → Reader α}
    (list : ReadsFields record.slots record.finish record.start true fromList)
    (isMember : ∀ tree, FindsMember member (put record.slots) tree)
    (finish : ∀ draft ⦃cursor : Cursor⦄ ⦃rest : List Char⦄, cursor.Before rest →
      (last draft cursor).Tells (record.finish draft) rest) (tree : Tree) :
    Finds (recordValue name fromList fun cursor =>
      (Json.members member (cursor.rest.length + 1) true record.start cursor).andThen last)
      record.meaning tree := by
  refine finds_onFirstByte fun {b cursor chunk rest} before opens spells ends => ?_
  cases tree with
  | list items =>
    obtain rfl := opens
    obtain ⟨inside, rfl, spellsInside⟩ := spells_list.mp spells
    have here := atItems_of_list spellsInside before
    rw [if_pos rfl, Record.meaning]
    exact inList_tells (list here)
  | object members =>
    obtain rfl := opens
    obtain ⟨inside, rfl, spellsInside⟩ := spells_object.mp spells
    have here := atMembers_of_object spellsInside before
    rw [if_neg (by decide), if_pos rfl, Record.meaning]
    refine inObject_tells ?_
    rw [Outcome.andThen_assoc]
    refine (members_tells (fun item _ => isMember item.2) here (Nat.lt_succ_self _)).andThen _ ?_
    intro draft cursor _ before
    have tells := (finish draft before).andThen some fun a cursor _ before =>
      (closeObject_end before).map fun _ => a
    rwa [Option.bind_fun_some] at tells
  | number number =>
    obtain ⟨-, -, -, -, noList, noObject⟩ := ne_of_number opens
    rw [if_neg noList, if_neg noObject]
    exact wrongType_tells _ _ _
  | bool value =>
    obtain rfl := opens
    rw [if_neg (by cases value <;> decide), if_neg (by cases value <;> decide)]
    exact wrongType_tells _ _ _
  | _ =>
    obtain rfl := opens
    exact wrongType_tells _ _ _

/-- A reader takes only the elements of a list. -/
def TakesItems (isFirst : Bool) (reader : Reader α) : Prop :=
  ∀ ⦃cursor : Cursor⦄ ⦃text : List Char⦄, cursor.Before text →
    (reader cursor).Takes (fun _ chunk => ∃ items, SpellsItems isFirst items chunk) text

/-- A reader takes nothing in front of a closing bracket. -/
def TakesNothing (reader : Reader α) : Prop :=
  ∀ ⦃cursor : Cursor⦄ ⦃rest : List Char⦄, cursor.Before (']' :: rest) →
    (reader cursor).Takes (fun _ chunk => chunk = []) (']' :: rest)

theorem takesNothing_value (a : α) : TakesNothing fun cursor => .value a cursor :=
  fun _ _ before => .value before rfl

theorem takesNothing_unplaced (cause : Cause) :
    TakesNothing fun cursor => (.unplaced cause cursor : Outcome α) :=
  fun _ _ _ => .unplaced _ _

theorem takesNothing_element? {value : Reader β} {next : Option β → Reader α}
    (goesOn : TakesNothing (next none)) (isFirst : Bool) :
    TakesNothing fun cursor => (element? isFirst value cursor).andThen next := by
  intro cursor rest before
  obtain ⟨cursor', is, before'⟩ := nextElement_none (atItems_end before isFirst)
  have same : (element? isFirst value cursor).andThen next = next none cursor' := by
    rw [element?, is]
    rfl
  dsimp only
  rw [same]
  exact goesOn before'

theorem takesItems_value (a : α) : TakesItems isFirst fun cursor => .value a cursor :=
  fun _ _ before => .value before ⟨[], spellsItems_nil.mpr isBlanks_nil⟩

/-- Where no further element follows, the list ends. -/
theorem exists_of_nextElement {cursor' : Cursor}
    (is : nextElement isFirst cursor = .value false cursor') (before : cursor'.Before text) :
    ∃ rest, text = ']' :: rest := by
  have front : cursor'.peek = some 0x5d := by
    rw [nextElement] at is
    split at is
    next => contradiction
    next b front =>
      split at is
      next isEnd =>
        cases is
        rw [front, isEnd]
      next =>
        split at is
        next => cases is
        next =>
          split at is
          next =>
            dsimp only at is
            split at is
            next => contradiction
            next => split at is <;> cases is
          next => contradiction
  obtain ⟨rest, rfl, -⟩ := before.exists_of_peek (c := ']') front (by decide)
  exact ⟨rest, rfl⟩

theorem takesItems_element? {value : Reader β} {next : Option β → Reader α}
    (takes : TakesValues value) (goesOn : ∀ b, TakesItems false (next (some b)))
    (ends : TakesNothing (next none)) :
    TakesItems isFirst fun cursor => (element? isFirst value cursor).andThen next := by
  intro cursor text before a after is
  dsimp only at is
  rw [element?, Outcome.andThen_assoc] at is
  obtain ⟨more, cursor', isMore, is⟩ := Outcome.exists_of_andThen is
  obtain ⟨front, rest, rfl, before', separates⟩ := nextElement_takes before more cursor' isMore
  cases more with
  | false =>
    obtain ⟨rest, rfl⟩ := exists_of_nextElement isMore before'
    obtain ⟨_, later, split, after', rfl⟩ := ends before' a after is
    refine ⟨front, later, by rw [split, List.nil_append], after', [], spellsItems_nil.mpr separates⟩
  | true =>
    rw [if_pos rfl, Outcome.map_eq_andThen, Outcome.andThen_assoc] at is
    obtain ⟨b, cursor'', isValue, is⟩ := Outcome.exists_of_andThen is
    obtain ⟨_, rest, rfl, before'', blanks, item, chunk, rfl, areBlanks, spells⟩ :=
      takes before' b cursor'' isValue
    obtain ⟨later, rest, rfl, after', items, spellsRest⟩ := goesOn b before'' a after is
    refine ⟨front ++ blanks ++ (chunk ++ later), rest, by simp, after', item :: items, ?_⟩
    exact spellsItems_cons.mpr ⟨front ++ blanks, chunk, later, rfl, separates.append areBlanks,
      spells, spellsRest⟩

theorem takesMember_colon {value : Reader β} (takes : TakesValues value) :
    TakesMember fun cursor => (colon cursor).andThen fun _ cursor => value cursor := by
  intro cursor text before
  refine (colon_takes before).andThen ?_
  rintro _ _ rest cursor ⟨blanks, areBlanks, rfl⟩ - before
  intro b after is
  obtain ⟨chunk, rest, rfl, before', isValue⟩ := takes before b after is
  exact ⟨chunk, rest, rfl, before', blanks, chunk, by simp, areBlanks, isValue⟩

theorem takesMember_field {name name' : String} {field : Option β} {set : β → σ} {value : Reader β}
    {others : Reader σ} (takes : TakesValues value) (takesOthers : TakesMember others) :
    TakesMember (if name = name' then fun cursor => (fieldOnce name field value cursor).map set
      else others) := by
  intro cursor text before
  split
  next =>
    refine .map ?_
    rw [fieldOnce]
    split
    next => exact .unplaced _ _
    next => exact takesMember_colon takes before
  next => exact takesOthers before

theorem takesMember_ignored (draft : σ) :
    TakesMember fun cursor => (fieldIgnored cursor).map fun _ => draft :=
  fun _ _ before => .map (takesMember_colon takesValues_skipValue before)

theorem takesValues_recordValue {name : String} {fromList : Reader α} {start : σ}
    {member : String → σ → Reader σ} {last : σ → Reader α} (list : TakesItems true fromList)
    (isMember : ∀ name draft, TakesMember (member name draft))
    (finish : ∀ draft cursor a cursor', last draft cursor = .value a cursor' → cursor' = cursor) :
    TakesValues (recordValue name fromList fun cursor =>
      (Json.members member (cursor.rest.length + 1) true start cursor).andThen last) := by
  refine takesValues_onFirstByte fun {b cursor text} before front => ?_
  split
  next isBracket =>
    subst isBracket
    exact inList_takes before front fun before => list before
  next =>
    split
    next isBrace =>
      subst isBrace
      refine inObject_takes before front ?_
      intro cursor text before
      refine (members_takes isMember before).andThen ?_
      rintro draft chunk rest cursor spells - before a cursor' is
      obtain rfl := finish draft cursor a cursor' is
      exact ⟨[], rest, rfl, before, by simpa using spells⟩
    next => exact wrongType_takes _ _

end Isolate.Json
