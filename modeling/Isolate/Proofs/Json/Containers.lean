import Isolate.Proofs.Json.Values

/-!
# Lists and objects in JSON texts

The elements of a list and the members of an object are read one after the other up to the bracket. What
is to be done with a member is left to the reader of the object.
-/

namespace Isolate.Json

open Text

variable {cursor : Cursor} {rest later text blanks chunk : List Char} {tree : Tree}

variable {α : Type} {isFirst : Bool} {items : List Tree} {members : List (Option String × Tree)}

def Tree.list? (element? : Tree → Option α) : Tree → Option (List α)
  | .list items => items.mapM element?
  | _ => none

/-- Before further elements of a list, its bracket and what follows. -/
def AtItems (isFirst : Bool) (items : List Tree) (rest : List Char) (cursor : Cursor) : Prop :=
  ∃ inside, SpellsItems isFirst items inside ∧ cursor.Before (inside ++ ']' :: rest)

theorem ends_of_blank_or {blanks : List Char} {c : Char} (areBlanks : IsBlanks blanks)
    (isEnd : c = ',' ∨ c = ']' ∨ c = '}') (rest : List Char) : Ends (blanks ++ c :: rest) := by
  cases blanks with
  | nil =>
    rintro d ⟨⟩
    exact .inr isEnd
  | cons b blanks =>
    rintro d ⟨⟩
    exact .inl (areBlanks b List.mem_cons_self)

theorem ends_items {inside : List Char} (spells : SpellsItems false items inside)
    (rest : List Char) : Ends (inside ++ ']' :: rest) := by
  cases items with
  | nil => exact ends_of_blank_or (spellsItems_nil.mp spells) (.inr (.inl rfl)) rest
  | cons item items =>
    obtain ⟨_, chunk, later, rfl, ⟨before, after, areBlanks, -, rfl⟩, -, -⟩ :=
      spellsItems_cons.mp spells
    rw [List.append_assoc, List.append_assoc, List.cons_append]
    exact ends_of_blank_or areBlanks (.inl rfl) _

theorem nextElement_none (here : AtItems isFirst [] rest cursor) :
    (nextElement isFirst cursor).Tells (some false) (']' :: rest) := by
  obtain ⟨inside, spells, before⟩ := here
  have skipped := before.skipBlanks (spellsItems_nil.mp spells) (by rintro c ⟨⟩; decide)
  rw [nextElement, skipped.peek_cons (by decide)]
  exact .value skipped

theorem nextElement_some {before : List Char} (separates : Separates isFirst before)
    (spells : Spells tree chunk) (here : cursor.Before (before ++ (chunk ++ later))) :
    (nextElement isFirst cursor).Tells (some true) (chunk ++ later) := by
  have notClosed {c : Char} (opens : tree.OpensWith c) : byte c ≠ 0x5d := by
    obtain ⟨low, -, notBracket, -⟩ := opens.ne
    exact fun same =>
      notBracket (eq_of_byte low (by decide) (same.trans (by decide : 0x5d = byte ']')))
  cases isFirst with
  | true =>
    obtain ⟨skipped, c, more, -, opens, peek⟩ := here.opening separates spells
    rw [nextElement, peek]
    dsimp only
    rw [if_neg (notClosed opens)]
    exact .value skipped
  | false =>
    obtain ⟨blanks, blanks', areBlanks, areBlanks', rfl⟩ := separates
    rw [List.append_assoc] at here
    have atComma := here.skipBlanks areBlanks (by rintro c ⟨⟩; decide)
    obtain ⟨skipped, c, more, -, opens, peek⟩ :=
      Cursor.Before.opening (atComma.next_cons (by decide)) areBlanks' spells
    rw [nextElement, atComma.peek_cons (by decide)]
    dsimp only
    rw [if_neg (by decide), if_neg (by decide), if_pos (by decide), peek]
    dsimp only
    rw [if_neg (notClosed opens)]
    exact .value skipped

theorem mapM_cons_option {β : Type} (f : α → Option β) (a : α) (more : List α) :
    (a :: more).mapM f = (f a).bind fun b => (more.mapM f).map (b :: ·) := by
  simp only [List.mapM_cons, Option.map_eq_bind]
  rfl

/-- The elements of a list are read one after the other. -/
theorem elements_tells {element : Reader α} {meaning : Tree → Option α} {fuel : Nat}
    (finds : ∀ item ∈ items, Finds element meaning item) (here : AtItems isFirst items rest cursor)
    (enough : cursor.rest.length < fuel) :
    (elements element fuel isFirst cursor).Tells (items.mapM meaning) (']' :: rest) := by
  induction items generalizing cursor isFirst fuel with
  | nil =>
    obtain _ | fuel := fuel
    · omega
    rw [elements]
    refine (nextElement_none here).andThen_some ?_
    intro cursor before
    exact .value before
  | cons item items ih =>
    obtain _ | fuel := fuel
    · omega
    obtain ⟨_, spells, before⟩ := here
    obtain ⟨front, chunk, later, rfl, separates, spells, spellsRest⟩ := spellsItems_cons.mp spells
    rw [List.append_assoc, List.append_assoc] at before
    rw [elements, mapM_cons_option]
    refine (nextElement_some separates spells before).andThen_some ?_
    intro cursor' before'
    have atItem : cursor'.Before ([] ++ (chunk ++ (later ++ ']' :: rest))) := before'
    have found := finds item List.mem_cons_self atItem nofun spells (ends_items spellsRest rest)
    refine found.andThen _ ?_
    intro a cursor'' isFound before''
    have moved : front ++ chunk ≠ [] := by
      obtain ⟨c, more, rfl, -⟩ := spells.head
      exact List.append_ne_nil_of_right_ne_nil _ (List.cons_ne_nil _ _)
    have less := Cursor.Before.length_lt_of_ne_nil (List.append_assoc .. ▸ before) before'' moved
    have tells := ih (fun item member => finds item (List.mem_cons_of_mem _ member))
      ⟨later, spellsRest, before''⟩ (by omega : _ < fuel)
    exact tells.map (a :: ·)

theorem closeList_tells (here : AtItems false items rest cursor) :
    (closeList cursor).Tells (if items = [] then some () else none) rest := by
  obtain ⟨inside, spells, before⟩ := here
  cases items with
  | nil =>
    have skipped := before.skipBlanks (spellsItems_nil.mp spells) (by rintro c ⟨⟩; decide)
    rw [closeList, skipped.peek_cons (by decide)]
    exact .value (skipped.next_cons (by decide))
  | cons item items =>
    obtain ⟨_, chunk, later, rfl, ⟨blanks, blanks', areBlanks, -, rfl⟩, -, -⟩ :=
      spellsItems_cons.mp spells
    rw [List.append_assoc, List.append_assoc, List.cons_append] at before
    have atComma := before.skipBlanks areBlanks (by rintro c ⟨⟩; decide)
    rw [closeList, atComma.peek_cons (by decide)]
    dsimp only
    rw [if_neg (by decide), if_pos (by decide)]
    split <;> exact .fault _

theorem closeList_end (before : cursor.Before (']' :: rest)) :
    (closeList cursor).Tells (some ()) rest := by
  have atEnd : AtItems false [] rest cursor := ⟨[], spellsItems_nil.mpr nofun, before⟩
  exact closeList_tells atEnd

theorem inList_tells {inside : Reader α} {found : Option α}
    (tells : ((inside cursor.next).andThen fun a after => (closeList after).map fun _ => a).Tells
      found rest) : (inList inside cursor).Tells found rest := by
  rw [inList]
  cases is : inside cursor.next with
  | value a after =>
    rw [is] at tells
    exact tells
  | fault f =>
    rw [is] at tells
    exact tells
  | unplaced cause after =>
    rw [is] at tells
    cases found with
    | some a =>
      obtain ⟨_, is, -⟩ := tells
      contradiction
    | none => exact .fault _

theorem inObject_tells {inside : Reader α} {found : Option α}
    (tells : ((inside cursor.next).andThen fun a after => (closeObject after).map fun _ => a).Tells
      found rest) : (inObject inside cursor).Tells found rest := by
  rw [inObject]
  cases is : inside cursor.next with
  | value a after =>
    rw [is] at tells
    exact tells
  | fault f =>
    rw [is] at tells
    exact tells
  | unplaced cause after =>
    rw [is] at tells
    cases found with
    | some a =>
      obtain ⟨_, is, -⟩ := tells
      contradiction
    | none => exact .fault _

/-- Inside the brackets of a list. -/
theorem atItems_of_list {inside : List Char} (spells : SpellsItems true items inside)
    (before : cursor.Before ('[' :: (inside ++ [']']) ++ rest)) :
    AtItems true items rest cursor.next := by
  refine ⟨inside, spells, ?_⟩
  have behind : cursor.next.Before (inside ++ [']'] ++ rest) := before.next_cons (by decide)
  rwa [List.append_assoc] at behind

theorem finds_listValue {element : Reader α} {meaning : Tree → Option α}
    (finds : ∀ tree, Finds element meaning tree) (tree : Tree) :
    Finds (listValue element) (Tree.list? meaning) tree := by
  refine finds_onFirstByte fun {b cursor chunk rest} before opens spells ends => ?_
  cases tree with
  | list items =>
    obtain rfl := opens
    obtain ⟨inside, rfl, spellsInside⟩ := spells_list.mp spells
    have here := atItems_of_list spellsInside before
    rw [if_pos (by decide), Tree.list?]
    refine inList_tells ?_
    have tells := elements_tells (fun item _ => finds item) here (Nat.lt_succ_self _)
    have all := tells.andThen some fun a cursor _ before => (closeList_end before).map fun _ => a
    rwa [Option.bind_fun_some] at all
  | number number =>
    rw [if_neg (ne_of_number opens).2.2.2.2.1]
    exact wrongType_tells _ _ _
  | bool value =>
    obtain rfl := opens
    rw [if_neg (by cases value <;> decide)]
    exact wrongType_tells _ _ _
  | _ =>
    obtain rfl := opens
    exact wrongType_tells _ _ _

theorem nextElement_takes (before : cursor.Before text) :
    (nextElement isFirst cursor).Takes
      (fun more chunk => if more then Separates isFirst chunk else IsBlanks chunk) text := by
  obtain ⟨blanks, later, rfl, areBlanks, here⟩ := before.exists_blanks
  rw [nextElement]
  split
  next => exact .fault _
  next b front =>
    split
    next =>
      intro _ after is
      cases is
      exact ⟨blanks, later, rfl, here, areBlanks⟩
    next =>
      split
      next first =>
        intro _ after is
        cases is
        subst first
        exact ⟨blanks, later, rfl, here, areBlanks⟩
      next notFirst =>
        split
        next isComma =>
          subst isComma
          obtain ⟨later, rfl, behind⟩ := here.exists_of_peek (c := ',') front (by decide)
          obtain ⟨blanks', later, rfl, areBlanks', here'⟩ := behind.exists_blanks
          dsimp only
          split
          next => exact .fault _
          next b front' =>
            split
            next => exact .fault _
            next =>
              intro _ after is
              cases is
              refine ⟨blanks ++ ',' :: blanks', later, ?_, here', ?_⟩
              · rw [List.append_assoc, List.cons_append]
              · obtain rfl := Bool.eq_false_iff.mpr notFirst
                exact ⟨blanks, blanks', areBlanks, areBlanks', rfl⟩
        next => exact .fault _

/-- A value is behind its blanks an element. -/
theorem Separates.append {before blanks : List Char} (separates : Separates isFirst before)
    (areBlanks : IsBlanks blanks) : Separates isFirst (before ++ blanks) := by
  have both {blanks' : List Char} (areBlanks' : IsBlanks blanks') : IsBlanks (blanks' ++ blanks) :=
    fun c member => (List.mem_append.mp member).elim (areBlanks' c) (areBlanks c)
  cases isFirst with
  | true => exact both separates
  | false =>
    obtain ⟨front, back, areBlanks', areBlanks'', rfl⟩ := separates
    exact ⟨front, back ++ blanks, areBlanks', both areBlanks'', by simp⟩

theorem elements_takes {element : Reader α} {fuel : Nat} (takes : TakesValues element)
    (before : cursor.Before text) :
    (elements element fuel isFirst cursor).Takes
      (fun _ chunk => ∃ items, SpellsItems isFirst items chunk) text := by
  induction fuel generalizing cursor text isFirst with
  | zero => exact .fault _
  | succ fuel ih =>
    rw [elements]
    refine (nextElement_takes before).andThen ?_
    intro more front rest cursor' separates _ before'
    cases more with
    | false =>
      exact .value before' ⟨[], spellsItems_nil.mpr (by rw [List.append_nil]; exact separates)⟩
    | true =>
      rw [if_pos rfl]
      refine (takes before').andThen ?_
      rintro a _ rest cursor'' ⟨blanks, tree, chunk, rfl, areBlanks, spells⟩ - before''
      refine .map fun found after is => ?_
      obtain ⟨later, rest, rfl, before''', items, spellsRest⟩ := ih before'' found after is
      refine ⟨later, rest, rfl, before''', tree :: items, spellsItems_cons.mpr
        ⟨front ++ blanks, chunk, later, ?_, separates.append areBlanks, spells, spellsRest⟩⟩
      simp only [List.append_assoc]

theorem closeList_takes (before : cursor.Before text) :
    (closeList cursor).Takes (fun _ chunk => ∃ blanks, IsBlanks blanks ∧ chunk = blanks ++ [']'])
      text := by
  obtain ⟨blanks, later, rfl, areBlanks, here⟩ := before.exists_blanks
  rw [closeList]
  split
  next => exact .fault _
  next b front =>
    split
    next isEnd =>
      subst isEnd
      obtain ⟨later, rfl, behind⟩ := here.exists_of_peek (c := ']') front (by decide)
      intro _ after is
      cases is
      exact ⟨blanks ++ [']'], later, by simp, behind, blanks, areBlanks, rfl⟩
    next =>
      split
      next =>
        dsimp only
        split <;> exact .fault _
      next => exact .fault _

theorem SpellsItems.append_blanks {inside blanks : List Char}
    (spells : SpellsItems isFirst items inside) (areBlanks : IsBlanks blanks) :
    SpellsItems isFirst items (inside ++ blanks) := by
  induction items generalizing isFirst inside with
  | nil =>
    rw [spellsItems_nil] at spells ⊢
    exact fun c member => (List.mem_append.mp member).elim (spells c) (areBlanks c)
  | cons item items ih =>
    obtain ⟨front, chunk, later, rfl, separates, spells, spellsRest⟩ := spellsItems_cons.mp spells
    exact spellsItems_cons.mpr ⟨front, chunk, later ++ blanks, by simp only [List.append_assoc],
      separates, spells, ih spellsRest⟩

theorem inList_takes {inside : Reader α} (before : cursor.Before text)
    (front : cursor.peek = some 0x5b)
    (takes : ∀ {cursor : Cursor} {text : List Char}, cursor.Before text →
      (inside cursor).Takes (fun _ chunk => ∃ items, SpellsItems true items chunk) text) :
    (inList inside cursor).Takes (fun _ chunk => ∃ tree, Spells tree chunk) text := by
  obtain ⟨later, rfl, behind⟩ := before.exists_of_peek (c := '[') front (by decide)
  rw [inList]
  split
  next a after is =>
    obtain ⟨chunk, rest, rfl, before', items, spells⟩ := takes behind a after is
    refine .map fun _ cursor' is' => ?_
    obtain ⟨_, rest, rfl, before'', blanks, areBlanks, rfl⟩ := closeList_takes before' () cursor' is'
    refine ⟨'[' :: (chunk ++ blanks ++ [']']), rest, by simp, before'', .list items,
      spells_list.mpr ⟨chunk ++ blanks, rfl, spells.append_blanks areBlanks⟩⟩
  next => exact .fault _
  next => exact .fault _

theorem takesValues_listValue {element : Reader α} (takes : TakesValues element) :
    TakesValues (listValue element) := by
  refine takesValues_onFirstByte fun {b cursor text} before front => ?_
  split
  next isBracket =>
    subst isBracket
    exact inList_takes before front fun before => elements_takes takes before
  next => exact wrongType_takes _ _

/-- Before further members of an object, its brace and what follows. -/
def AtMembers (isFirst : Bool) (members : List (Option String × Tree)) (rest : List Char)
    (cursor : Cursor) : Prop :=
  ∃ inside, SpellsMembers isFirst members inside ∧ cursor.Before (inside ++ '}' :: rest)

theorem ends_members {inside : List Char} (spells : SpellsMembers false members inside)
    (rest : List Char) : Ends (inside ++ '}' :: rest) := by
  cases members with
  | nil => exact ends_of_blank_or (spellsMembers_nil.mp spells) (.inr (.inr rfl)) rest
  | cons member members =>
    obtain ⟨_, _, _, _, _, _, rfl, ⟨before, after, areBlanks, -, rfl⟩, -⟩ :=
      spellsMembers_cons.mp spells
    rw [List.append_assoc, List.append_assoc, List.cons_append]
    exact ends_of_blank_or areBlanks (.inl rfl) _

theorem nextMember_none (here : AtMembers isFirst [] rest cursor) :
    (nextMember isFirst cursor).Tells (some false) ('}' :: rest) := by
  obtain ⟨inside, spells, before⟩ := here
  have skipped := before.skipBlanks (spellsMembers_nil.mp spells) (by rintro c ⟨⟩; decide)
  rw [nextMember, skipped.peek_cons (by decide)]
  exact .value skipped

theorem nextMember_some {before : List Char} (separates : Separates isFirst before)
    (here : cursor.Before (before ++ '"' :: later)) :
    (nextMember isFirst cursor).Tells (some true) ('"' :: later) := by
  have front : ∀ d ∈ ('"' :: later).head?, isBlank d = false := by
    rintro d ⟨⟩
    decide
  cases isFirst with
  | true =>
    have skipped := here.skipBlanks separates front
    rw [nextMember, skipped.peek_cons (by decide)]
    exact .value skipped
  | false =>
    obtain ⟨blanks, blanks', areBlanks, areBlanks', rfl⟩ := separates
    rw [List.append_assoc] at here
    have atComma := here.skipBlanks areBlanks (by rintro c ⟨⟩; decide)
    have behind := atComma.next_cons (by decide)
    have skipped := Cursor.Before.skipBlanks behind areBlanks' front
    rw [nextMember, atComma.peek_cons (by decide)]
    dsimp only
    rw [if_neg (by decide), if_neg (by decide), if_pos (by decide),
      skipped.peek_cons (by decide)]
    exact .value skipped

theorem colon_tells (areBlanks : IsBlanks blanks) (before : cursor.Before (blanks ++ ':' :: rest)) :
    (colon cursor).Tells (some ()) rest := by
  have skipped := before.skipBlanks areBlanks (by rintro c ⟨⟩; decide)
  rw [colon, skipped.peek_cons (by decide)]
  exact .value (skipped.next_cons (by decide))

variable {σ : Type}

/-- A reader of members does with the tree behind a colon what is to be done with it. -/
def FindsMember (member : String → σ → Reader σ) (put : String → σ → Tree → Option σ)
    (tree : Tree) : Prop :=
  ∀ (name : String) (state : σ) ⦃cursor : Cursor⦄ ⦃blanks blanks' chunk rest : List Char⦄,
    cursor.Before (blanks ++ ':' :: (blanks' ++ (chunk ++ rest))) → IsBlanks blanks →
      IsBlanks blanks' → Spells tree chunk → Ends rest →
        (member name state cursor).Tells (put name state tree) rest

def putAll (put : String → σ → Tree → Option σ) : σ → List (Option String × Tree) → Option σ
  | state, [] => some state
  | state, (name, tree) :: members =>
    name.bind fun name => (put name state tree).bind fun state => putAll put state members

/-- The members of an object are read one after the other. -/
theorem members_tells {member : String → σ → Reader σ} {put : String → σ → Tree → Option σ}
    {fuel : Nat} {state : σ} (finds : ∀ item ∈ members, FindsMember member put item.2)
    (here : AtMembers isFirst members rest cursor) (enough : cursor.rest.length < fuel) :
    (Json.members member fuel isFirst state cursor).Tells (putAll put state members)
      ('}' :: rest) := by
  induction members generalizing cursor isFirst fuel state with
  | nil =>
    obtain _ | fuel := fuel
    · omega
    rw [Json.members]
    refine (nextMember_none here).andThen_some ?_
    intro cursor before
    exact .value before
  | cons item items ih =>
    obtain _ | fuel := fuel
    · omega
    obtain ⟨name, tree⟩ := item
    obtain ⟨_, spells, before⟩ := here
    obtain ⟨front, _, blanks, blanks', chunk, later, rfl, separates, ⟨pieces, rfl, rfl⟩, areBlanks,
      areBlanks', spells, spellsRest⟩ := spellsMembers_cons.mp spells
    have before : cursor.Before (front ++ '"' :: closed pieces
        (blanks ++ ':' :: (blanks' ++ (chunk ++ (later ++ '}' :: rest))))) := by
      simpa [closed] using before
    rw [Json.members]
    refine (nextMember_some separates before).andThen_some ?_
    intro cursor' atName
    rw [if_pos rfl]
    refine (stringTail_tells (atName.next_cons (by decide))).andThen _ ?_
    intro name cursor'' _ behindName
    have found := finds _ List.mem_cons_self name state behindName areBlanks areBlanks' spells
      (ends_members spellsRest rest)
    refine found.andThen _ ?_
    intro state cursor''' _ behindValue
    have less : cursor'''.rest.length < cursor.rest.length := by
      have whole : cursor.Before
          ((front ++ '"' :: closed pieces (blanks ++ ':' :: (blanks' ++ chunk)))
            ++ (later ++ '}' :: rest)) := by
        simpa [closed] using before
      exact whole.length_lt_of_ne_nil behindValue (by simp)
    exact ih (fun item member => finds item (List.mem_cons_of_mem _ member))
      ⟨later, spellsRest, behindValue⟩ (by omega)

theorem closeObject_end (before : cursor.Before ('}' :: rest)) :
    (closeObject cursor).Tells (some ()) rest := by
  have atEnd : cursor.Before ([] ++ '}' :: rest) := before
  have skipped := atEnd.skipBlanks nofun (by rintro c ⟨⟩; decide)
  rw [closeObject, skipped.peek_cons (by decide)]
  exact .value (skipped.next_cons (by decide))

/-- Inside the braces of an object. -/
theorem atMembers_of_object {inside : List Char} (spells : SpellsMembers true members inside)
    (before : cursor.Before ('{' :: (inside ++ ['}']) ++ rest)) :
    AtMembers true members rest cursor.next := by
  refine ⟨inside, spells, ?_⟩
  have behind : cursor.next.Before (inside ++ ['}'] ++ rest) := before.next_cons (by decide)
  rwa [List.append_assoc] at behind

theorem nextMember_takes (before : cursor.Before text) :
    ∀ more after, nextMember isFirst cursor = .value more after →
      ∃ chunk rest, text = chunk ++ rest ∧ after.Before rest ∧
        if more then Separates isFirst chunk ∧ ∃ later, rest = '"' :: later else IsBlanks chunk := by
  obtain ⟨blanks, later, rfl, areBlanks, here⟩ := before.exists_blanks
  intro more after is
  rw [nextMember] at is
  split at is
  next => contradiction
  next b front =>
    split at is
    next =>
      cases is
      exact ⟨blanks, later, rfl, here, areBlanks⟩
    next =>
      split at is
      next first =>
        split at is
        next isQuote =>
          cases is
          subst first isQuote
          obtain ⟨later, rfl, -⟩ := here.exists_of_peek (c := '"') front (by decide)
          exact ⟨blanks, _, rfl, here, areBlanks, later, rfl⟩
        next => contradiction
      next notFirst =>
        split at is
        next isComma =>
          subst isComma
          obtain ⟨later, rfl, behind⟩ := here.exists_of_peek (c := ',') front (by decide)
          obtain ⟨blanks', later, rfl, areBlanks', here'⟩ := behind.exists_blanks
          dsimp only at is
          split at is
          next => contradiction
          next b front' =>
            split at is
            next isQuote =>
              cases is
              subst isQuote
              obtain ⟨later, rfl, -⟩ := here'.exists_of_peek (c := '"') front' (by decide)
              obtain rfl := Bool.eq_false_iff.mpr notFirst
              exact ⟨blanks ++ ',' :: blanks', _, by simp, here',
                ⟨blanks, blanks', areBlanks, areBlanks', rfl⟩, later, rfl⟩
            next => split at is <;> contradiction
        next => contradiction

theorem colon_takes (before : cursor.Before text) :
    (colon cursor).Takes (fun _ chunk => ∃ blanks, IsBlanks blanks ∧ chunk = blanks ++ [':'])
      text := by
  obtain ⟨blanks, later, rfl, areBlanks, here⟩ := before.exists_blanks
  rw [colon]
  split
  next => exact .fault _
  next b front =>
    split
    next isColon =>
      subst isColon
      obtain ⟨later, rfl, behind⟩ := here.exists_of_peek (c := ':') front (by decide)
      intro _ after is
      cases is
      exact ⟨blanks ++ [':'], later, by simp, behind, blanks, areBlanks, rfl⟩
    next => exact .fault _

def IsMember (text : List Char) : Prop :=
  ∃ blanks value, text = blanks ++ ':' :: value ∧ IsBlanks blanks ∧ IsValue value

/-- A reader takes only a colon and a value. -/
def TakesMember {α : Type} (reader : Reader α) : Prop :=
  ∀ ⦃cursor : Cursor⦄ ⦃text : List Char⦄, cursor.Before text →
    (reader cursor).Takes (fun _ => IsMember) text

theorem members_takes {member : String → σ → Reader σ} {fuel : Nat} {state : σ}
    (takes : ∀ name state, TakesMember (member name state)) (before : cursor.Before text) :
    (Json.members member fuel isFirst state cursor).Takes
      (fun _ chunk => ∃ members, SpellsMembers isFirst members chunk) text := by
  induction fuel generalizing cursor text isFirst state with
  | zero => exact .fault _
  | succ fuel ih =>
    intro found after is
    rw [Json.members] at is
    obtain ⟨more, cursor', isMore, is⟩ := Outcome.exists_of_andThen is
    obtain ⟨front, rest, rfl, before', separates⟩ := nextMember_takes before more cursor' isMore
    cases more with
    | false =>
      cases is
      exact ⟨front, rest, rfl, before', [], spellsMembers_nil.mpr separates⟩
    | true =>
      obtain ⟨separates, later, rfl⟩ := separates
      rw [if_pos rfl] at is
      obtain ⟨name, cursor'', isName, is⟩ := Outcome.exists_of_andThen is
      obtain ⟨_, rest, rfl, before'', pieces, rfl⟩ :=
        stringTail_takes (before'.next_cons (by decide)) name cursor'' isName
      obtain ⟨state', cursor''', isState, is⟩ := Outcome.exists_of_andThen is
      obtain ⟨_, rest, rfl, before''', blanks, _, rfl, areBlanks, blanks', tree, chunk, rfl,
        areBlanks', spells⟩ := takes name state before'' state' cursor''' isState
      obtain ⟨chunk', rest, rfl, after', members, spellsRest⟩ := ih before''' found after is
      refine ⟨front ++ ('"' :: closed pieces [] ++ (blanks ++ ':' :: (blanks' ++ (chunk ++ chunk')))),
        rest, ?_, after', ((meaning? pieces).map String.ofList, tree) :: members,
        spellsMembers_cons.mpr ⟨front, '"' :: closed pieces [], blanks, blanks', chunk, chunk', rfl,
          separates, ⟨pieces, rfl, rfl⟩, areBlanks, areBlanks', spells, spellsRest⟩⟩
      simp [closed]

theorem closeObject_takes (before : cursor.Before text) :
    (closeObject cursor).Takes (fun _ chunk => ∃ blanks, IsBlanks blanks ∧ chunk = blanks ++ ['}'])
      text := by
  obtain ⟨blanks, later, rfl, areBlanks, here⟩ := before.exists_blanks
  rw [closeObject]
  split
  next => exact .fault _
  next b front =>
    split
    next isEnd =>
      subst isEnd
      obtain ⟨later, rfl, behind⟩ := here.exists_of_peek (c := '}') front (by decide)
      intro _ after is
      cases is
      exact ⟨blanks ++ ['}'], later, by simp, behind, blanks, areBlanks, rfl⟩
    next => split <;> exact .fault _

theorem SpellsMembers.append_blanks {inside blanks : List Char}
    (spells : SpellsMembers isFirst members inside) (areBlanks : IsBlanks blanks) :
    SpellsMembers isFirst members (inside ++ blanks) := by
  induction members generalizing isFirst inside with
  | nil =>
    rw [spellsMembers_nil] at spells ⊢
    exact fun c member => (List.mem_append.mp member).elim (spells c) (areBlanks c)
  | cons member members ih =>
    obtain ⟨front, quoted, between, between', chunk, later, rfl, separates, isName, areBetween,
      areBetween', spells, spellsRest⟩ := spellsMembers_cons.mp spells
    exact spellsMembers_cons.mpr ⟨front, quoted, between, between', chunk, later ++ blanks, by simp,
      separates, isName, areBetween, areBetween', spells, ih spellsRest⟩

theorem inObject_takes {inside : Reader α} (before : cursor.Before text)
    (front : cursor.peek = some 0x7b)
    (takes : ∀ {cursor : Cursor} {text : List Char}, cursor.Before text →
      (inside cursor).Takes (fun _ chunk => ∃ members, SpellsMembers true members chunk) text) :
    (inObject inside cursor).Takes (fun _ chunk => ∃ tree, Spells tree chunk) text := by
  obtain ⟨later, rfl, behind⟩ := before.exists_of_peek (c := '{') front (by decide)
  rw [inObject]
  split
  next a after is =>
    obtain ⟨chunk, rest, rfl, before', members, spells⟩ := takes behind a after is
    refine .map fun _ cursor' is' => ?_
    obtain ⟨_, rest, rfl, before'', blanks, areBlanks, rfl⟩ :=
      closeObject_takes before' () cursor' is'
    refine ⟨'{' :: (chunk ++ blanks ++ ['}']), rest, by simp, before'', .object members,
      spells_object.mpr ⟨chunk ++ blanks, rfl, spells.append_blanks areBlanks⟩⟩
  next => exact .fault _
  next => exact .fault _

end Isolate.Json
