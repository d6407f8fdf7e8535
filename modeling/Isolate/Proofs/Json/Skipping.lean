import Isolate.Proofs.Json.Containers

/-!
# Passing over values in JSON texts

A value that nobody asks for is passed over, however deep it is. A stack of frames stands for the lists
and objects around the place reached.
-/

namespace Isolate.Json

open Text

variable {cursor : Cursor} {rest later text blanks chunk : List Char} {tree : Tree} {isFirst : Bool}
  {items : List Tree} {members : List (Option String × Tree)} {fuel : Nat}

def goOn (fuel : Nat) : List Frame → Reader Unit
  | [], cursor => .value () cursor
  | .object :: outer, cursor =>
    (skipName cursor).andThen fun _ cursor => skipWithin fuel (.object :: outer) cursor
  | .list :: outer, cursor => skipWithin fuel (.list :: outer) cursor

def afterValue (fuel : Nat) (frames : List Frame) : Reader Unit := fun cursor =>
  (skipClosings true frames cursor).andThen (goOn fuel)

theorem goOn_eq (fuel : Nat) (frames : List Frame) (cursor : Cursor) :
    (match frames with
      | [] => .value () cursor
      | .object :: _ => (skipName cursor).andThen fun _ cursor => skipWithin fuel frames cursor
      | .list :: _ => skipWithin fuel frames cursor) = goOn fuel frames cursor := by
  obtain _ | ⟨_ | _, outer⟩ := frames <;> rfl

/-- A value is passed, or the bracket that opens it is. -/
theorem skipWithin_eq (fuel : Nat) (frames : List Frame) (cursor : Cursor) :
    skipWithin (fuel + 1) frames cursor =
      (skipOpening cursor).andThen fun opened cursor =>
        match opened with
        | some frame => (skipClosings false (frame :: frames) cursor).andThen (goOn fuel)
        | none => afterValue fuel frames cursor := by
  rw [skipWithin]
  congr 1
  funext opened cursor
  cases opened with
  | none =>
    exact congrArg (skipClosings true frames cursor).andThen
      (funext fun frames => funext fun cursor => goOn_eq fuel frames cursor)
  | some frame =>
    exact congrArg (skipClosings false (frame :: frames) cursor).andThen
      (funext fun frames => funext fun cursor => goOn_eq fuel frames cursor)

def Frame.closing : Frame → Char
  | .list => ']'
  | .object => '}'

theorem skipClosings_close (frame : Frame) (outer : List Frame) (afterElement : Bool)
    (areBlanks : IsBlanks blanks) (before : cursor.Before (blanks ++ frame.closing :: rest)) :
    cursor.skipSpaces.next.Before rest ∧
      skipClosings afterElement (frame :: outer) cursor =
        skipClosings true outer cursor.skipSpaces.next := by
  have low : frame.closing.toNat < 0x80 := by cases frame <;> decide
  have skipped := before.skipBlanks areBlanks (by rintro c ⟨⟩; cases frame <;> decide)
  refine ⟨skipped.next_cons low, ?_⟩
  rw [skipClosings.eq_def]
  dsimp only
  rw [skipped.peek_cons low]
  cases frame <;> cases afterElement <;> rfl

theorem skipClosings_comma (frame : Frame) (outer : List Frame) (areBlanks : IsBlanks blanks)
    (before : cursor.Before (blanks ++ ',' :: rest)) :
    cursor.skipSpaces.next.Before rest ∧
      skipClosings true (frame :: outer) cursor =
        .value (frame :: outer) cursor.skipSpaces.next := by
  have skipped := before.skipBlanks areBlanks (by rintro c ⟨⟩; decide)
  refine ⟨skipped.next_cons (by decide), ?_⟩
  rw [skipClosings.eq_def]
  dsimp only
  rw [skipped.peek_cons (by decide)]
  rfl

theorem skipClosings_first {c : Char} (frame : Frame) (outer : List Frame)
    (areBlanks : IsBlanks blanks) (low : c.toNat < 0x80) (notBlank : isBlank c = false)
    (notBracket : c ≠ ']') (notBrace : c ≠ '}') (before : cursor.Before (blanks ++ c :: later)) :
    cursor.skipSpaces.Before (c :: later) ∧
      skipClosings false (frame :: outer) cursor = .value (frame :: outer) cursor.skipSpaces := by
  have skipped := before.skipBlanks areBlanks (by rintro d ⟨⟩; exact notBlank)
  have notBracket : byte c ≠ 0x5d := fun same =>
    notBracket (eq_of_byte low (by decide) (same.trans (by decide : 0x5d = byte ']')))
  have notBrace : byte c ≠ 0x7d := fun same =>
    notBrace (eq_of_byte low (by decide) (same.trans (by decide : 0x7d = byte '}')))
  refine ⟨skipped, ?_⟩
  rw [skipClosings.eq_def]
  dsimp only
  rw [skipped.peek_cons low]
  simp [notBracket, notBrace]

theorem skipName_tells {pieces : List Piece} {blanks' : List Char} (areBlanks : IsBlanks blanks)
    (areBlanks' : IsBlanks blanks')
    (before : cursor.Before (blanks ++ '"' :: closed pieces (blanks' ++ ':' :: rest))) :
    (skipName cursor).Tells (some ()) rest := by
  have skipped := before.skipBlanks areBlanks (by rintro c ⟨⟩; decide)
  rw [skipName, skipped.peek_cons (by decide)]
  dsimp only
  rw [if_pos (by decide)]
  refine (skipString_tells (skipped.next_cons (by decide)) (Cursor.length_next_lt _)).andThen_some ?_
  intro cursor' behind
  have atColon := behind.skipBlanks areBlanks' (by rintro c ⟨⟩; decide)
  rw [atColon.peek_cons (by decide)]
  exact .value (atColon.next_cons (by decide))

theorem skipOpening_list (areBlanks : IsBlanks blanks)
    (before : cursor.Before (blanks ++ '[' :: rest)) :
    (skipOpening cursor).Tells (some (some .list)) rest := by
  have skipped := before.skipBlanks areBlanks (by rintro c ⟨⟩; decide)
  rw [skipOpening, skipped.peek_cons (by decide)]
  exact .value (skipped.next_cons (by decide))

theorem skipOpening_object (areBlanks : IsBlanks blanks)
    (before : cursor.Before (blanks ++ '{' :: rest)) :
    (skipOpening cursor).Tells (some (some .object)) rest := by
  have skipped := before.skipBlanks areBlanks (by rintro c ⟨⟩; decide)
  rw [skipOpening, skipped.peek_cons (by decide)]
  exact .value (skipped.next_cons (by decide))

/-- A value without brackets is passed at once. -/
theorem skipOpening_leaf (noList : ∀ items, tree ≠ .list items)
    (noObject : ∀ members, tree ≠ .object members) (areBlanks : IsBlanks blanks)
    (before : cursor.Before (blanks ++ (chunk ++ rest))) (spells : Spells tree chunk)
    (ends : Ends rest) : (skipOpening cursor).Tells (some none) rest := by
  obtain ⟨here, c, more, split, opens, peek⟩ := before.opening areBlanks spells
  rw [skipOpening, peek]
  dsimp only
  cases tree with
  | null =>
    obtain rfl := opens
    obtain rfl := spells_null.mp spells
    exact (word_tells "ull".toList (by simp) (here.next_cons (by decide))).map _
  | bool value =>
    obtain rfl := spells_bool.mp spells
    cases value with
    | true =>
      obtain rfl := opens
      exact (word_tells "rue".toList (by simp) (here.next_cons (by decide))).map _
    | false =>
      obtain rfl := opens
      exact (word_tells "alse".toList (by simp) (here.next_cons (by decide))).map _
  | number number =>
    obtain rfl := spells_number.mp spells
    obtain ⟨noNull, noTrue, noFalse, -⟩ := ne_of_number opens.byte
    rw [if_neg noNull, if_neg noTrue, if_neg noFalse]
    rw [NumberText.chars] at here split
    cases sign : number.isNegative with
    | true =>
      rw [sign] at here split
      obtain ⟨rfl, -⟩ : '-' = c ∧ _ := List.cons.inj split
      rw [if_pos (by decide)]
      have behind : cursor.skipSpaces.next.Before
          (Nat.toDigits 10 number.whole ++ (number.tail ++ rest)) := by
        rw [← List.append_assoc]
        exact here.next_cons (by decide)
      exact (skipNumeral_tells ends.stops behind).map _
    | false =>
      rw [sign, if_neg (by decide), List.nil_append] at here split
      have digit : isDigit c = true := by
        obtain ⟨d, digits, isNumeral⟩ :=
          List.exists_cons_of_ne_nil (Nat.toDigits_ne_nil (n := number.whole))
        rw [isNumeral] at split
        obtain ⟨rfl, -⟩ := List.cons.inj split
        exact isDigit_of_mem_toDigits (isNumeral ▸ List.mem_cons_self)
      obtain ⟨-, isByte, -⟩ := byte_digit digit []
      have noMinus : byte c ≠ 0x2d := by
        intro is
        rw [is] at isByte
        contradiction
      rw [if_neg noMinus, if_pos isByte]
      exact (skipNumeral_tells ends.stops (List.append_assoc .. ▸ here)).map _
  | string meaning =>
    obtain rfl := opens
    obtain ⟨pieces, rfl, -⟩ := spells_string.mp spells
    rw [List.cons_append, List.append_assoc] at here
    have tells := skipString_tells (here.next_cons (by decide)) (Cursor.length_next_lt _)
    exact tells.map _
  | list items => exact absurd rfl (noList items)
  | object members => exact absurd rfl (noObject members)

/-- What is left to do is to go on behind a value, inside some frames and in front of this text. -/
def Continues (frames : List Frame) (rest : List Char) (outcome : Outcome Unit) : Prop :=
  ∃ fuel cursor, cursor.Before rest ∧ cursor.rest.length < fuel ∧
    outcome = afterValue fuel frames cursor

/-- The texts of a tree are passed inside any frames. -/
def IsSkipped (tree : Tree) : Prop :=
  ∀ (frames : List Frame) {fuel : Nat} {cursor : Cursor} {blanks chunk rest : List Char},
    cursor.Before (blanks ++ (chunk ++ rest)) → IsBlanks blanks → Spells tree chunk → Ends rest →
      cursor.rest.length < fuel → Continues frames rest (skipWithin fuel frames cursor)

/-- The elements behind one are passed, and the end of the list with them. -/
theorem continues_items (frames : List Frame) (skipped : ∀ item ∈ items, IsSkipped item)
    (here : AtItems false items rest cursor) (enough : cursor.rest.length < fuel) :
    Continues frames rest (afterValue fuel (.list :: frames) cursor) := by
  induction items generalizing cursor fuel with
  | nil =>
    obtain ⟨inside, spells, before⟩ := here
    obtain ⟨before', closes⟩ :=
      skipClosings_close .list frames true (spellsItems_nil.mp spells) before
    have whole : cursor.Before ((inside ++ [']']) ++ rest) := by simpa using before
    have less := whole.length_lt_of_ne_nil before' (by simp)
    rw [afterValue, closes]
    exact ⟨fuel, _, before', by omega, rfl⟩
  | cons item items ih =>
    obtain ⟨inside, spells, before⟩ := here
    obtain ⟨_, chunk, later, rfl, ⟨blanks, blanks', areBlanks, areBlanks', rfl⟩, spells,
      spellsRest⟩ := spellsItems_cons.mp spells
    have before : cursor.Before (blanks ++ ',' :: (blanks' ++ (chunk ++ (later ++ ']' :: rest)))) := by
      simpa using before
    obtain ⟨before', passes⟩ := skipClosings_comma .list frames areBlanks before
    have whole : cursor.Before
        ((blanks ++ [',']) ++ (blanks' ++ (chunk ++ (later ++ ']' :: rest)))) := by
      simpa using before
    have less := whole.length_lt_of_ne_nil before' (by simp)
    obtain ⟨fuel', cursor', here', enough', is⟩ :=
      skipped item List.mem_cons_self (.list :: frames) before' areBlanks' spells
        (ends_items spellsRest rest) (by omega : _ < fuel)
    rw [afterValue, passes]
    have goes := ih (fun item member => skipped item (List.mem_cons_of_mem _ member))
      ⟨later, spellsRest, here'⟩ enough'
    rwa [← is] at goes

/-- So are the members behind one. -/
theorem continues_members (frames : List Frame) (skipped : ∀ member ∈ members, IsSkipped member.2)
    (here : AtMembers false members rest cursor) (enough : cursor.rest.length < fuel) :
    Continues frames rest (afterValue fuel (.object :: frames) cursor) := by
  induction members generalizing cursor fuel with
  | nil =>
    obtain ⟨inside, spells, before⟩ := here
    obtain ⟨before', closes⟩ :=
      skipClosings_close .object frames true (spellsMembers_nil.mp spells) before
    have whole : cursor.Before ((inside ++ ['}']) ++ rest) := by simpa using before
    have less := whole.length_lt_of_ne_nil before' (by simp)
    rw [afterValue, closes]
    exact ⟨fuel, _, before', by omega, rfl⟩
  | cons member members ih =>
    obtain ⟨name, tree⟩ := member
    obtain ⟨inside, spells, before⟩ := here
    obtain ⟨_, _, between, between', chunk, later, rfl, ⟨blanks, blanks', areBlanks, areBlanks', rfl⟩,
      ⟨pieces, rfl, rfl⟩, areBetween, areBetween', spells, spellsRest⟩ :=
      spellsMembers_cons.mp spells
    have before : cursor.Before (blanks ++ ',' :: (blanks' ++ '"' :: closed pieces
        (between ++ ':' :: (between' ++ (chunk ++ (later ++ '}' :: rest)))))) := by
      simpa [closed] using before
    obtain ⟨before', passes⟩ := skipClosings_comma .object frames areBlanks before
    obtain ⟨cursor'', passesName, before''⟩ := skipName_tells areBlanks' areBetween before'
    have whole : cursor.Before ((blanks ++ ',' :: (blanks' ++ '"' :: closed pieces (between ++ [':'])))
        ++ (between' ++ (chunk ++ (later ++ '}' :: rest)))) := by
      simpa [closed] using before
    have less := whole.length_lt_of_ne_nil before'' (by simp)
    obtain ⟨fuel', cursor', here', enough', is⟩ :=
      skipped _ List.mem_cons_self (.object :: frames) before'' areBetween' spells
        (ends_members spellsRest rest) (by omega : _ < fuel)
    have goes := ih (fun item member => skipped item (List.mem_cons_of_mem _ member))
      ⟨later, spellsRest, here'⟩ enough'
    rw [← is] at goes
    have begins : afterValue fuel (.object :: frames) cursor =
        skipWithin fuel (.object :: frames) cursor'' := by
      rw [afterValue, passes]
      exact congrArg (Outcome.andThen · _) passesName
    rwa [begins]

/-- From behind its bracket on, a list is passed to its end. -/
theorem continues_list (frames : List Frame) (skipped : ∀ item ∈ items, IsSkipped item)
    (here : AtItems true items rest cursor) (enough : cursor.rest.length < fuel) :
    Continues frames rest ((skipClosings false (.list :: frames) cursor).andThen (goOn fuel)) := by
  obtain ⟨inside, spells, before⟩ := here
  cases items with
  | nil =>
    obtain ⟨before', closes⟩ :=
      skipClosings_close .list frames false (spellsItems_nil.mp spells) before
    have whole : cursor.Before ((inside ++ [']']) ++ rest) := by simpa using before
    have less := whole.length_lt_of_ne_nil before' (by simp)
    rw [closes]
    exact ⟨fuel, _, before', by omega, rfl⟩
  | cons item items =>
    obtain ⟨blanks, chunk, later, rfl, areBlanks, spells, spellsRest⟩ := spellsItems_cons.mp spells
    obtain ⟨c, more, rfl, opens⟩ := spells.head
    obtain ⟨low, notBlank, notBracket, notBrace, -⟩ := opens.ne
    have before : cursor.Before (blanks ++ c :: (more ++ (later ++ ']' :: rest))) := by
      simpa using before
    obtain ⟨before', passes⟩ := skipClosings_first .list frames areBlanks low notBlank notBracket
      notBrace before
    have atItem : cursor.skipSpaces.Before ([] ++ (c :: more ++ (later ++ ']' :: rest))) := before'
    have fewer := Cursor.length_skipSpaces_le cursor
    obtain ⟨fuel', cursor', here', enough', is⟩ :=
      skipped item List.mem_cons_self (.list :: frames) atItem isBlanks_nil spells
        (ends_items spellsRest rest) (by omega : _ < fuel)
    have goes := continues_items frames
      (fun item member => skipped item (List.mem_cons_of_mem _ member))
      ⟨later, spellsRest, here'⟩ enough'
    rw [← is] at goes
    rwa [passes]

/-- From behind its brace on, an object is passed to its end. -/
theorem continues_object (frames : List Frame) (skipped : ∀ member ∈ members, IsSkipped member.2)
    (here : AtMembers true members rest cursor) (enough : cursor.rest.length < fuel) :
    Continues frames rest ((skipClosings false (.object :: frames) cursor).andThen (goOn fuel)) := by
  obtain ⟨inside, spells, before⟩ := here
  cases members with
  | nil =>
    obtain ⟨before', closes⟩ :=
      skipClosings_close .object frames false (spellsMembers_nil.mp spells) before
    have whole : cursor.Before ((inside ++ ['}']) ++ rest) := by simpa using before
    have less := whole.length_lt_of_ne_nil before' (by simp)
    rw [closes]
    exact ⟨fuel, _, before', by omega, rfl⟩
  | cons member members =>
    obtain ⟨blanks, _, between, between', chunk, later, rfl, areBlanks, ⟨pieces, rfl, -⟩,
      areBetween, areBetween', spells, spellsRest⟩ := spellsMembers_cons.mp spells
    have before : cursor.Before (blanks ++ '"' :: closed pieces
        (between ++ ':' :: (between' ++ (chunk ++ (later ++ '}' :: rest))))) := by
      simpa [closed] using before
    obtain ⟨before', passes⟩ := skipClosings_first .object frames areBlanks (by decide) (by decide)
      (by decide) (by decide) before
    have atName : cursor.skipSpaces.Before ([] ++ '"' :: closed pieces
        (between ++ ':' :: (between' ++ (chunk ++ (later ++ '}' :: rest))))) := before'
    obtain ⟨cursor', passesName, before''⟩ := skipName_tells isBlanks_nil areBetween atName
    have whole : cursor.skipSpaces.Before (('"' :: closed pieces (between ++ [':']))
        ++ (between' ++ (chunk ++ (later ++ '}' :: rest)))) := by
      simpa [closed] using before'
    have less := whole.length_lt_of_ne_nil before'' (by simp)
    have fewer := Cursor.length_skipSpaces_le cursor
    obtain ⟨fuel', cursor'', here', enough', is⟩ :=
      skipped _ List.mem_cons_self (.object :: frames) before'' areBetween' spells
        (ends_members spellsRest rest) (by omega : _ < fuel)
    have goes := continues_members frames
      (fun member isMember => skipped member (List.mem_cons_of_mem _ isMember))
      ⟨later, spellsRest, here'⟩ enough'
    rw [← is] at goes
    have begins : (skipClosings false (.object :: frames) cursor).andThen (goOn fuel) =
        skipWithin fuel (.object :: frames) cursor' := by
      rw [passes]
      exact congrArg (Outcome.andThen · _) passesName
    rwa [begins]

theorem isSkipped (tree : Tree) : IsSkipped tree := by
  have leaf {tree : Tree} (noList : ∀ items, tree ≠ .list items)
      (noObject : ∀ members, tree ≠ .object members) : IsSkipped tree := by
    intro frames fuel cursor blanks chunk rest before areBlanks spells ends enough
    obtain _ | fuel := fuel
    · omega
    obtain ⟨cursor', is, before'⟩ :=
      skipOpening_leaf noList noObject areBlanks before spells ends
    obtain ⟨c, more, rfl, -⟩ := spells.head
    have less := Cursor.Before.length_lt_of_ne_nil (List.append_assoc .. ▸ before) before' (by simp)
    rw [skipWithin_eq, is]
    exact ⟨fuel, cursor', before', by omega, rfl⟩
  induction tree with
  | null => exact leaf (by simp) (by simp)
  | bool => exact leaf (by simp) (by simp)
  | number => exact leaf (by simp) (by simp)
  | string => exact leaf (by simp) (by simp)
  | list items skipped =>
    intro frames fuel cursor blanks chunk rest before areBlanks spells ends enough
    obtain _ | fuel := fuel
    · omega
    obtain ⟨inside, rfl, spellsInside⟩ := spells_list.mp spells
    have before : cursor.Before (blanks ++ '[' :: (inside ++ ']' :: rest)) := by simpa using before
    obtain ⟨cursor', is, before'⟩ := skipOpening_list areBlanks before
    have whole : cursor.Before ((blanks ++ ['[']) ++ (inside ++ ']' :: rest)) := by
      simpa using before
    have less := whole.length_lt_of_ne_nil before' (by simp)
    rw [skipWithin_eq, is]
    exact continues_list frames skipped ⟨inside, spellsInside, before'⟩ (by omega)
  | object members skipped =>
    intro frames fuel cursor blanks chunk rest before areBlanks spells ends enough
    obtain _ | fuel := fuel
    · omega
    obtain ⟨inside, rfl, spellsInside⟩ := spells_object.mp spells
    have before : cursor.Before (blanks ++ '{' :: (inside ++ '}' :: rest)) := by simpa using before
    obtain ⟨cursor', is, before'⟩ := skipOpening_object areBlanks before
    have whole : cursor.Before ((blanks ++ ['{']) ++ (inside ++ '}' :: rest)) := by
      simpa using before
    have less := whole.length_lt_of_ne_nil before' (by simp)
    rw [skipWithin_eq, is]
    exact continues_object frames skipped ⟨inside, spellsInside, before'⟩ (by omega)

/-- A value of any kind and any depth is passed over. -/
theorem finds_skipValue (tree : Tree) : Finds skipValue (fun _ => some ()) tree := by
  intro cursor blanks chunk rest before areBlanks spells ends
  obtain ⟨fuel, cursor', before', -, is⟩ :=
    isSkipped tree [] before areBlanks spells ends (Nat.lt_succ_self _)
  rw [skipValue, is]
  exact .value before'

/-- What may stand behind a value inside some frames, up to the end of the outermost. -/
inductive Completes : List Frame → List Char → Prop where
  | done : Completes [] []
  | close {frame : Frame} {outer : List Frame} {blanks later : List Char} :
      IsBlanks blanks → Completes outer later →
        Completes (frame :: outer) (blanks ++ frame.closing :: later)
  | item {outer : List Frame} {tree : Tree} {before chunk later : List Char} :
      Separates false before → Spells tree chunk → Completes (.list :: outer) later →
        Completes (.list :: outer) (before ++ (chunk ++ later))
  | member {outer : List Frame} {name : Option String} {tree : Tree}
      {before quoted blanks blanks' chunk later : List Char} :
      Separates false before → SpellsString name quoted → IsBlanks blanks → IsBlanks blanks' →
        Spells tree chunk → Completes (.object :: outer) later →
          Completes (.object :: outer)
            (before ++ (quoted ++ (blanks ++ ':' :: (blanks' ++ (chunk ++ later)))))

def SpellsInside (isFirst : Bool) (inside : List Char) : Frame → Prop
  | .list => ∃ items, SpellsItems isFirst items inside
  | .object => ∃ members, SpellsMembers isFirst members inside

/-- Behind a value its innermost frame is filled up first. -/
theorem Completes.split {frame : Frame} {outer : List Frame}
    (completes : Completes (frame :: outer) text) :
    ∃ inside later, text = inside ++ frame.closing :: later ∧ SpellsInside false inside frame ∧
      Completes outer later := by
  generalize is : frame :: outer = frames at completes
  induction completes with
  | done => contradiction
  | close areBlanks completes =>
    cases is
    refine ⟨_, _, rfl, ?_, completes⟩
    cases frame with
    | list => exact ⟨[], spellsItems_nil.mpr areBlanks⟩
    | object => exact ⟨[], spellsMembers_nil.mpr areBlanks⟩
  | @item _ tree before chunk later separates spells _ ih =>
    cases is
    obtain ⟨inside, later', rfl, ⟨items, spellsRest⟩, completes⟩ := ih rfl
    exact ⟨before ++ (chunk ++ inside), later', by simp, ⟨tree :: items, spellsItems_cons.mpr
      ⟨before, chunk, inside, rfl, separates, spells, spellsRest⟩⟩, completes⟩
  | @member _ name tree before quoted blanks blanks' chunk later separates isName areBlanks areBlanks'
      spells _ ih =>
    cases is
    obtain ⟨inside, later', rfl, ⟨members, spellsRest⟩, completes⟩ := ih rfl
    exact ⟨before ++ (quoted ++ (blanks ++ ':' :: (blanks' ++ (chunk ++ inside)))), later', by simp,
      ⟨(name, tree) :: members, spellsMembers_cons.mpr ⟨before, quoted, blanks, blanks', chunk, inside,
        rfl, separates, isName, areBlanks, areBlanks', spells, spellsRest⟩⟩, completes⟩

/-- What goes on in the innermost frame: an element or a member, and what stands behind it. -/
def Resumes : List Frame → List Char → Prop
  | [], text => text = []
  | .list :: outer, text =>
    ∃ blanks tree chunk later, text = blanks ++ (chunk ++ later) ∧ IsBlanks blanks ∧
      Spells tree chunk ∧ Completes (.list :: outer) later
  | .object :: outer, text =>
    ∃ blanks name quoted between between' tree chunk later,
      text = blanks ++ (quoted ++ (between ++ ':' :: (between' ++ (chunk ++ later)))) ∧
        IsBlanks blanks ∧ SpellsString name quoted ∧ IsBlanks between ∧ IsBlanks between' ∧
          Spells tree chunk ∧ Completes (.object :: outer) later

/-- Behind a comma the innermost frame goes on. -/
theorem completes_of_resumes {frame : Frame} {outer : List Frame} {before more : List Char}
    (areBlanks : IsBlanks before) (resumes : Resumes (frame :: outer) more) :
    Completes (frame :: outer) (before ++ ',' :: more) := by
  cases frame with
  | list =>
    obtain ⟨blanks, tree, chunk, later, rfl, areBlanks', spells, completes⟩ := resumes
    have all := Completes.item ⟨before, blanks, areBlanks, areBlanks', rfl⟩ spells completes
    rwa [List.append_assoc, List.cons_append] at all
  | object =>
    obtain ⟨blanks, name, quoted, between, between', tree, chunk, later, rfl, areBlanks', isName,
      areBetween, areBetween', spells, completes⟩ := resumes
    have all := Completes.member ⟨before, blanks, areBlanks, areBlanks', rfl⟩ isName areBetween
      areBetween' spells completes
    rwa [List.append_assoc, List.cons_append] at all

/-- Behind an opening bracket a frame begins, and is filled up. -/
theorem inside_of_resumes {frame : Frame} {outer : List Frame} {before more : List Char}
    (areBlanks : IsBlanks before) (resumes : Resumes (frame :: outer) more) :
    ∃ inside later, before ++ more = inside ++ frame.closing :: later ∧
      SpellsInside true inside frame ∧ Completes outer later := by
  cases frame with
  | list =>
    obtain ⟨blanks, tree, chunk, later, rfl, areBlanks', spells, completes⟩ := resumes
    obtain ⟨inside, later, rfl, ⟨items, spellsRest⟩, completes⟩ := completes.split
    have separates : Separates true before := areBlanks
    refine ⟨before ++ blanks ++ (chunk ++ inside), later, by simp, ⟨tree :: items,
      spellsItems_cons.mpr ⟨before ++ blanks, chunk, inside, rfl, separates.append areBlanks', spells,
        spellsRest⟩⟩, completes⟩
  | object =>
    obtain ⟨blanks, name, quoted, between, between', tree, chunk, later, rfl, areBlanks', isName,
      areBetween, areBetween', spells, completes⟩ := resumes
    obtain ⟨inside, later, rfl, ⟨members, spellsRest⟩, completes⟩ := completes.split
    have separates : Separates true before := areBlanks
    exact ⟨before ++ blanks ++ (quoted ++ (between ++ ':' :: (between' ++ (chunk ++ inside)))), later,
      by simp, ⟨(name, tree) :: members, spellsMembers_cons.mpr ⟨before ++ blanks, quoted, between,
        between', chunk, inside, rfl, separates.append areBlanks', isName, areBetween, areBetween',
        spells, spellsRest⟩⟩, completes⟩

theorem byte_closing {b : UInt8} {frame : Frame}
    (is : (b = 0x5d && frame = .list || b = 0x7d && frame = .object) = true) :
    b = byte frame.closing := by
  cases frame with
  | list =>
    have is : b = 0x5d := by simpa using is
    exact is
  | object =>
    have is : b = 0x7d := by simpa using is
    exact is

theorem skipClosings_takes (frames : List Frame) (before : cursor.Before text) :
    (skipClosings true frames cursor).Takes
      (fun frames' chunk => ∀ more, Resumes frames' more → Completes frames (chunk ++ more)) text := by
  induction frames generalizing cursor text with
  | nil =>
    refine .value before fun more resumes => ?_
    obtain rfl := resumes
    exact .done
  | cons frame outer ih =>
    obtain ⟨blanks, later, rfl, areBlanks, here⟩ := before.exists_blanks
    rw [skipClosings.eq_def]
    dsimp only
    split
    next => exact .fault _
    next b front =>
      split
      next isComma =>
        obtain rfl : b = 0x2c := by simpa using isComma
        obtain ⟨later, rfl, behind⟩ := here.exists_of_peek (c := ',') front (by decide)
        intro _ after is
        cases is
        refine ⟨blanks ++ [','], later, by simp, behind, fun more resumes => ?_⟩
        have all := completes_of_resumes areBlanks resumes
        rwa [List.append_assoc, List.singleton_append]
      next =>
        split
        next isClosing =>
          obtain rfl := byte_closing isClosing
          obtain ⟨later, rfl, behind⟩ :=
            here.exists_of_peek front (by cases frame <;> decide)
          intro frames' after is
          obtain ⟨chunk, rest, rfl, before', completes⟩ := ih behind frames' after is
          refine ⟨blanks ++ frame.closing :: chunk, rest, by simp, before', fun more resumes => ?_⟩
          rw [List.append_assoc, List.cons_append]
          exact .close areBlanks (completes more resumes)
        next => exact .fault _

theorem skipClosings_first_takes (frame : Frame) (outer : List Frame)
    (before : cursor.Before text) :
    (skipClosings false (frame :: outer) cursor).Takes
      (fun frames chunk => ∀ more, Resumes frames more →
        ∃ inside later, chunk ++ more = inside ++ frame.closing :: later ∧
          SpellsInside true inside frame ∧ Completes outer later) text := by
  obtain ⟨blanks, later, rfl, areBlanks, here⟩ := before.exists_blanks
  rw [skipClosings.eq_def]
  dsimp only
  split
  next => exact .fault _
  next b front =>
    rw [Bool.false_and, if_neg (by decide)]
    split
    next isClosing =>
      obtain rfl := byte_closing isClosing
      obtain ⟨later, rfl, behind⟩ := here.exists_of_peek front (by cases frame <;> decide)
      intro frames' after is
      obtain ⟨chunk, rest, rfl, before', completes⟩ := skipClosings_takes outer behind frames' after is
      refine ⟨blanks ++ frame.closing :: chunk, rest, by simp, before', fun more resumes => ?_⟩
      refine ⟨blanks, chunk ++ more, by simp, ?_, completes more resumes⟩
      cases frame with
      | list => exact ⟨[], spellsItems_nil.mpr areBlanks⟩
      | object => exact ⟨[], spellsMembers_nil.mpr areBlanks⟩
    next =>
      rw [if_neg (by decide)]
      intro _ after is
      cases is
      exact ⟨blanks, later, rfl, here, fun more resumes => inside_of_resumes areBlanks resumes⟩

theorem skipName_takes (before : cursor.Before text) :
    (skipName cursor).Takes
      (fun _ chunk => ∃ blanks name quoted between, chunk = blanks ++ (quoted ++ (between ++ [':'])) ∧
        IsBlanks blanks ∧ SpellsString name quoted ∧ IsBlanks between) text := by
  obtain ⟨blanks, later, rfl, areBlanks, here⟩ := before.exists_blanks
  rw [skipName]
  split
  next => exact .fault _
  next b front =>
    split
    next isQuote =>
      subst isQuote
      obtain ⟨later, rfl, behind⟩ := here.exists_of_peek (c := '"') front (by decide)
      intro _ after is
      obtain ⟨_, cursor', passed, is⟩ := Outcome.exists_of_andThen is
      obtain ⟨_, rest, rfl, before', pieces, rfl⟩ :=
        skipString_takes behind (Cursor.length_next_lt _) () cursor' passed
      obtain ⟨between, later, rfl, areBetween, here'⟩ := before'.exists_blanks
      dsimp only at is
      split at is
      next => contradiction
      next b front' =>
        split at is
        next isColon =>
          subst isColon
          obtain ⟨later, rfl, behind'⟩ := here'.exists_of_peek (c := ':') front' (by decide)
          cases is
          refine ⟨blanks ++ ('"' :: closed pieces [] ++ (between ++ [':'])), later, ?_, behind',
            blanks, _, '"' :: closed pieces [], between, rfl, areBlanks, ⟨pieces, rfl, rfl⟩,
            areBetween⟩
          simp [closed]
        next => contradiction
    next => exact .fault _

def Frame.opening : Frame → Char
  | .list => '['
  | .object => '{'

/-- The text of a value without brackets, or of an opening bracket. -/
def IsOpening : Option Frame → List Char → Prop
  | none, text => ∃ tree, Spells tree text
  | some frame, text => text = [frame.opening]

theorem skipOpening_takes (before : cursor.Before text) :
    (skipOpening cursor).Takes
      (fun opened chunk => ∃ blanks opening, chunk = blanks ++ opening ∧ IsBlanks blanks ∧
        IsOpening opened opening) text := by
  obtain ⟨blanks, later, rfl, areBlanks, here⟩ := before.exists_blanks
  have behindBlanks {outcome : Outcome (Option Frame)} (takes : outcome.Takes IsOpening later) :
      outcome.Takes (fun opened chunk => ∃ blanks opening, chunk = blanks ++ opening ∧
        IsBlanks blanks ∧ IsOpening opened opening) (blanks ++ later) := by
    intro opened after is
    obtain ⟨chunk, rest, rfl, before', opening⟩ := takes opened after is
    exact ⟨blanks ++ chunk, rest, (List.append_assoc ..).symm, before', blanks, chunk, rfl,
      areBlanks, opening⟩
  rw [skipOpening]
  split
  next => exact .fault _
  next b front =>
    refine behindBlanks ?_
    split
    next is =>
      subst is
      obtain ⟨later, rfl, behind⟩ := here.exists_of_peek (c := 'n') front (by decide)
      refine .map fun _ after is => ?_
      obtain ⟨_, rest, rfl, before', rfl⟩ := word_takes "ull".toList (by simp) behind () after is
      exact ⟨"null".toList, rest, rfl, before', .null, spells_null.mpr rfl⟩
    split
    next is =>
      subst is
      obtain ⟨later, rfl, behind⟩ := here.exists_of_peek (c := 't') front (by decide)
      refine .map fun _ after is => ?_
      obtain ⟨_, rest, rfl, before', rfl⟩ := word_takes "rue".toList (by simp) behind () after is
      exact ⟨"true".toList, rest, rfl, before', .bool true, spells_bool.mpr rfl⟩
    split
    next is =>
      subst is
      obtain ⟨later, rfl, behind⟩ := here.exists_of_peek (c := 'f') front (by decide)
      refine .map fun _ after is => ?_
      obtain ⟨_, rest, rfl, before', rfl⟩ := word_takes "alse".toList (by simp) behind () after is
      exact ⟨"false".toList, rest, rfl, before', .bool false, spells_bool.mpr rfl⟩
    split
    next is =>
      subst is
      obtain ⟨later, rfl, behind⟩ := here.exists_of_peek (c := '-') front (by decide)
      refine .map fun _ after is => ?_
      obtain ⟨_, rest, rfl, before', number, rfl⟩ := skipNumeral_takes behind () after is
      exact ⟨'-' :: (Nat.toDigits 10 number.whole ++ number.tail), rest, rfl, before',
        .number { number with isNegative := true }, spells_number.mpr rfl⟩
    split
    next =>
      refine .map fun _ after is => ?_
      obtain ⟨_, rest, rfl, before', number, rfl⟩ := skipNumeral_takes here () after is
      exact ⟨Nat.toDigits 10 number.whole ++ number.tail, rest, rfl, before',
        .number { number with isNegative := false }, spells_number.mpr rfl⟩
    split
    next is =>
      subst is
      obtain ⟨later, rfl, behind⟩ := here.exists_of_peek (c := '"') front (by decide)
      refine .map fun _ after is => ?_
      obtain ⟨_, rest, rfl, before', pieces, rfl⟩ :=
        skipString_takes behind (Cursor.length_next_lt _) () after is
      exact ⟨'"' :: closed pieces [], rest, rfl, before', .string _,
        spells_string.mpr ⟨pieces, rfl, rfl⟩⟩
    split
    next is =>
      subst is
      obtain ⟨later, rfl, behind⟩ := here.exists_of_peek (c := '[') front (by decide)
      intro _ after is
      cases is
      exact ⟨['['], later, rfl, behind, rfl⟩
    split
    next is =>
      subst is
      obtain ⟨later, rfl, behind⟩ := here.exists_of_peek (c := '{') front (by decide)
      intro _ after is
      cases is
      exact ⟨['{'], later, rfl, behind, rfl⟩
    exact .fault _

/-- What is passed as a value inside some frames is one, and what completes the frames. -/
theorem skipWithin_takes (fuel : Nat) (frames : List Frame) (before : cursor.Before text) :
    (skipWithin fuel frames cursor).Takes
      (fun _ text => ∃ blanks tree chunk later, text = blanks ++ (chunk ++ later) ∧ IsBlanks blanks ∧
        Spells tree chunk ∧ Completes frames later) text := by
  induction fuel generalizing frames cursor text with
  | zero => exact .fault _
  | succ fuel ih =>
    have resumes (frames : List Frame) {cursor : Cursor} {text : List Char}
        (before : cursor.Before text) :
        (goOn fuel frames cursor).Takes (fun _ => Resumes frames) text := by
      obtain _ | ⟨_ | _, outer⟩ := frames
      · exact .value before rfl
      · exact ih (.list :: outer) before
      · intro _ after is
        obtain ⟨_, cursor', passed, is⟩ := Outcome.exists_of_andThen is
        obtain ⟨_, rest, rfl, before', blanks, name, quoted, between, rfl, areBlanks, isName,
          areBetween⟩ := skipName_takes before () cursor' passed
        obtain ⟨_, rest, rfl, before'', between', tree, chunk, later, rfl, areBetween', spells,
          completes⟩ := ih (.object :: outer) before' () after is
        exact ⟨blanks ++ (quoted ++ (between ++ ':' :: (between' ++ (chunk ++ later)))), rest,
          by simp, before'', blanks, name, quoted, between, between', tree, chunk, later, rfl,
          areBlanks, isName, areBetween, areBetween', spells, completes⟩
    intro _ after is
    rw [skipWithin_eq] at is
    obtain ⟨opened, cursor', opens, is⟩ := Outcome.exists_of_andThen is
    obtain ⟨_, rest, rfl, before', blanks, opening, rfl, areBlanks, form⟩ :=
      skipOpening_takes before opened cursor' opens
    cases opened with
    | none =>
      obtain ⟨tree, spells⟩ := form
      obtain ⟨frames', cursor'', closes, is⟩ := Outcome.exists_of_andThen is
      obtain ⟨chunk, rest, rfl, before'', completes⟩ :=
        skipClosings_takes frames before' frames' cursor'' closes
      obtain ⟨more, rest, rfl, before''', goes⟩ := resumes frames' before'' () after is
      exact ⟨blanks ++ (opening ++ (chunk ++ more)), rest, by simp, before''', blanks, tree, opening,
        chunk ++ more, rfl, areBlanks, spells, completes more goes⟩
    | some frame =>
      obtain rfl := form
      obtain ⟨frames', cursor'', closes, is⟩ := Outcome.exists_of_andThen is
      obtain ⟨chunk, rest, rfl, before'', completes⟩ :=
        skipClosings_first_takes frame frames before' frames' cursor'' closes
      obtain ⟨more, rest, rfl, before''', goes⟩ := resumes frames' before'' () after is
      obtain ⟨inside, later, split, spells, completes⟩ := completes more goes
      obtain ⟨tree, spells⟩ : ∃ tree, Spells tree (frame.opening :: (inside ++ [frame.closing])) := by
        cases frame with
        | list =>
          obtain ⟨items, spells⟩ := spells
          exact ⟨.list items, spells_list.mpr ⟨inside, rfl, spells⟩⟩
        | object =>
          obtain ⟨members, spells⟩ := spells
          exact ⟨.object members, spells_object.mpr ⟨inside, rfl, spells⟩⟩
      refine ⟨blanks ++ (frame.opening :: (inside ++ [frame.closing]) ++ later), rest, ?_, before''',
        blanks, tree, _, later, rfl, areBlanks, spells, completes⟩
      have whole : chunk ++ (more ++ rest) = inside ++ (frame.closing :: (later ++ rest)) := by
        rw [← List.append_assoc, split, List.append_assoc, List.cons_append]
      simp [whole]

/-- Only a value is passed over. -/
theorem takesValues_skipValue : TakesValues skipValue := by
  intro cursor text before _ after is
  obtain ⟨_, rest, rfl, before', blanks, tree, chunk, later, rfl, areBlanks, spells, completes⟩ :=
    skipWithin_takes _ [] before () after is
  obtain _ | _ | _ | _ := completes
  exact ⟨blanks ++ (chunk ++ []), rest, rfl, before', blanks, tree, chunk, by simp, areBlanks, spells⟩

end Isolate.Json
