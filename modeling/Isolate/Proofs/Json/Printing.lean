import Isolate.Json.Printer
import Isolate.Proofs.Json.Syntax

/-!
# Printed values are spelled by the grammar

A value whose numbers are integers has a syntax tree, and both printed forms of it, the compact one and
the indented one, are texts of that tree.
-/

namespace Isolate.Json

/-- What holds of a value if it holds of the values in it holds of all values. -/
@[elab_as_elim, induction_eliminator]
theorem induct {P : Json → Prop} (null : P .null) (bool : ∀ value, P (.bool value))
    (int : ∀ n, P (.int n)) (real : ∀ f, P (.real f)) (string : ∀ text, P (.string text))
    (array : ∀ items, (∀ item ∈ items, P item) → P (.array items))
    (object : ∀ members, (∀ member ∈ members, P member.2) → P (.object members)) (json : Json) :
    P json :=
  @Json.rec P (fun items => ∀ item ∈ items, P item)
    (fun members => ∀ member ∈ members, P member.2) (fun member => P member.2) null bool int real
    string array object nofun (fun _ _ first others => List.forall_mem_cons.mpr ⟨first, others⟩) nofun
    (fun _ _ first others => List.forall_mem_cons.mpr ⟨first, others⟩) (fun _ _ value => value) json

mutual

/-- All numbers of a value are integers of this kind. -/
def HasInts (allowed : Int → Prop) : Json → Prop
  | .int n => allowed n
  | .real _ => False
  | .array items => ItemsHaveInts allowed items
  | .object members => MembersHaveInts allowed members
  | _ => True

/-- All numbers of the elements are integers of this kind. -/
def ItemsHaveInts (allowed : Int → Prop) : List Json → Prop
  | [] => True
  | item :: rest => HasInts allowed item ∧ ItemsHaveInts allowed rest

def MembersHaveInts (allowed : Int → Prop) : List (String × Json) → Prop
  | [] => True
  | (_, value) :: rest => HasInts allowed value ∧ MembersHaveInts allowed rest

end

section

variable {allowed : Int → Prop} {json : Json} {items : List Json} {members : List (String × Json)}

theorem itemsHaveInts_iff : ItemsHaveInts allowed items ↔ ∀ item ∈ items, HasInts allowed item := by
  induction items with
  | nil => simp [ItemsHaveInts]
  | cons item items ih => simp [ItemsHaveInts, ih]

theorem membersHaveInts_iff :
    MembersHaveInts allowed members ↔ ∀ member ∈ members, HasInts allowed member.2 := by
  induction members with
  | nil => simp [MembersHaveInts]
  | cons member members ih =>
    obtain ⟨name, value⟩ := member
    simp only [MembersHaveInts, ih, List.forall_mem_cons]

@[simp] theorem hasInts_int {n : Int} : HasInts allowed (.int n) ↔ allowed n := by rw [HasInts]

@[simp] theorem hasInts_array :
    HasInts allowed (.array items) ↔ ∀ item ∈ items, HasInts allowed item := by
  rw [HasInts, itemsHaveInts_iff]

@[simp] theorem hasInts_object :
    HasInts allowed (.object members) ↔ ∀ member ∈ members, HasInts allowed member.2 := by
  rw [HasInts, membersHaveInts_iff]

/-- What holds of all numbers of a value may be weakened. -/
theorem HasInts.mono {allowed' : Int → Prop} (ints : HasInts allowed json)
    (weaker : ∀ n, allowed n → allowed' n) : HasInts allowed' json := by
  induction json with
  | int n =>
    rw [hasInts_int] at ints ⊢
    exact weaker n ints
  | array items ih =>
    rw [hasInts_array] at ints ⊢
    exact fun item is => ih item is (ints item is)
  | object members ih =>
    rw [hasInts_object] at ints ⊢
    exact fun member is => ih member is (ints member is)
  | real f => simp only [HasInts] at ints
  | _ => simp only [HasInts]

@[simp] theorem hasInts_bool {value : Bool} : HasInts allowed (.bool value) := by
  simp [HasInts]

@[simp] theorem hasInts_string {text : String} : HasInts allowed (.string text) := by
  simp [HasInts]

end

def NumberText.ofInt (n : Int) : NumberText := ⟨n < 0, n.natAbs, none, none⟩

mutual

def Tree.ofJson : Json → Tree
  | .null => .null
  | .bool value => .bool value
  | .int n => .number (.ofInt n)
  | .real _ => .null
  | .string text => .string (some text)
  | .array items => .list (ofItems items)
  | .object members => .object (ofMembers members)

def Tree.ofItems : List Json → List Tree
  | [] => []
  | item :: rest => ofJson item :: ofItems rest

def Tree.ofMembers : List (String × Json) → List (Option String × Tree)
  | [] => []
  | (name, value) :: rest => (some name, ofJson value) :: ofMembers rest

end

theorem Tree.ofItems_eq (items : List Json) : ofItems items = items.map ofJson := by
  induction items with
  | nil => rfl
  | cons item items ih => rw [ofItems, ih, List.map_cons]

theorem Tree.ofMembers_eq (members : List (String × Json)) :
    ofMembers members = members.map fun member => (some member.1, ofJson member.2) := by
  induction members with
  | nil => rfl
  | cons member members ih =>
    obtain ⟨name, value⟩ := member
    rw [ofMembers, ih, List.map_cons]

theorem chars_ofInt (n : Int) : (NumberText.ofInt n).chars = writeInt n := by
  cases n with
  | ofNat n => simp [NumberText.chars, NumberText.ofInt, NumberText.tail, writeInt]
  | negSucc n => simp [NumberText.chars, NumberText.ofInt, NumberText.tail, writeInt]

def HexDigit.lower (n : Fin 16) : HexDigit := ⟨n, false⟩

theorem char_lower (n : Fin 16) : (HexDigit.lower n).char = Text.hexDigit n := by
  revert n
  decide

theorem not_isSurrogate_of_lt {code : Nat} (low : code < 0x20) :
    isTrailing code = false ∧ isLeading code = false := by
  simp only [isTrailing, isLeading, Bool.and_eq_false_iff, decide_eq_false_iff_not]
  omega

/-- Every character is written as a piece that stands for it. -/
theorem exists_piece (c : Char) : ∃ piece : Piece, piece.chars = escapeStringChar c ∧
    ∀ rest, meaning? (piece :: rest) = (meaning? rest).map (c :: ·) := by
  rw [escapeStringChar.eq_def]
  split
  next => exact ⟨.short .quote, rfl, fun _ => rfl⟩
  next => exact ⟨.short .backslash, rfl, fun _ => rfl⟩
  next => exact ⟨.short .newLine, rfl, fun _ => rfl⟩
  next => exact ⟨.short .tab, rfl, fun _ => rfl⟩
  next => exact ⟨.short .carriageReturn, rfl, fun _ => rfl⟩
  next => exact ⟨.short .backspace, rfl, fun _ => rfl⟩
  next => exact ⟨.short .formFeed, rfl, fun _ => rfl⟩
  next notQuote notBackslash _ _ _ _ _ =>
    split
    next low =>
      have first : c.toNat / 16 < 16 := by omega
      have second : c.toNat % 16 < 16 := by omega
      let digits : Fin 16 × Fin 16 := (⟨c.toNat / 16, first⟩, ⟨c.toNat % 16, second⟩)
      have same : codeUnit (.lower 0) (.lower 0) (.lower digits.1) (.lower digits.2) = c.toNat := by
        simp only [codeUnit, HexDigit.lower, digits]
        omega
      refine ⟨.unit (.lower 0) (.lower 0) (.lower digits.1) (.lower digits.2), ?_, ?_⟩
      · rw [Piece.chars, char_lower, char_lower, char_lower]
        rfl
      · intro rest
        obtain ⟨noTrailing, noLeading⟩ := not_isSurrogate_of_lt low
        rw [meaning?.eq_def]
        dsimp only
        rw [same, noTrailing, noLeading, Char.ofNat_toNat]
        rfl
    next high => exact ⟨.plain c ⟨notQuote, notBackslash, by omega⟩, rfl, fun _ => rfl⟩

theorem exists_pieces (text : List Char) : ∃ pieces : List Piece,
    pieces.flatMap Piece.chars = text.flatMap escapeStringChar ∧ meaning? pieces = some text := by
  induction text with
  | nil => exact ⟨[], rfl, rfl⟩
  | cons c text ih =>
    obtain ⟨piece, chars, isMeant⟩ := exists_piece c
    obtain ⟨pieces, areChars, areMeant⟩ := ih
    refine ⟨piece :: pieces, ?_, ?_⟩
    · rw [List.flatMap_cons, List.flatMap_cons, chars, areChars]
    · rw [isMeant, areMeant, Option.map_some]

theorem spells_writeString (text : String) : SpellsString (some text) (writeString text) := by
  obtain ⟨pieces, chars, areMeant⟩ := exists_pieces text.toList
  refine ⟨pieces, ?_, ?_⟩
  · rw [writeString, chars, List.cons_append]
  · rw [areMeant, Option.map_some, String.ofList_toList]

section

variable {item : Tree} {items : List Tree} {member : Option String × Tree}
  {members : List (Option String × Tree)} {name : Option String}
  {before after chunk quoted inside : List Char}

/-- An element behind a comma. -/
theorem SpellsItems.comma (spells : SpellsItems true (item :: items) inside) :
    SpellsItems false (item :: items) (',' :: inside) := by
  obtain ⟨before, chunk, later, rfl, areBlanks, spells, spellsRest⟩ := spellsItems_cons.mp spells
  exact spellsItems_cons.mpr ⟨',' :: before, chunk, later, rfl,
    ⟨[], before, isBlanks_nil, areBlanks, rfl⟩, spells, spellsRest⟩

/-- One more element in front. -/
theorem SpellsItems.cons {next : Tree} (areBlanks : IsBlanks before) (spells : Spells item chunk)
    (others : SpellsItems true (next :: items) inside) :
    SpellsItems true (item :: next :: items) (before ++ (chunk ++ ',' :: inside)) :=
  spellsItems_cons.mpr ⟨before, chunk, ',' :: inside, rfl, areBlanks, spells, others.comma⟩

theorem SpellsItems.single (areBlanks : IsBlanks before) (spells : Spells item chunk)
    (areBlanks' : IsBlanks after) : SpellsItems true [item] (before ++ (chunk ++ after)) :=
  spellsItems_cons.mpr ⟨before, chunk, after, rfl, areBlanks, spells, spellsItems_nil.mpr areBlanks'⟩

/-- A member behind a comma. -/
theorem SpellsMembers.comma (spells : SpellsMembers true (member :: members) inside) :
    SpellsMembers false (member :: members) (',' :: inside) := by
  obtain ⟨name, value⟩ := member
  obtain ⟨before, quoted, blanks, blanks', chunk, later, rfl, areBlanks, others⟩ :=
    spellsMembers_cons.mp spells
  exact spellsMembers_cons.mpr ⟨',' :: before, quoted, blanks, blanks', chunk, later, rfl,
    ⟨[], before, isBlanks_nil, areBlanks, rfl⟩, others⟩

/-- One more member in front. -/
theorem SpellsMembers.cons {blanks : List Char} (areBlanks : IsBlanks before)
    (isName : SpellsString name quoted) (areBlanks' : IsBlanks blanks) (spells : Spells item chunk)
    (others : SpellsMembers true (member :: members) inside) :
    SpellsMembers true ((name, item) :: member :: members)
      (before ++ (quoted ++ ':' :: (blanks ++ (chunk ++ ',' :: inside)))) :=
  spellsMembers_cons.mpr ⟨before, quoted, [], blanks, chunk, ',' :: inside, rfl, areBlanks, isName,
    isBlanks_nil, areBlanks', spells, others.comma⟩

theorem SpellsMembers.single {blanks : List Char} (areBlanks : IsBlanks before)
    (isName : SpellsString name quoted) (areBlanks' : IsBlanks blanks) (spells : Spells item chunk)
    (areBlanks'' : IsBlanks after) :
    SpellsMembers true [(name, item)]
      (before ++ (quoted ++ ':' :: (blanks ++ (chunk ++ after)))) :=
  spellsMembers_cons.mpr ⟨before, quoted, [], blanks, chunk, after, rfl, areBlanks, isName,
    isBlanks_nil, areBlanks', spells, spellsMembers_nil.mpr areBlanks''⟩

end

variable {items : List Json} {members : List (String × Json)}

theorem spells_writeItems (areSpelled : ∀ item ∈ items, Spells (.ofJson item) (write item)) :
    ∃ inside, writeItems items = inside ++ [']'] ∧
      SpellsItems true (items.map Tree.ofJson) inside := by
  induction items with
  | nil => exact ⟨[], by rw [writeItems]; rfl, spellsItems_nil.mpr isBlanks_nil⟩
  | cons item items ih =>
    obtain ⟨first, others⟩ := List.forall_mem_cons.mp areSpelled
    cases items with
    | nil => 
      refine ⟨[] ++ (write item ++ []), ?_, .single isBlanks_nil first isBlanks_nil⟩
      rw [writeItems, List.nil_append, List.append_nil]
    | cons next items =>
      obtain ⟨inside, isInside, spells⟩ := ih others
      refine ⟨[] ++ (write item ++ ',' :: inside), ?_, .cons isBlanks_nil first spells⟩
      rw [writeItems, isInside]
      simp

theorem spells_writeMembers
    (areSpelled : ∀ member ∈ members, Spells (.ofJson member.2) (write member.2)) :
    ∃ inside, writeMembers members = inside ++ ['}'] ∧
      SpellsMembers true (members.map fun member => (some member.1, .ofJson member.2)) inside := by
  induction members with
  | nil => exact ⟨[], by rw [writeMembers]; rfl, spellsMembers_nil.mpr isBlanks_nil⟩
  | cons member members ih =>
    obtain ⟨first, others⟩ := List.forall_mem_cons.mp areSpelled
    obtain ⟨name, value⟩ := member
    cases members with
    | nil =>
      refine ⟨_, ?_, .single isBlanks_nil (spells_writeString name) isBlanks_nil first isBlanks_nil⟩
      rw [writeMembers]
      simp
    | cons next members =>
      obtain ⟨inside, isInside, spells⟩ := ih others
      refine ⟨_, ?_, .cons isBlanks_nil (spells_writeString name) isBlanks_nil first spells⟩
      rw [writeMembers, isInside]
      simp

/-- The compact form of a value is a text of its tree. -/
theorem spells_write {allowed : Int → Prop} {json : Json} (ints : HasInts allowed json) :
    Spells (.ofJson json) (write json) := by
  induction json with
  | null => exact spells_null.mpr (by rw [write])
  | bool value => cases value <;> exact spells_bool.mpr (by rw [write]; rfl)
  | int n => exact spells_number.mpr (by rw [write, chars_ofInt])
  | real f => rw [HasInts] at ints; contradiction
  | string text =>
    rw [write]
    exact spells_string.mpr (spells_writeString text)
  | array items ih =>
    rw [hasInts_array] at ints
    obtain ⟨inside, isInside, spells⟩ := spells_writeItems fun item isItem =>
      ih item isItem (ints item isItem)
    rw [Tree.ofJson, Tree.ofItems_eq, write]
    exact spells_list.mpr ⟨inside, by rw [isInside], spells⟩
  | object members ih =>
    rw [hasInts_object] at ints
    obtain ⟨inside, isInside, spells⟩ := spells_writeMembers fun member isMember =>
      ih member isMember (ints member isMember)
    rw [Tree.ofJson, Tree.ofMembers_eq, write]
    exact spells_object.mpr ⟨inside, by rw [isInside], spells⟩

theorem isBlanks_newLine (depth : Nat) : IsBlanks (newLine depth) := by
  intro c isChar
  obtain rfl | isChar := List.mem_cons.mp isChar
  · rfl
  · obtain rfl := List.eq_of_mem_replicate isChar
    rfl

theorem isBlanks_space : IsBlanks [' '] := by
  intro c isChar
  obtain rfl := List.mem_singleton.mp isChar
  rfl

theorem spells_writeIndentedItems {depth : Nat} {item : Json}
    (areSpelled : ∀ item' ∈ item :: items, Spells (.ofJson item') (writeIndented (depth + 1) item')) :
    ∃ inside, writeIndentedItems depth (item :: items) = inside ++ [']'] ∧
      SpellsItems true ((item :: items).map Tree.ofJson) inside := by
  have areBlanks := isBlanks_newLine (depth + 1)
  induction items generalizing item with
  | nil =>
    have first := areSpelled item List.mem_cons_self
    refine ⟨_, ?_, .single areBlanks first (isBlanks_newLine depth)⟩
    rw [writeIndentedItems]
    simp
  | cons next items ih =>
    obtain ⟨first, others⟩ := List.forall_mem_cons.mp areSpelled
    obtain ⟨inside, isInside, spells⟩ := ih others
    refine ⟨_, ?_, .cons areBlanks first spells⟩
    rw [writeIndentedItems, isInside]
    simp

theorem spells_writeIndentedMembers {depth : Nat} {member : String × Json}
    (areSpelled : ∀ member' ∈ member :: members,
      Spells (.ofJson member'.2) (writeIndented (depth + 1) member'.2)) :
    ∃ inside, writeIndentedMembers depth (member :: members) = inside ++ ['}'] ∧
      SpellsMembers true
        ((member :: members).map fun member => (some member.1, .ofJson member.2)) inside := by
  have areBlanks := isBlanks_newLine (depth + 1)
  induction members generalizing member with
  | nil =>
    have first := areSpelled member List.mem_cons_self
    obtain ⟨name, value⟩ := member
    refine ⟨_, ?_, .single areBlanks (spells_writeString name) isBlanks_space first
      (isBlanks_newLine depth)⟩
    rw [writeIndentedMembers]
    simp
  | cons next members ih =>
    obtain ⟨first, others⟩ := List.forall_mem_cons.mp areSpelled
    obtain ⟨name, value⟩ := member
    obtain ⟨inside, isInside, spells⟩ := ih others
    refine ⟨_, ?_, .cons areBlanks (spells_writeString name) isBlanks_space first spells⟩
    rw [writeIndentedMembers, isInside]
    simp

/-- The indented form of a value is a text of its tree. -/
theorem spells_writeIndented {allowed : Int → Prop} {json : Json} (ints : HasInts allowed json)
    (depth : Nat) : Spells (.ofJson json) (writeIndented depth json) := by
  induction json generalizing depth with
  | array items ih =>
    rw [Tree.ofJson, Tree.ofItems_eq]
    cases items with
    | nil =>
      rw [writeIndented]
      exact spells_list.mpr ⟨[], rfl, spellsItems_nil.mpr isBlanks_nil⟩
    | cons item items =>
      rw [hasInts_array] at ints
      obtain ⟨inside, isInside, spells⟩ := spells_writeIndentedItems fun item isItem =>
        ih item isItem (ints item isItem) (depth + 1)
      rw [writeIndented]
      exact spells_list.mpr ⟨inside, by rw [isInside], spells⟩
  | object members ih =>
    rw [Tree.ofJson, Tree.ofMembers_eq]
    cases members with
    | nil =>
      rw [writeIndented]
      exact spells_object.mpr ⟨[], rfl, spellsMembers_nil.mpr isBlanks_nil⟩
    | cons member members =>
      rw [hasInts_object] at ints
      obtain ⟨inside, isInside, spells⟩ := spells_writeIndentedMembers fun member isMember =>
        ih member isMember (ints member isMember) (depth + 1)
      rw [writeIndented]
      exact spells_object.mpr ⟨inside, by rw [isInside], spells⟩
  | _ =>
    rw [writeIndented]
    · exact spells_write ints
    all_goals nofun

/-- What is spelled is a whole text. -/
theorem Spells.isText {tree : Tree} {text : List Char} (spells : Spells tree text) :
    IsText tree text :=
  ⟨[], text, [], (List.append_nil text).symm, isBlanks_nil, spells, isBlanks_nil⟩

end Isolate.Json
