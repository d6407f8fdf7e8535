import Isolate.Proofs.Json.Containers
import Isolate.Proofs.Json.Printing

/-!
# Reading back what was written

A value whose numbers are integers of 64 bits is read back from its compact text, unless its lists and
objects lie deeper inside each other than the reader goes.
-/

namespace Isolate.Json

variable {items : List Json} {members : List (String × Json)} {n : Nat}

mutual

/-- How many lists and objects of a value lie inside each other. -/
def depth : Json → Nat
  | .array items => itemsDepth items + 1
  | .object members => membersDepth members + 1
  | _ => 0

def itemsDepth : List Json → Nat
  | [] => 0
  | item :: rest => max (depth item) (itemsDepth rest)

def membersDepth : List (String × Json) → Nat
  | [] => 0
  | (_, value) :: rest => max (depth value) (membersDepth rest)

end

theorem itemsDepth_le_iff : itemsDepth items ≤ n ↔ ∀ item ∈ items, depth item ≤ n := by
  induction items with
  | nil => simp [itemsDepth]
  | cons item items ih => rw [itemsDepth, Nat.max_le, ih, List.forall_mem_cons]

theorem membersDepth_le_iff : membersDepth members ≤ n ↔ ∀ member ∈ members, depth member.2 ≤ n := by
  induction members with
  | nil => simp [membersDepth]
  | cons member members ih => rw [membersDepth, Nat.max_le, ih, List.forall_mem_cons]

theorem depth_array_lt_iff :
    depth (.array items) < n + 1 ↔ 0 < n ∧ ∀ item ∈ items, depth item < n := by
  rw [depth, Nat.add_lt_add_iff_right]
  obtain _ | n := n
  · simp
  · simp only [Nat.lt_succ_iff, itemsDepth_le_iff, Nat.zero_le, true_and]

theorem depth_object_lt_iff :
    depth (.object members) < n + 1 ↔ 0 < n ∧ ∀ member ∈ members, depth member.2 < n := by
  rw [depth, Nat.add_lt_add_iff_right]
  obtain _ | n := n
  · simp
  · simp only [Nat.lt_succ_iff, membersDepth_le_iff, Nat.zero_le, true_and]

def IsWord (n : Int) : Prop := -Int.pow 2 63 ≤ n ∧ n ≤ maxUnsigned

/-- Integers that a double holds exactly are read as such. -/
theorem isWord_of_natAbs_le {n : Int} (small : n.natAbs ≤ Nat.pow 2 53) : IsWord n := by
  have lowest : Int.pow 2 63 = (Nat.pow 2 63 : Nat) := rfl
  have bounds : Nat.pow 2 53 ≤ Nat.pow 2 63 ∧ Nat.pow 2 53 ≤ maxUnsigned := by decide
  rw [IsWord, lowest]
  omega

theorem int?_ofInt {n : Int} (word : IsWord n) : (NumberText.ofInt n).int? = some n := by
  obtain ⟨low, high⟩ := word
  have lowest : Int.pow 2 63 = (Nat.pow 2 63 : Nat) := rfl
  rw [lowest] at low
  rw [NumberText.int?, NumberText.ofInt]
  dsimp only
  by_cases negative : n < 0
  · rw [if_neg (by decide), if_pos (decide_eq_true negative), if_neg (by omega)]
    congr 1
    omega
  · rw [if_neg (by decide), if_neg (by simpa using negative), if_pos (by omega)]
    congr 1
    omega

mutual

def Tree.json? : Tree → Option Json
  | .null => some .null
  | .bool value => some (.bool value)
  | .number text => text.int?.map .int
  | .string meaning => meaning.map .string
  | .list items => (itemsJson? items).map .array
  | .object members => (membersJson? members).map .object

def Tree.itemsJson? : List Tree → Option (List Json)
  | [] => some []
  | item :: rest => (json? item).bind fun value => (itemsJson? rest).map (value :: ·)

def Tree.membersJson? : List (Option String × Tree) → Option (List (String × Json))
  | [] => some []
  | (name, value) :: rest =>
    name.bind fun name => (json? value).bind fun value => (membersJson? rest).map ((name, value) :: ·)

end

theorem Tree.itemsJson?_eq (items : List Tree) : itemsJson? items = items.mapM json? := by
  induction items with
  | nil => rfl
  | cons item items ih => rw [itemsJson?, ih, mapM_cons_option]

def putMember (name : String) (found : List (String × Json)) (tree : Tree) :
    Option (List (String × Json)) :=
  tree.json?.map fun value => (name, value) :: found

theorem putAll_putMember (members : List (Option String × Tree)) (found : List (String × Json)) :
    putAll putMember found members = (Tree.membersJson? members).map (·.reverse ++ found) := by
  induction members generalizing found with
  | nil => rfl
  | cons member members ih =>
    obtain ⟨name, tree⟩ := member
    rw [putAll, Tree.membersJson?]
    cases name with
    | none => rfl
    | some name =>
      rw [Option.bind_some, Option.bind_some, putMember]
      cases tree.json? with
      | none => rfl
      | some value => simp [ih, Function.comp_def]

/-- The tree of a value has that value. -/
theorem json?_ofJson {json : Json} (words : HasInts IsWord json) :
    (Tree.ofJson json).json? = some json := by
  induction json with
  | null => rw [Tree.ofJson, Tree.json?]
  | bool value => rw [Tree.ofJson, Tree.json?]
  | int n =>
    rw [Tree.ofJson, Tree.json?, int?_ofInt (hasInts_int.mp words)]
    rfl
  | real f => exact absurd words (by simp [HasInts])
  | string text => rw [Tree.ofJson, Tree.json?, Option.map_some]
  | array items ih =>
    rw [hasInts_array] at words
    rw [Tree.ofJson, Tree.json?]
    suffices all : Tree.itemsJson? (Tree.ofItems items) = some items by rw [all]; rfl
    induction items with
    | nil => rfl
    | cons item items ih' =>
      obtain ⟨word, words⟩ := List.forall_mem_cons.mp words
      obtain ⟨first, later⟩ := List.forall_mem_cons.mp ih
      rw [Tree.ofItems, Tree.itemsJson?, first word, ih' later words]
      rfl
  | object members ih =>
    rw [hasInts_object] at words
    rw [Tree.ofJson, Tree.json?]
    suffices all : Tree.membersJson? (Tree.ofMembers members) = some members by rw [all]; rfl
    induction members with
    | nil => rfl
    | cons member members ih' =>
      obtain ⟨word, words⟩ := List.forall_mem_cons.mp words
      obtain ⟨first, later⟩ := List.forall_mem_cons.mp ih
      rw [Tree.ofMembers, Tree.membersJson?, Option.bind_some, first word, ih' later words]
      rfl

/-- The reader of a value by its first byte, if `limit` more lists and objects may be opened. -/
theorem anyValue_succ (limit : Nat) : anyValue (limit + 1) = onFirstByte fun b cursor =>
    if b = 0x6e then (word [0x75, 0x6c, 0x6c] cursor.next).map fun _ => .null
    else if b = 0x74 then (word [0x72, 0x75, 0x65] cursor.next).map fun _ => .bool true
    else if b = 0x66 then (word [0x61, 0x6c, 0x73, 0x65] cursor.next).map fun _ => .bool false
    else if b = 0x2d || isDigitByte b then (numeral cursor).map Numeral.toJson
    else if b = 0x22 then (stringTail cursor.next).map .string
    else if b = 0x5b then
      if limit = 0 then cursor.faultAhead .tooDeep
      else
        inList (fun cursor =>
          (elements (anyValue limit) (cursor.rest.length + 1) true cursor).map .array) cursor
    else if b = 0x7b then
      if limit = 0 then cursor.faultAhead .tooDeep
      else
        inObject (fun cursor =>
          (Json.members (fun name (found : List (String × Json)) cursor =>
              (colon cursor).andThen fun _ cursor =>
                (anyValue limit cursor).map fun value => (name, value) :: found)
            (cursor.rest.length + 1) true [] cursor).map fun found => .object found.reverse) cursor
    else cursor.faultAhead .expectedValue := rfl

/-- The reader of a member puts what it reads in front of the members before it. -/
theorem findsMember_anyValue {limit : Nat} {tree : Tree} (finds : Finds (anyValue limit) Tree.json? tree) :
    FindsMember (fun name found cursor => (colon cursor).andThen fun _ cursor =>
      (anyValue limit cursor).map fun value => (name, value) :: found) putMember tree := by
  intro name found cursor blanks blanks' chunk rest before areBlanks areBlanks' spells ends
  refine (colon_tells areBlanks before).andThen_some fun cursor before => ?_
  exact (finds before areBlanks' spells ends).map _

/-- A value is found in front of its text if it is not too deep. -/
theorem finds_anyValue {json : Json} {limit : Nat} (words : HasInts IsWord json)
    (shallow : json.depth < limit) : Finds (anyValue limit) Tree.json? (.ofJson json) := by
  obtain ⟨limit, rfl⟩ := Nat.exists_eq_add_one.mpr (Nat.lt_of_le_of_lt (Nat.zero_le _) shallow)
  have known := json?_ofJson words
  induction json generalizing limit with
  | null =>
    rw [anyValue_succ]
    refine finds_onFirstByte fun {b cursor chunk rest} before opens spells ends => ?_
    obtain rfl := opens
    obtain rfl := spells_null.mp spells
    rw [known]
    exact (word_tells "ull".toList (by simp) (before.next_cons (by decide))).map _
  | bool value =>
    rw [anyValue_succ]
    refine finds_onFirstByte fun {b cursor chunk rest} before opens spells ends => ?_
    obtain rfl := opens
    obtain rfl := spells_bool.mp spells
    rw [known]
    cases value with
    | true => exact (word_tells "rue".toList (by simp) (before.next_cons (by decide))).map _
    | false => exact (word_tells "alse".toList (by simp) (before.next_cons (by decide))).map _
  | int n =>
    rw [anyValue_succ]
    refine finds_onFirstByte fun {b cursor chunk rest} before opens spells ends => ?_
    obtain rfl := spells_number.mp spells
    have isNumber : (b = 0x2d || isDigitByte b) = true := opens
    obtain ⟨noNull, noTrue, noFalse, -⟩ := ne_of_number opens
    have tells := numeral_tells ends.stops before
    rw [int?_ofInt (hasInts_int.mp words)] at tells
    have found : (numeral cursor).Tells (some (.int n)) rest := tells
    rw [known, if_neg noNull, if_neg noTrue, if_neg noFalse, if_pos isNumber]
    exact found.map Numeral.toJson
  | real f => exact absurd words (by simp [HasInts])
  | string text =>
    rw [anyValue_succ]
    refine finds_onFirstByte fun {b cursor chunk rest} before opens spells ends => ?_
    obtain rfl := opens
    obtain ⟨pieces, rfl, meant⟩ := spells_string.mp spells
    rw [List.cons_append, List.append_assoc] at before
    have tells := stringTail_tells (before.next_cons (by decide))
    rw [← meant] at tells
    exact tells.map Json.string
  | array items ih =>
    obtain ⟨deeper, shallow⟩ := depth_array_lt_iff.mp shallow
    rw [hasInts_array] at words
    rw [Tree.ofJson, Tree.ofItems_eq] at known ⊢
    rw [anyValue_succ]
    refine finds_onFirstByte fun {b cursor chunk rest} before opens spells ends => ?_
    obtain rfl := opens
    obtain ⟨inside, rfl, spellsInside⟩ := spells_list.mp spells
    have finds : ∀ tree ∈ items.map Tree.ofJson, Finds (anyValue limit) Tree.json? tree := by
      intro tree isTree
      obtain ⟨item, member, rfl⟩ := List.mem_map.mp isTree
      obtain ⟨limit, rfl⟩ := Nat.exists_eq_add_one.mpr deeper
      exact ih item member (words item member) limit (shallow item member)
        (json?_ofJson (words item member))
    have tells := elements_tells finds (atItems_of_list spellsInside before) (Nat.lt_succ_self _)
    have whole := (tells.map Json.array).andThen some fun a cursor _ before =>
      (closeList_end before).map fun _ => a
    rw [Option.bind_fun_some, ← Tree.itemsJson?_eq] at whole
    rw [Tree.json?, if_neg (by decide), if_neg (by decide), if_neg (by decide), if_neg (by decide),
      if_neg (by decide), if_pos rfl, if_neg (Nat.ne_of_gt deeper)]
    exact inList_tells whole
  | object members ih =>
    obtain ⟨deeper, shallow⟩ := depth_object_lt_iff.mp shallow
    rw [hasInts_object] at words
    rw [Tree.ofJson, Tree.ofMembers_eq] at known ⊢
    rw [anyValue_succ]
    refine finds_onFirstByte fun {b cursor chunk rest} before opens spells ends => ?_
    obtain rfl := opens
    obtain ⟨inside, rfl, spellsInside⟩ := spells_object.mp spells
    have finds : ∀ item ∈ members.map fun member => (some member.1, Tree.ofJson member.2),
        FindsMember (fun name found cursor => (colon cursor).andThen fun _ cursor =>
          (anyValue limit cursor).map fun value => (name, value) :: found) putMember item.2 := by
      intro named isNamed
      obtain ⟨item, member, rfl⟩ := List.mem_map.mp isNamed
      obtain ⟨limit, rfl⟩ := Nat.exists_eq_add_one.mpr deeper
      exact findsMember_anyValue (ih item member (words item member) limit (shallow item member)
        (json?_ofJson (words item member)))
    have tells : (Json.members _ _ _ [] _).Tells _ _ :=
      members_tells finds (atMembers_of_object spellsInside before) (Nat.lt_succ_self _)
    have whole := (tells.map fun found => Json.object found.reverse).andThen some
      fun a cursor _ before => (closeObject_end before).map fun _ => a
    rw [Option.bind_fun_some, putAll_putMember] at whole
    rw [Tree.json?, if_neg (by decide), if_neg (by decide), if_neg (by decide), if_neg (by decide),
      if_neg (by decide), if_neg (by decide), if_pos rfl, if_neg (Nat.ne_of_gt deeper)]
    refine inObject_tells ?_
    simpa [Function.comp_def] using whole

/-- A value is read back from its text. -/
theorem ofText_toText {json : Json} (words : HasInts IsWord json) (shallow : json.depth < depthLimit) :
    ofText json.toText = .ok json := by
  have isText : IsText (.ofJson json) json.toText.toList := by
    rw [toText, String.toList_ofList]
    exact (spells_write words).isText
  exact (readText_eq_ok_iff (finds_anyValue words shallow) isText).mpr (json?_ofJson words)

end Isolate.Json
