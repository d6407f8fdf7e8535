import Isolate.Proofs.Json.Cursors

/-!
# JSON texts

The grammar of JSON. A syntax tree keeps of a text what is left without its blanks and without the ways of
writing a character: a number as it is written, a string as the text it stands for. A string whose
escapes leave half of a surrogate pair alone stands for no text, and has a place in the grammar all the
same.
-/

namespace Isolate.Json

/-- A hexadecimal digit; from ten on there are two ways to write it. -/
structure HexDigit where
  value : Fin 16
  isUpper : Bool

def HexDigit.char (digit : HexDigit) : Char :=
  if digit.value < 10 then Char.ofNat (0x30 + digit.value)
  else if digit.isUpper then Char.ofNat (0x37 + digit.value)
  else Char.ofNat (0x57 + digit.value)

/-- The letter behind a backslash that stands for one character. -/
inductive Letter where
  | quote
  | backslash
  | slash
  | backspace
  | formFeed
  | newLine
  | carriageReturn
  | tab

def Letter.char : Letter → Char
  | quote => '"'
  | backslash => '\\'
  | slash => '/'
  | backspace => 'b'
  | formFeed => 'f'
  | newLine => 'n'
  | carriageReturn => 'r'
  | tab => 't'

def Letter.meaning : Letter → Char
  | quote => '"'
  | backslash => '\\'
  | slash => '/'
  | backspace => '\x08'
  | formFeed => '\x0c'
  | newLine => '\n'
  | carriageReturn => '\r'
  | tab => '\t'

/-- A piece of a string: a character that stands for itself, a letter or a code unit behind a
backslash. -/
inductive Piece where
  | plain (c : Char) (isPlain : c ≠ '"' ∧ c ≠ '\\' ∧ 0x20 ≤ c.toNat)
  | short (letter : Letter)
  | unit (first second third fourth : HexDigit)

def Piece.chars : Piece → List Char
  | plain c _ => [c]
  | short letter => ['\\', letter.char]
  | unit first second third fourth =>
    ['\\', 'u', first.char, second.char, third.char, fourth.char]

def codeUnit (first second third fourth : HexDigit) : Nat :=
  first.value * 0x1000 + second.value * 0x100 + third.value * 0x10 + fourth.value

/-- A code unit that begins a surrogate pair. -/
def isLeading (code : Nat) : Bool := 0xd800 ≤ code && code ≤ 0xdbff

/-- A code unit that ends a surrogate pair. -/
def isTrailing (code : Nat) : Bool := 0xdc00 ≤ code && code ≤ 0xdfff

def pairChar (leading trailing : Nat) : Char :=
  Char.ofNat (0x10000 + (leading - 0xd800) * 0x400 + (trailing - 0xdc00))

/-- What pieces stand for; nothing if half of a surrogate pair stands alone. -/
def meaning? : List Piece → Option (List Char)
  | [] => some []
  | .plain c _ :: rest => (meaning? rest).map (c :: ·)
  | .short letter :: rest => (meaning? rest).map (letter.meaning :: ·)
  | .unit a b c d :: rest =>
    if isTrailing (codeUnit a b c d) then none
    else if isLeading (codeUnit a b c d) then
      match rest with
      | .unit a' b' c' d' :: rest =>
        if isTrailing (codeUnit a' b' c' d') then
          (meaning? rest).map (pairChar (codeUnit a b c d) (codeUnit a' b' c' d') :: ·)
        else none
      | _ => none
    else (meaning? rest).map (Char.ofNat (codeUnit a b c d) :: ·)

/-- The text of a string, quotation marks included, and what the string stands for. -/
def SpellsString (meaning : Option String) (text : List Char) : Prop :=
  ∃ pieces, text = '"' :: (pieces.flatMap Piece.chars ++ ['"']) ∧
    meaning = (meaning? pieces).map String.ofList

structure Digits where
  chars : List Char
  areDigits : ∀ c ∈ chars, isDigit c = true
  areSome : chars ≠ []

structure Exponent where
  isUpper : Bool
  /-- Whether it has a sign, and whether that is a minus. -/
  sign : Option Bool
  digits : Digits

def Exponent.chars (exponent : Exponent) : List Char :=
  (if exponent.isUpper then 'E' else 'e') ::
    ((exponent.sign.elim [] fun isMinus => [if isMinus then '-' else '+'])
      ++ exponent.digits.chars)

/-- A number as it is written. The whole part is a numeral without leading zeros. -/
structure NumberText where
  isNegative : Bool
  whole : Nat
  fraction : Option Digits
  exponent : Option Exponent

/-- What stands behind the whole part. -/
def NumberText.tail (number : NumberText) : List Char :=
  (number.fraction.elim [] fun digits => '.' :: digits.chars)
    ++ number.exponent.elim [] Exponent.chars

/-- The sign, the whole part, the fraction and the exponent. -/
def NumberText.chars (number : NumberText) : List Char :=
  (if number.isNegative then ['-'] else []) ++ (Nat.toDigits 10 number.whole ++ number.tail)

/-- The integer of 64 bits, signed or unsigned, that is written without point and exponent; a negative
zero is none. -/
def NumberText.int? (number : NumberText) : Option Int :=
  if number.fraction.isSome || number.exponent.isSome then none
  else if number.isNegative then
    if number.whole = 0 ∨ Nat.pow 2 63 < number.whole then none else some (-number.whole)
  else if number.whole ≤ maxUnsigned then some number.whole
  else none

/-- A syntax tree. -/
inductive Tree where
  | null
  | bool (value : Bool)
  | number (number : NumberText)
  | string (meaning : Option String)
  | list (items : List Tree)
  | object (members : List (Option String × Tree))

/-- What holds of a tree if it holds of the trees in it holds of all trees. -/
@[elab_as_elim, induction_eliminator]
theorem Tree.induct {P : Tree → Prop} (null : P .null) (bool : ∀ value, P (.bool value))
    (number : ∀ text, P (.number text)) (string : ∀ meaning, P (.string meaning))
    (list : ∀ items, (∀ item ∈ items, P item) → P (.list items))
    (object : ∀ members, (∀ member ∈ members, P member.2) → P (.object members)) (tree : Tree) :
    P tree :=
  @Tree.rec P (fun items => ∀ item ∈ items, P item)
    (fun members => ∀ member ∈ members, P member.2) (fun member => P member.2) null bool number
    string list object nofun (fun _ _ first others => List.forall_mem_cons.mpr ⟨first, others⟩) nofun
    (fun _ _ first others => List.forall_mem_cons.mpr ⟨first, others⟩) (fun _ _ value => value) tree

def IsBlanks (text : List Char) : Prop := ∀ c ∈ text, isBlank c = true

theorem isBlanks_nil : IsBlanks [] := nofun

/-- What stands in front of an element or member: blanks, and a comma unless it is the first. -/
def Separates (isFirst : Bool) (text : List Char) : Prop :=
  if isFirst then IsBlanks text
  else ∃ before after, IsBlanks before ∧ IsBlanks after ∧ text = before ++ ',' :: after

mutual

def Spells : Tree → List Char → Prop
  | .null, text => text = "null".toList
  | .bool value, text => text = (if value then "true" else "false").toList
  | .number number, text => text = number.chars
  | .string meaning, text => SpellsString meaning text
  | .list items, text => ∃ inside, text = '[' :: (inside ++ [']']) ∧ SpellsItems true items inside
  | .object members, text =>
    ∃ inside, text = '{' :: (inside ++ ['}']) ∧ SpellsMembers true members inside

/-- The texts of the elements of a list, up to the bracket. -/
def SpellsItems : Bool → List Tree → List Char → Prop
  | _, [], text => IsBlanks text
  | isFirst, item :: items, text =>
    ∃ before chunk later, text = before ++ (chunk ++ later) ∧ Separates isFirst before ∧
      Spells item chunk ∧ SpellsItems false items later

/-- The texts of the members of an object, up to the brace. -/
def SpellsMembers : Bool → List (Option String × Tree) → List Char → Prop
  | _, [], text => IsBlanks text
  | isFirst, (name, value) :: members, text =>
    ∃ before quoted blanks blanks' chunk later,
      text = before ++ (quoted ++ (blanks ++ ':' :: (blanks' ++ (chunk ++ later)))) ∧
        Separates isFirst before ∧ SpellsString name quoted ∧ IsBlanks blanks ∧ IsBlanks blanks' ∧
          Spells value chunk ∧ SpellsMembers false members later

end

section

variable {text : List Char} {isFirst : Bool} {item : Tree} {items : List Tree}
  {name : Option String} {members : List (Option String × Tree)}

@[simp] theorem spells_null : Spells .null text ↔ text = "null".toList := by rw [Spells]

@[simp] theorem spells_bool {value : Bool} :
    Spells (.bool value) text ↔ text = (if value then "true" else "false").toList := by rw [Spells]

@[simp] theorem spells_number {number : NumberText} :
    Spells (.number number) text ↔ text = number.chars := by rw [Spells]

@[simp] theorem spells_string {meaning : Option String} :
    Spells (.string meaning) text ↔ SpellsString meaning text := by rw [Spells]

@[simp] theorem spells_list :
    Spells (.list items) text ↔
      ∃ inside, text = '[' :: (inside ++ [']']) ∧ SpellsItems true items inside := by
  rw [Spells]

@[simp] theorem spells_object :
    Spells (.object members) text ↔
      ∃ inside, text = '{' :: (inside ++ ['}']) ∧ SpellsMembers true members inside := by
  rw [Spells]

@[simp] theorem spellsItems_nil : SpellsItems isFirst [] text ↔ IsBlanks text := by rw [SpellsItems]

@[simp] theorem spellsItems_cons :
    SpellsItems isFirst (item :: items) text ↔
      ∃ before chunk later, text = before ++ (chunk ++ later) ∧ Separates isFirst before ∧
        Spells item chunk ∧ SpellsItems false items later := by
  rw [SpellsItems]

@[simp] theorem spellsMembers_nil : SpellsMembers isFirst [] text ↔ IsBlanks text := by
  rw [SpellsMembers]

@[simp] theorem spellsMembers_cons :
    SpellsMembers isFirst ((name, item) :: members) text ↔
      ∃ before quoted blanks blanks' chunk later,
        text = before ++ (quoted ++ (blanks ++ ':' :: (blanks' ++ (chunk ++ later)))) ∧
          Separates isFirst before ∧ SpellsString name quoted ∧ IsBlanks blanks ∧
            IsBlanks blanks' ∧ Spells item chunk ∧ SpellsMembers false members later := by
  rw [SpellsMembers]

end

/-- What may stand behind a value: nothing, or a blank, a comma or a closing bracket. -/
def Ends (rest : List Char) : Prop :=
  ∀ c ∈ rest.head?, isBlank c = true ∨ c = ',' ∨ c = ']' ∨ c = '}'

/-- The whole texts of a value, blanks around it. -/
def IsText (tree : Tree) (text : List Char) : Prop :=
  ∃ before chunk after, text = before ++ (chunk ++ after) ∧ IsBlanks before ∧ Spells tree chunk ∧
    IsBlanks after

end Isolate.Json
