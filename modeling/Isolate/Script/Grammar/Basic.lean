import Isolate.Script.Scanner
import Isolate.Script.Tree

/-!
# Reading by a grammar

A rule of the grammar reads tokens from the front and leaves the rest. It fails at the first token
that does not fit; at the end of the text there is no place to name. Productions that refer to each other
are tied together by `Productions`, which every rule takes as an argument.
-/

namespace Isolate.Script.Grammar

/-- A text that does not follow the grammar, and the place of the first token that does not fit. -/
structure Fault where
  place : Option Position
  deriving Repr, DecidableEq

/-- The tokens ahead. -/
structure Stream where
  rest : List Lexeme
  /-- The characters up to the end of the last token read. -/
  last : Nat := 0

abbrev Parse (α : Type) := StateT Stream (Except Fault) α

/-- What the surroundings of a text allow. -/
structure Context where
  isStrict : Bool := false
  /-- Whether `await` is an operator. -/
  awaits : Bool := false
  /-- Whether `yield` is no name. -/
  yields : Bool := false
  inFunction : Bool := false
  isModule : Bool := false
  /-- Whether `in` is an operator. -/
  allowsIn : Bool := true

/-- The rules that are used before they are written down. -/
structure Productions where
  expression : Context → Parse Expr
  assignment : Context → Parse Expr
  unary : Context → Parse Expr
  member : Context → Parse Expr
  statement : Context → Parse Stmt
  pattern : Context → Parse Pattern

def failAt {α : Type} (lexeme : Lexeme) : Parse α :=
  throw <|
    match lexeme.token with
    | .endOfText => ⟨none⟩
    | .unreadable place => ⟨place⟩
    | _ => ⟨some lexeme.position⟩

def failAtPlace {α : Type} (place : Position) : Parse α := throw ⟨some place⟩

def peek : Parse Lexeme := do
  match (← get).rest with
  | [] => throw ⟨none⟩
  | lexeme :: _ =>
    match lexeme.token with
    | .unreadable place => throw ⟨place⟩
    | _ => pure lexeme

def peekNext : Parse Token := do
  match (← get).rest with
  | _ :: lexeme :: _ => pure lexeme.token
  | _ => pure .endOfText

def advance : Parse Unit :=
  modify fun s =>
    match s.rest with
    | [] => s
    | lexeme :: rest =>
      match lexeme.token with
      | .endOfText => s
      | _ => ⟨rest, lexeme.stop⟩

def next : Parse Lexeme := do
  let lexeme ← peek
  advance
  pure lexeme

def unexpected {α : Type} : Parse α := do failAt (← peek)

def isPunctuator (token : Token) (p : Punctuator) : Bool :=
  match token with
  | .punctuator q => p = q
  | _ => false

def isWord (token : Token) (name : String) : Bool :=
  match token with
  | .word w => w = name
  | _ => false

def ahead (p : Punctuator) : Parse Bool := do return isPunctuator (← peek).token p

def wordAhead (name : String) : Parse Bool := do return isWord (← peek).token name

def take (p : Punctuator) : Parse Bool := do
  if ← ahead p then
    advance
    pure true
  else pure false

def takeWord (name : String) : Parse Bool := do
  if ← wordAhead name then
    advance
    pure true
  else pure false

def expect (p : Punctuator) : Parse Lexeme := do
  if ← ahead p then next else unexpected

def expectWord (name : String) : Parse Unit := do
  if ← wordAhead name then advance else unexpected

def remaining : Parse Nat := do return (← get).rest.length

/-- What a round of a loop says: go on with a state, or stop with it. -/
inductive Round (σ : Type) where
  | more (state : σ)
  | stop (state : σ)

def repeatAtMost {σ : Type} : (fuel : Nat) → (σ → Parse (Round σ)) → σ → Parse σ
  | 0, _, state => pure state
  | fuel + 1, round, state => do
    match ← round state with
    | .stop state => pure state
    | .more state => repeatAtMost fuel round state

def repeating {σ : Type} (round : σ → Parse (Round σ)) (state : σ) : Parse σ := do
  repeatAtMost ((← remaining) + 1) round state

def reservedWords : List String :=
  ["break", "case", "catch", "class", "const", "continue", "debugger", "default", "delete", "do",
    "else", "enum", "export", "extends", "false", "finally", "for", "function", "if", "import",
    "in", "instanceof", "new", "null", "return", "super", "switch", "this", "throw", "true", "try",
    "typeof", "var", "void", "while", "with"]

/-- Words that name nothing in strict code. -/
def strictWords : List String :=
  ["implements", "interface", "let", "package", "private", "protected", "public", "static", "yield"]

def Context.isName (ctx : Context) (word : String) : Bool :=
  !(reservedWords.contains word || (ctx.isStrict && strictWords.contains word)
    || (word == "await" && (ctx.awaits || ctx.isModule)) || (word == "yield" && ctx.yields))

def Context.isBindable (ctx : Context) (word : String) : Bool :=
  ctx.isName word && !(ctx.isStrict && (word == "eval" || word == "arguments"))

def bindingName (ctx : Context) : Parse (Position × String) := do
  let lexeme ← peek
  match lexeme.token with
  | .word w => if ctx.isBindable w then do advance; pure (lexeme.position, w) else failAt lexeme
  | _ => failAt lexeme

/-- End a statement: by a semicolon, or where a line, a block or the text ends. -/
def endStatement : Parse Unit := do
  let lexeme ← peek
  match lexeme.token with
  | .punctuator .semicolon => advance
  | .punctuator .closeBrace => pure ()
  | .endOfText => pure ()
  | _ => if lexeme.afterNewline then pure () else failAt lexeme

def closesBeforeArrow : (depth : Nat) → List Lexeme → Bool
  | _, [] => false
  | depth, lexeme :: rest =>
    match lexeme.token with
    | .punctuator .openParen => closesBeforeArrow (depth + 1) rest
    | .punctuator .closeParen =>
      if depth = 1 then
        match rest with
        | next :: _ => isPunctuator next.token .arrow && !next.afterNewline
        | [] => false
      else closesBeforeArrow (depth - 1) rest
    | _ => closesBeforeArrow depth rest

/-- Whether the strings that a body starts with contain the word that makes it strict. -/
def startsStrict : List Lexeme → Bool
  | [] => false
  | lexeme :: rest =>
    match lexeme.token, rest with
    | .string units, next :: more =>
      let isStrict :=
        units = Text.Units.ofString "use strict" && lexeme.stop - lexeme.start = 12
      let ends :=
        isPunctuator next.token .semicolon || isPunctuator next.token .closeBrace
          || next.afterNewline || (match next.token with | .endOfText => true | _ => false)
      if !ends then false
      else if isStrict then true
      else if isPunctuator next.token .semicolon then startsStrict more
      else startsStrict (next :: more)
    | _, _ => false

end Isolate.Script.Grammar
