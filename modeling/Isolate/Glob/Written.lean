import Isolate.Glob.Reader
import Isolate.Text.Blank
import Isolate.Text.Utf8

/-!
# Globs written as regular expressions

A glob is matched by a regular expression over bytes that another package reads and turns into a
program. It refuses an expression whose parts nest too deep, and one whose program takes up too much
memory. How much memory a program takes up is left to an `Engine`; how deep an expression nests is
said by its parts. A part nests in groups, repetitions, classes, sequences of two parts or more and
choices between two branches or more.
-/

namespace Isolate.Glob

/-- A part of a regular expression. -/
inductive Part where
  /-- A character, an anchor or flags, with nothing inside. -/
  | plain (written : List Char)
  /-- A class in brackets. -/
  | oneOf (negated : Bool) (items : List (List Char))
  | repeated (part : Part) (mark : Char)
  | group (branches : List (List Part))
  deriving Repr, Inhabited

/-- The bracket of a class with what else stands in front of its items. -/
def opening (negated : Bool) : List Char := if negated then ['[', '^'] else ['[']

mutual

def Part.text : Part → List Char
  | .plain written => written
  | .oneOf negated items => opening negated ++ items.flatten ++ [']']
  | .repeated part mark => part.text ++ [mark]
  | .group branches => ['(', '?', ':'] ++ branchesText branches ++ [')']

def partsText : List Part → List Char
  | [] => []
  | part :: rest => part.text ++ partsText rest

def branchesText : List (List Part) → List Char
  | [] => []
  | [branch] => partsText branch
  | branch :: rest => partsText branch ++ '|' :: branchesText rest

end

/-- The characters that mean something else when they are not escaped. -/
def isSpecial (c : Char) : Bool := "\\.+*?()|[]\x7b\x7d^$#&-~".toList.contains c

def hexDigit (n : Nat) : Char := "0123456789abcdef".toList.getD n '0'

def byteText (b : UInt8) : List Char :=
  if b < 0x80 then
    let c := Char.ofNat b.toNat
    if isSpecial c then ['\\', c] else [c]
  else ['\\', 'x', hexDigit (b.toNat / 16), hexDigit (b.toNat % 16)]

def charTexts (c : Char) : List (List Char) := (Text.Utf8.encodeChar c).map byteText

/-- The items of a range. Only the bytes next to the dash are its ends; other bytes of the two characters
stand for themselves. -/
def rangeItems (first last : Char) : List (List Char) :=
  let low := charTexts first
  let high := charTexts last
  if first = last then low
  else low.dropLast ++ [low.getLastD [] ++ '-' :: high.headD []] ++ high.tail

def slashText : Part := .plain ['/']

def notSlash : Part := .oneOf true [['/']]

def line : Part := .repeated (.plain ['.']) '*'

/-- Whole components in front of the rest. -/
def leading : Part := .group [[.repeated slashText '?'], [line, slashText]]

mutual

/-- What a token is written as. Branches that are written as nothing are left out, and so is a group
without branches. -/
def Token.parts : Token → List Part
  | .literal c => (charTexts c).map .plain
  | .any => [notSlash]
  | .anyRun => [.repeated notSlash '*']
  | .componentsFirst => [leading]
  | .componentsLast => [slashText, line]
  | .componentsBetween => [.group [[slashText], [slashText, line, slashText]]]
  | .oneOf negated ranges => [.oneOf negated (ranges.flatMap fun (first, last) => rangeItems first last)]
  | .alternates branches =>
    match branchParts branches with
    | [] => []
    | branches => [.group branches]

def tokenParts : List Token → List Part
  | [] => []
  | token :: rest => token.parts ++ tokenParts rest

def branchParts : List (List Token) → List (List Part)
  | [] => []
  | branch :: rest =>
    match tokenParts branch with
    | [] => branchParts rest
    | parts => parts :: branchParts rest

end

def bodyParts : List Token → List Part
  | [.componentsFirst] => [line]
  | tokens => tokenParts tokens

/-- The expression that is searched for: the body of a glob at the end of a text, from the start or from
behind a separator on. -/
def searched (body : List Part) : List Part :=
  [.plain ['(', '?', '-', 'u', ')'], .group [[.plain ['^']], [slashText]], .group [body], .plain ['$']]

/-- The characters of an expression from one place up to another. -/
structure Span where
  start : Nat
  stop : Nat
  deriving Repr, DecidableEq

/-- What is found inside a part that makes one more level if `deeper` says so, or the part itself if
there is no level left for it. -/
def within (deeper : Bool) (levels : Nat) (span : Span) (inside : Nat → Option Span) : Option Span :=
  if deeper then
    match levels with
    | 0 => some span
    | levels + 1 => inside levels
  else inside levels

mutual

/-- The first part of an expression that nests deeper than some more levels. The expression starts at the
given place. -/
def Part.tooDeep? (levels start : Nat) : Part → Option Span
  | .plain _ => none
  | .oneOf negated items =>
    let stop := start + (Part.oneOf negated items).text.length
    within true levels ⟨start, stop⟩ fun levels =>
      within (2 ≤ items.length) levels ⟨start + (opening negated).length, stop - 1⟩ fun _ => none
  | .repeated part mark =>
    within true levels ⟨start, start + (Part.repeated part mark).text.length⟩ fun levels =>
      part.tooDeep? levels start
  | .group branches =>
    within true levels ⟨start, start + (Part.group branches).text.length⟩ fun levels =>
      within (2 ≤ branches.length) levels ⟨start + 3, start + 3 + (branchesText branches).length⟩
        fun levels => branchesTooDeep? levels (start + 3) branches

def partsTooDeep? (levels start : Nat) : List Part → Option Span
  | [] => none
  | part :: rest =>
    (part.tooDeep? levels start).or (partsTooDeep? levels (start + part.text.length) rest)

def branchesTooDeep? (levels start : Nat) : List (List Part) → Option Span
  | [] => none
  | branch :: rest =>
    let stop := start + (partsText branch).length
    let here := within (2 ≤ branch.length) levels ⟨start, stop⟩ fun levels =>
      partsTooDeep? levels start branch
    here.or (branchesTooDeep? levels (stop + 1) rest)

end

def nestLimit : Nat := 250

def sizeLimit : Nat := 10 * 1024 * 1024

/-- What turns expressions into programs. -/
class Engine where
  /-- The bytes that the program of an expression takes up. -/
  size : List Part → Nat

mutual

def Part.states : Part → Nat
  | .plain _ => 1
  | .oneOf _ _ => 2
  | .repeated part _ => part.states + 1
  | .group branches => branchesStates branches + 2

def partsStates : List Part → Nat
  | [] => 0
  | part :: rest => part.states + partsStates rest

def branchesStates : List (List Part) → Nat
  | [] => 0
  | branch :: rest => partsStates branch + branchesStates rest

end

instance Engine.standard : Engine := ⟨fun parts => 32 * partsStates parts⟩

/-- Why a glob is refused. -/
inductive Refusal where
  /-- It is no glob. -/
  | unreadable (fault : Fault)
  /-- A part of its expression nests too deep. -/
  | tooDeep (expression : List Char) (span : Span)
  | tooBig
  deriving Repr, DecidableEq

def written (glob : List Token) : List Part := searched (bodyParts glob)

/-- Read a glob and see that its expression can be used. -/
def compile [Engine] (pattern : List Char) : Except Refusal (List Token) :=
  match read pattern with
  | .error fault => .error (.unreadable fault)
  | .ok tokens =>
    let parts := written tokens
    match branchesTooDeep? nestLimit 0 [parts] with
    | some span => .error (.tooDeep (partsText parts) span)
    | none => if sizeLimit < Engine.size parts then .error .tooBig else .ok tokens

/-- A place in a text of several lines. -/
structure Spot where
  line : Nat
  column : Nat

def spotOf (text : List Char) (place : Nat) : Spot :=
  let before := text.take place
  ⟨before.count '\n' + 1, (before.reverse.takeWhile (· ≠ '\n')).length + 1⟩

def blanks (n : Nat) : String := String.ofList (List.replicate n ' ')

/-- The lines of an expression, with marks below those characters of a line that a span takes up. Several
lines have numbers in front of them. -/
def marked (text : List Char) (start stop : Spot) : String :=
  let lines := Text.lines text
  let width := if lines.length ≤ 1 then 0 else (toString lines.length).length
  let margin := if width = 0 then 4 else width + 2
  let marks := String.ofList (List.replicate (max 1 (stop.column - start.column)) '^')
  let rows := lines.zipIdx.map fun (written, i) =>
    let number := toString (i + 1)
    let front := if width = 0 then blanks margin else s!"{blanks (width - number.length)}{number}: "
    let row := s!"{front}{String.ofList written}\n"
    if start.line = stop.line ∧ start.line = i + 1 then
      s!"{row}{blanks (margin + (start.column - 1))}{marks}\n"
    else row
  String.join rows

def Span.picture (span : Span) (text : List Char) : String :=
  let start := spotOf text span.start
  let stop := spotOf text span.stop
  if '\n' ∈ text then
    let divider := String.ofList (List.replicate 79 '~')
    let extent :=
      if start.line = stop.line then ""
      else
        let first := s!"on line {start.line} (column {start.column})"
        s!"{first} through line {stop.line} (column {stop.column - 1})\n"
    s!"{divider}\n{marked text start stop}{divider}\n{extent}"
  else marked text start stop

def Refusal.message (pattern : String) : Refusal → String
  | .unreadable fault => s!"error parsing glob '{pattern}': {fault.message}"
  | .tooDeep expression span =>
    s!"regex parse error:\n{span.picture expression}error: exceed the maximum number of nested "
      ++ s!"parentheses/brackets ({nestLimit})"
  | .tooBig => s!"Compiled regex exceeds size limit of {sizeLimit} bytes."

end Isolate.Glob
