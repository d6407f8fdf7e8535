import Isolate.Glob.Basic

/-!
# Reading globs

A glob is read from left to right, one branch at a time: `{` opens a group of branches, `,` inside a
group starts the next branch and `}` closes the group. Outside a group a comma stands for itself. A
backslash makes the next character stand for itself, except inside a class.

A `**` stands for whole components if it is the first thing of its branch and a separator or the end
of the glob follows, or if it comes behind a separator and in front of a separator or an end.
Elsewhere it is two stars. The separators around it belong to it.
-/

namespace Isolate.Glob

/-- What the next character belongs to. -/
inductive Mode where
  | outside
  /-- A class with the ranges read so far, the last one first. -/
  | inClass (negated : Bool) (ranges : List (Char × Char)) (first inRange : Bool)
  /-- A character behind a backslash. -/
  | escaped
  deriving Repr

/-- The part of a glob that has been read. -/
structure Reading where
  /-- The branches being read, the innermost last one first; the tokens of each last one first. -/
  branches : List (List Token) := [[]]
  /-- For every open group, the number of branches outside it. -/
  groups : List Nat := []
  /-- The last character read. -/
  last : Option Char := none
  mode : Mode := .outside
  deriving Repr

namespace Reading

def push (r : Reading) (token : Token) : Reading :=
  match r.branches with
  | [] => { r with branches := [[token]] }
  | branch :: outer => { r with branches := (token :: branch) :: outer }

def hasTokens (r : Reading) : Bool :=
  match r.branches with
  | (_ :: _) :: _ => true
  | _ => false

/-- Let whole components take the place of the last token; they merge with whole components at the
start or end. -/
def mergeComponents (r : Reading) (atEnd : Bool) : Reading :=
  match r.branches with
  | (token :: branch) :: outer =>
    let merged :=
      match token with
      | .componentsFirst => .componentsFirst
      | .componentsLast => .componentsLast
      | _ => if atEnd then .componentsLast else .componentsBetween
    { r with branches := (merged :: branch) :: outer }
  | _ => r

def openGroup (r : Reading) : Reading :=
  { r with branches := [] :: r.branches, groups := r.branches.length :: r.groups }

def closeGroup (r : Reading) : Except Fault Reading :=
  match r.groups with
  | [] => .error .unopenedAlternates
  | outside :: groups =>
    let inside := r.branches.take (r.branches.length - outside)
    let outer := r.branches.drop (r.branches.length - outside)
    let token := Token.alternates (inside.reverse.map List.reverse)
    .ok (push { r with branches := outer, groups } token)

def comma (r : Reading) : Reading :=
  if r.groups.isEmpty then r.push (.literal ',') else { r with branches := [] :: r.branches }

def after (r : Reading) (c : Char) : Reading := { r with last := some c }

def twoStars (r : Reading) : Reading := (r.push .anyRun).push .anyRun

/-- Whether a `**` behind other tokens may stand for whole components, given the character before
it. -/
def mayCross (r : Reading) : Bool :=
  r.last = some '/' || (1 < r.branches.length && (r.last = some ',' || r.last = some '{'))

/-- A range of a class whose last character is replaced. -/
def extendRange (ranges : List (Char × Char)) (c : Char) : Except Fault (List (Char × Char)) :=
  match ranges with
  | [] => .ok [(c, c)]
  | (first, _) :: rest => if c < first then .error (.invalidRange first c) else .ok ((first, c) :: rest)

def classChar (r : Reading) (negated : Bool) (ranges : List (Char × Char)) (first inRange : Bool)
    (c : Char) : Except Fault Reading :=
  let go (ranges : List (Char × Char)) (inRange : Bool) : Reading :=
    { r with mode := .inClass negated ranges false inRange }
  if c = ']' ∧ ¬first then
    let ranges := if inRange then ('-', '-') :: ranges else ranges
    .ok (push { r with mode := .outside } (.oneOf negated ranges.reverse))
  else if c = '-' ∧ ¬first ∧ ¬inRange then .ok (go ranges true)
  else if inRange then (extendRange ranges c).map (go · false)
  else .ok (go ((c, c) :: ranges) false)

/-- Take a character that is no star and stands outside a class. -/
def plainChar (r : Reading) (c : Char) : Except Fault Reading :=
  match c with
  | '?' => .ok (r.push .any)
  | '{' => .ok r.openGroup
  | '}' => r.closeGroup
  | ',' => .ok r.comma
  | '\\' => .ok { r with mode := .escaped }
  | c => .ok (r.push (.literal c))

end Reading

open Reading in
def readFrom (r : Reading) : List Char → Except Fault Reading
  | [] => .ok r
  | c :: rest =>
    match r.mode with
    | .escaped => readFrom (({ r with mode := .outside }.push (.literal c)).after c) rest
    | .inClass negated ranges first inRange =>
      match r.classChar negated ranges first inRange c with
      | .ok r => readFrom (r.after c) rest
      | .error e => .error e
    | .outside =>
      if c = '*' then
        match rest with
        | '*' :: rest =>
          match rest with
          | [] =>
            if ¬r.hasTokens then .ok (r.push .componentsFirst)
            else if r.mayCross then .ok (r.mergeComponents true)
            else .ok r.twoStars
          | d :: rest' =>
            if ¬r.hasTokens then
              if d = '/' then readFrom ((r.push .componentsFirst).after d) rest'
              else readFrom (r.twoStars.after '*') (d :: rest')
            else if ¬r.mayCross then readFrom (r.twoStars.after '*') (d :: rest')
            else if (d = ',' ∨ d = '}') ∧ 2 ≤ r.branches.length then
              readFrom ((r.mergeComponents true).after '*') (d :: rest')
            else if d = '/' then readFrom ((r.mergeComponents false).after d) rest'
            else readFrom (r.twoStars.after '*') (d :: rest')
        | rest => readFrom ((r.push .anyRun).after '*') rest
      else if c = '[' then
        match rest with
        | [] => .error .unclosedClass
        | d :: rest' =>
          if d = '!' ∨ d = '^' then
            readFrom ({ r with mode := .inClass true [] true false }.after d) rest'
          else readFrom ({ r with mode := .inClass false [] true false }.after c) (d :: rest')
      else
        match r.plainChar c with
        | .ok r => readFrom (r.after c) rest
        | .error e => .error e

def read (text : List Char) : Except Fault (List Token) :=
  match readFrom {} text with
  | .error e => .error e
  | .ok r =>
    match r.mode with
    | .escaped => .error .danglingEscape
    | .inClass _ _ _ _ => .error .unclosedClass
    | .outside =>
      match r.groups, r.branches with
      | [], [tokens] => .ok tokens.reverse
      | _, _ => .error .unclosedAlternates

end Isolate.Glob
