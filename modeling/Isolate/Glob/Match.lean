import Isolate.Glob.Reader
import Isolate.Text.Utf8

/-!
# Matching globs

A glob is matched against the bytes of a text. The places of a text are the places before its first
byte and behind each of its bytes; a set of places is a list of marks, one more than there are bytes.
A token leads from a set of places to the set of places where a match of the token can end. A glob
accepts the text if its tokens lead from a start to the place behind the last byte. It may start at
the beginning of the text or behind any separator.
-/

namespace Isolate.Glob

abbrev ByteSet := UInt8 → Bool

def separator : UInt8 := 0x2f

def notSeparator : ByteSet := (· != separator)

def notNewline : ByteSet := (· != 0x0a)

def shift (set : ByteSet) : (before : Bool) → List UInt8 → List Bool → List Bool
  | before, b :: text, mark :: marks => before :: shift set (mark && set b) text marks
  | before, _, _ => [before]

/-- The places behind any number of bytes of the set; `reached` says whether the place in front is
reached from an earlier one. -/
def spread (set : ByteSet) : (reached : Bool) → List UInt8 → List Bool → List Bool
  | reached, b :: text, mark :: marks =>
    let here := mark || reached
    here :: spread set (here && set b) text marks
  | reached, _, mark :: _ => [mark || reached]
  | reached, _, [] => [reached]

def union : List Bool → List Bool → List Bool
  | a :: as, b :: bs => (a || b) :: union as bs
  | [], bs => bs
  | as, [] => as

def one (set : ByteSet) (text : List UInt8) (marks : List Bool) : List Bool :=
  shift set false text marks

def many (set : ByteSet) (text : List UInt8) (marks : List Bool) : List Bool :=
  spread set false text marks

def exactly (bytes : List UInt8) (text : List UInt8) (marks : List Bool) : List Bool :=
  bytes.foldl (fun marks b => one (· == b) text marks) marks

/-- Whether a byte lies in a range of characters, written byte by byte: between the last byte of the
first character and the first byte of the last, or equal to another byte of either. -/
def inRange (first last : Char) (b : UInt8) : Bool :=
  let low := Text.Utf8.encodeChar first
  let high := Text.Utf8.encodeChar last
  if first = last then low.contains b
  else
    low.dropLast.contains b || (low.getLastD 0 ≤ b && b ≤ high.headD 0) || high.tail.contains b

def classSet (negated : Bool) (ranges : List (Char × Char)) : ByteSet := fun b =>
  ranges.any (fun (first, last) => inRange first last b) != negated

mutual

/-- Whether a token says nothing at all: a group of branches that say nothing. -/
def Token.isVoid : Token → Bool
  | .alternates branches => allVoid branches
  | _ => false

def isVoid : List Token → Bool
  | [] => true
  | token :: rest => token.isVoid && isVoid rest

def allVoid : List (List Token) → Bool
  | [] => true
  | branch :: rest => isVoid branch && allVoid rest

end

mutual

def Token.advance (text : List UInt8) (marks : List Bool) : Token → List Bool
  | .literal c => exactly (Text.Utf8.encodeChar c) text marks
  | .any => one notSeparator text marks
  | .anyRun => many notSeparator text marks
  | .componentsFirst =>
    union marks (one (· == separator) text (many notNewline text marks))
  | .componentsLast => many notNewline text (one (· == separator) text marks)
  | .componentsBetween =>
    let behind := one (· == separator) text marks
    union behind (one (· == separator) text (many notNewline text behind))
  | .oneOf negated ranges => one (classSet negated ranges) text marks
  | .alternates branches => if allVoid branches then marks else advanceAny text marks branches

def advance (text : List UInt8) (marks : List Bool) : List Token → List Bool
  | [] => marks
  | token :: rest => advance text (token.advance text marks) rest

/-- The places where a match of one of the branches can end. A branch that says nothing is left
out. -/
def advanceAny (text : List UInt8) (marks : List Bool) : List (List Token) → List Bool
  | [] => marks.map fun _ => false
  | branch :: rest =>
    if isVoid branch then advanceAny text marks rest
    else union (advance text marks branch) (advanceAny text marks rest)

end

def firstPlace (text : List UInt8) : List Bool := true :: text.map fun _ => false

/-- The first place and the places behind separators. -/
def componentStarts (text : List UInt8) : List Bool := true :: text.map (· == separator)

/-- Whether the tokens lead from the starts to the end of the text. A glob of whole components alone
takes everything up to the end. -/
def acceptsFrom (starts : List Bool) (tokens : List Token) (text : List UInt8) : Bool :=
  match tokens with
  | [.componentsFirst] => (many notNewline text starts).getLastD false
  | tokens => (advance text starts tokens).getLastD false

def acceptsWhole (tokens : List Token) (text : List UInt8) : Bool :=
  acceptsFrom (firstPlace text) tokens text

/-- Whether a glob accepts a text or what stands behind one of its separators. -/
def accepts (tokens : List Token) (text : List UInt8) : Bool :=
  acceptsFrom (componentStarts text) tokens text

end Isolate.Glob
