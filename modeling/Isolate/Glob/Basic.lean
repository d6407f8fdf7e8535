/-!
# Globs

A glob is a sequence of tokens. A `*` stays within one component of a path and `**` goes across
components; where a glob reads `**` depends on what stands around it, see `Isolate.Glob.Reader`.
-/

namespace Isolate.Glob

/-- A token of a glob. -/
inductive Token where
  | literal (c : Char)
  /-- One byte other than a separator. -/
  | any
  /-- Bytes other than separators. -/
  | anyRun
  /-- Whole components, at the start. -/
  | componentsFirst
  /-- Whole components, at the end. -/
  | componentsLast
  /-- Whole components, between two others. -/
  | componentsBetween
  /-- One byte out of a set, or out of its complement; the set is given by ranges of characters. -/
  | oneOf (negated : Bool) (ranges : List (Char × Char))
  /-- One of several branches. -/
  | alternates (branches : List (List Token))
  deriving Repr, Inhabited

/-- Why a text is no glob. -/
inductive Fault where
  | unclosedClass
  | invalidRange (first last : Char)
  | unopenedAlternates
  | unclosedAlternates
  | danglingEscape
  deriving Repr, DecidableEq

def Fault.message : Fault → String
  | unclosedClass => "unclosed character class; missing ']'"
  | invalidRange first last => s!"invalid range; '{first}' > '{last}'"
  | unopenedAlternates =>
    "unopened alternate group; missing '\x7b' (maybe escape '\x7d' with '[\x7d]'?)"
  | unclosedAlternates =>
    "unclosed alternate group; missing '\x7d' (maybe escape '\x7b' with '[\x7b]'?)"
  | danglingEscape => "dangling '\\'"

end Isolate.Glob
