import Isolate.Glob.Match
import Isolate.Glob.Written
import Isolate.Kind
import Isolate.Path.Basic
import Isolate.Project.Basic

/-!
# Module rules

A list of rules classifies paths: the first rule with a matching glob gives the kind. A path is
matched as a text in which backslashes are separators.
-/

namespace Isolate

/-- Why a list of rules is refused: a glob of a rule is. -/
structure Rules.Error where
  kind : String
  pattern : String
  refusal : Glob.Refusal
  deriving Repr, DecidableEq

def Rules.Error.message (e : Rules.Error) : String :=
  s!"invalid glob '{e.pattern}' in {e.kind} rule: {e.refusal.message e.pattern}"

structure Rules.Compiled where
  kind : Kind
  patterns : List String
  globs : List (List Glob.Token)

abbrev Rules := List Rules.Compiled

namespace Rules

variable [Glob.Engine]

def compileGlobs (kind : String) : List String → Except Error (List (List Glob.Token))
  | [] => .ok []
  | pattern :: rest =>
    match Glob.compile pattern.toList with
    | .error refusal => .error ⟨kind, pattern, refusal⟩
    | .ok glob =>
      match compileGlobs kind rest with
      | .error e => .error e
      | .ok globs => .ok (glob :: globs)

def compileRule (rule : Rule) : Except Error Compiled :=
  match compileGlobs rule.kind rule.patterns with
  | .error e => .error e
  | .ok globs => .ok ⟨Kind.ofName rule.kind, rule.patterns, globs⟩

def compile : List Rule → Except Error Rules
  | [] => .ok []
  | rule :: rest =>
    match compileRule rule with
    | .error e => .error e
    | .ok compiled =>
      match compile rest with
      | .error e => .error e
      | .ok rules => .ok (compiled :: rules)

def subject (path : Path) : List UInt8 :=
  Text.Utf8.encode (path.text.toList.map fun c => if c = '\\' then '/' else c)

def Compiled.accepts (rule : Compiled) (bytes : List UInt8) : Bool :=
  rule.globs.any (Glob.accepts · bytes)

def Compiled.matches (rule : Compiled) (path : Path) : Bool := rule.accepts (subject path)

def classify (rules : Rules) (path : Path) : Option Kind :=
  (rules.find? (·.matches path)).map Compiled.kind

end Rules
end Isolate
