import Isolate.Project.Basic
import Isolate.Json.Reader
import Isolate.Json.Printer

/-!
# Reading and writing project files

A project file is a JSON text. Each record in it is an object or the list of its fields in order. A
field that is left out has its default value, except the entry of the project and both fields of a
rule; an unknown field is passed over. After reading, the entry must not be empty and every rule must
have a pattern.
-/

namespace Isolate

/-- Why a project file is refused. -/
inductive Project.Error where
  | unreadable (fault : Json.Fault)
  | emptyEntry
  /-- The rule at this index, of this kind, has no pattern. -/
  | emptyRule (index : Nat) (kind : String)
  deriving Repr

def Project.Error.message : Project.Error → String
  | unreadable fault => s!"invalid project file: {fault.message}"
  | emptyEntry => "project file has an empty entry path"
  | emptyRule index kind => s!"module rule #{index} ({kind}) has no include patterns"

namespace Policy

/-- The fields of a policy read so far. -/
structure Draft where
  allowCodeGeneration : Option Bool := none

def Draft.finish (draft : Draft) : Policy :=
  { allowCodeGeneration := draft.allowCodeGeneration.getD false }

def readMember (name : String) (draft : Draft) : Json.Reader Draft :=
  if name = "allowCodeGeneration" then fun cursor =>
    (Json.fieldOnce name draft.allowCodeGeneration Json.boolValue cursor).map fun value =>
      { draft with allowCodeGeneration := some value }
  else fun cursor => (Json.fieldIgnored cursor).map fun _ => draft

def readList : Json.Reader Policy := fun cursor =>
  (Json.element? true Json.boolValue cursor).map fun first =>
    { allowCodeGeneration := first.getD false }

def reader : Json.Reader Policy :=
  Json.recordValue "SandboxPolicy" readList fun cursor =>
    (Json.members readMember (cursor.rest.length + 1) true {} cursor).map Draft.finish

/-- A policy as a JSON value. -/
def toJson (policy : Policy) : Json :=
  .object [("allowCodeGeneration", .bool policy.allowCodeGeneration)]

end Policy

namespace Limits

/-- The fields of limits read so far. -/
structure Draft where
  loopIterations : Option Nat := none
  recursionDepth : Option Nat := none
  stackSize : Option Nat := none

def Draft.finish (draft : Draft) : Limits :=
  let defaults : Limits := {}
  { loopIterations := draft.loopIterations.getD defaults.loopIterations
    recursionDepth := draft.recursionDepth.getD defaults.recursionDepth
    stackSize := draft.stackSize.getD defaults.stackSize }

def readIterations : Json.Reader Nat := Json.unsignedValue "u64"

def readSize : Json.Reader Nat := Json.unsignedValue "usize"

def readMember (name : String) (draft : Draft) : Json.Reader Draft :=
  if name = "loopIterationLimit" then fun cursor =>
    (Json.fieldOnce name draft.loopIterations readIterations cursor).map fun value =>
      { draft with loopIterations := some value }
  else if name = "maxRecursionDepth" then fun cursor =>
    (Json.fieldOnce name draft.recursionDepth readSize cursor).map fun value =>
      { draft with recursionDepth := some value }
  else if name = "maxStackSize" then fun cursor =>
    (Json.fieldOnce name draft.stackSize readSize cursor).map fun value =>
      { draft with stackSize := some value }
  else fun cursor => (Json.fieldIgnored cursor).map fun _ => draft

def readList : Json.Reader Limits := fun cursor =>
  (Json.element? true readIterations cursor).andThen fun iterations cursor =>
    (Json.element? iterations.isNone readSize cursor).andThen fun depth cursor =>
      (Json.element? depth.isNone readSize cursor).map fun size =>
        Draft.finish ⟨iterations, depth, size⟩

def reader : Json.Reader Limits :=
  Json.recordValue "LimitConfig" readList fun cursor =>
    (Json.members readMember (cursor.rest.length + 1) true {} cursor).map Draft.finish

/-- Limits as a JSON value. -/
def toJson (limits : Limits) : Json :=
  .object
    [("loopIterationLimit", .int limits.loopIterations),
      ("maxRecursionDepth", .int limits.recursionDepth),
      ("maxStackSize", .int limits.stackSize)]

end Limits

namespace Rule

/-- The fields of a rule read so far. -/
structure Draft where
  kind : Option String := none
  patterns : Option (List String) := none

def readPatterns : Json.Reader (List String) := Json.listValue (Json.stringValue "a string")

def readMember (name : String) (draft : Draft) : Json.Reader Draft :=
  if name = "type" then fun cursor =>
    (Json.fieldOnce name draft.kind (Json.stringValue "a string") cursor).map fun value =>
      { draft with kind := some value }
  else if name = "include" then fun cursor =>
    (Json.fieldOnce name draft.patterns readPatterns cursor).map fun value =>
      { draft with patterns := some value }
  else fun cursor => (Json.fieldIgnored cursor).map fun _ => draft

/-- The rule of the fields read; both are needed. -/
def Draft.finish (draft : Draft) : Json.Reader Rule := fun cursor =>
  match draft.kind, draft.patterns with
  | none, _ => .unplaced (.missingField "type") cursor
  | _, none => .unplaced (.missingField "include") cursor
  | some kind, some patterns => .value ⟨kind, patterns⟩ cursor

def readList : Json.Reader Rule := fun cursor =>
  let short (length : Nat) : Json.Cause :=
    .invalidLength length "struct ModuleRuleConfig with 2 elements"
  (Json.element? true (Json.stringValue "a string") cursor).andThen fun kind cursor =>
    match kind with
    | none => .unplaced (short 0) cursor
    | some kind =>
      (Json.element? false readPatterns cursor).andThen fun patterns cursor =>
        match patterns with
        | none => .unplaced (short 1) cursor
        | some patterns => .value ⟨kind, patterns⟩ cursor

def reader : Json.Reader Rule :=
  Json.recordValue "ModuleRuleConfig" readList fun cursor =>
    (Json.members readMember (cursor.rest.length + 1) true {} cursor).andThen Draft.finish

/-- A rule as a JSON value. -/
def toJson (rule : Rule) : Json :=
  .object [("type", .string rule.kind), ("include", .array (rule.patterns.map .string))]

end Rule

namespace Project

/-- The fields of a project read so far. -/
structure Draft where
  entry : Option String := none
  modules : Option Bool := none
  rules : Option (List Rule) := none
  policy : Option Policy := none
  limits : Option Limits := none

def Draft.finish (draft : Draft) : Json.Reader Project := fun cursor =>
  match draft.entry with
  | none => .unplaced (.missingField "entry") cursor
  | some entry =>
    .value
      { entry, modules := draft.modules.getD true, rules := draft.rules.getD []
        policy := draft.policy.getD {}, limits := draft.limits.getD {} } cursor

def readMember (name : String) (draft : Draft) : Json.Reader Draft :=
  if name = "entry" then fun cursor =>
    (Json.fieldOnce name draft.entry (Json.stringValue "path string") cursor).map fun value =>
      { draft with entry := some value }
  else if name = "modules" then fun cursor =>
    (Json.fieldOnce name draft.modules Json.boolValue cursor).map fun value =>
      { draft with modules := some value }
  else if name = "rules" then fun cursor =>
    (Json.fieldOnce name draft.rules (Json.listValue Rule.reader) cursor).map fun value =>
      { draft with rules := some value }
  else if name = "policy" then fun cursor =>
    (Json.fieldOnce name draft.policy Policy.reader cursor).map fun value =>
      { draft with policy := some value }
  else if name = "limits" then fun cursor =>
    (Json.fieldOnce name draft.limits Limits.reader cursor).map fun value =>
      { draft with limits := some value }
  else fun cursor => (Json.fieldIgnored cursor).map fun _ => draft

def readList : Json.Reader Project := fun cursor =>
  (Json.element? true (Json.stringValue "path string") cursor).andThen fun entry cursor =>
    match entry with
    | none => .unplaced (.invalidLength 0 "struct WorkerConfig with 5 elements") cursor
    | some _ =>
      (Json.element? false Json.boolValue cursor).andThen fun modules cursor =>
        (Json.element? false (Json.listValue Rule.reader) cursor).andThen fun rules cursor =>
          (Json.element? false Policy.reader cursor).andThen fun policy cursor =>
            (Json.element? false Limits.reader cursor).andThen fun limits cursor =>
              Draft.finish ⟨entry, modules, rules, policy, limits⟩ cursor

def reader : Json.Reader Project :=
  Json.recordValue "WorkerConfig" readList fun cursor =>
    (Json.members readMember (cursor.rest.length + 1) true {} cursor).andThen Draft.finish

/-- The index and kind of the first rule without patterns. -/
def emptyRule? (index : Nat) : List Rule → Option (Nat × String)
  | [] => none
  | rule :: rest =>
    if rule.patterns.isEmpty then some (index, rule.kind) else emptyRule? (index + 1) rest

/-- Refuse an empty entry and rules without patterns. -/
def check (project : Project) : Except Error Project :=
  if project.entry.isEmpty then .error .emptyEntry
  else
    match emptyRule? 0 project.rules with
    | some (index, kind) => .error (.emptyRule index kind)
    | none => .ok project

def ofText (text : String) : Except Error Project :=
  match Json.readText reader text with
  | .error fault => .error (.unreadable fault)
  | .ok project => project.check

/-- A project as a JSON value. -/
def toJson (project : Project) : Json :=
  .object
    [("entry", .string project.entry), ("modules", .bool project.modules),
      ("rules", .array (project.rules.map Rule.toJson)), ("policy", project.policy.toJson),
      ("limits", project.limits.toJson)]

end Project
end Isolate
