import Isolate.Diagnostic
import Isolate.Error.Basic
import Isolate.Script.Display
import Isolate.Script.Grammar.Basic

/-!
# From failures of code to failures of the worker

A failure of code becomes a failure of the worker with a location in its files. A refusal to compile a
string is told from other failures by its error, and is located where the host refused.
-/

namespace Isolate
open Script

def Error.ofFault (fault : Grammar.Fault) (label : String) : Error :=
  let text := match fault.place with
    | some place => s!"SyntaxError: unexpected token at line {place.line}, col {place.column}"
    | none => "SyntaxError: abrupt end"
  .compile text (Diagnostic.compileLocation text.toList label)

/-- The first line of a text that says something. -/
def headline (text : String) : String := String.ofList (Diagnostic.headline text.toList)

def Error.ofDefinition (w : World) (abrupt : Abrupt) (label : String) : Error :=
  let text := w.describeFailure abrupt
  .compile (headline text) (Diagnostic.compileLocation text.toList label)

/-- Whether a failure is known as the error that the host fails with when it refuses to compile a
string. -/
def Script.World.isRefusal (w : World) : Abrupt → Bool
  | .thrown value _ =>
    match w.native? value with
    | some native => native.kind = .eval && native.message = Error.refusalText
    | none => false
  | _ => false

/-- The label of a site in a unit: an absolute path names itself. -/
def Script.Site.label (site : Site) (origin : String) : String :=
  match site.origin with
  | .file path => if path.isAbsolute then path.text else origin
  | _ => origin

/-- A failure of running code from a unit labelled `origin`. `refused` is how many strings the host
had refused to compile when the run began. -/
def Error.ofFailure (w : World) (abrupt : Abrupt) (origin : String) (refused : Nat) : Error :=
  let refusal := if refused < w.refusals.length then w.refusals.head?.bind (·.site) else none
  match refusal, w.isRefusal abrupt with
  | some site, true =>
    .codeGenerationDisallowed ⟨site.label origin, some site.place.line, some site.place.column⟩
  | _, _ =>
    .runtime (headline (w.describeFailure abrupt))
      (Diagnostic.runtimeLocation (w.diagnostic abrupt).toList origin)

def Error.ofEngine (w : World) (abrupt : Abrupt) : Error :=
  .engine (headline (w.describeFailure abrupt))

end Isolate
