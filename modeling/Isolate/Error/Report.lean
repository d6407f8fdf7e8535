import Isolate.Error.Basic
import Isolate.Json.Value

/-!
# Reports of failures

A report is a failure as a record of plain values: it names the phase and the kind, the message
without the location, and where the failure is, by its location or by the path of the file.
-/

namespace Isolate

/-- A failure as plain values. -/
structure Report where
  phase : Error.Phase
  kind : String
  message : String
  label : Option String
  line : Option Nat
  column : Option Nat
  deriving Repr, DecidableEq

def Error.report (e : Error) : Report :=
  let message :=
    match e with
    | .compile message _ => message
    | .runtime message _ => message
    | .codeGenerationDisallowed _ => Error.refusalText
    | e => e.describe
  let location := e.location?
  { phase := e.phase
    kind := e.kindName
    message
    label := (location.map Location.label).or (e.path?.map Path.text)
    line := location.bind Location.line
    column := location.bind Location.column }

namespace Report

def describe (report : Report) : String :=
  let place :=
    match report.label with
    | none => ""
    | some label => s!" ({(Location.mk label report.line report.column).describe})"
  s!"[{report.phase.name}] {report.kind}: {report.message}{place}"

/-- The report as a JSON object without the values it does not have. -/
def toJson (report : Report) : Json :=
  .objectOfPresent
    [("phase", some (.string report.phase.name)), ("kind", some (.string report.kind)),
      ("message", some (.string report.message)), ("label", report.label.map .string),
      ("line", report.line.map fun n => .int n), ("column", report.column.map fun n => .int n)]

end Report
end Isolate
