import Isolate.Error.Basic
import Isolate.Path.Specifier
import Isolate.Rules
import Isolate.Text.Search
import Isolate.Wrapper

/-!
# Linking sessions

A session resolves the imports of one build. It keeps one record for every path that was loaded, the
paths that were asked for, and the failures that a run may still bring to light. What a record is does
not matter here. Resolving an import is divided into a plan, which reads nothing, and the acceptance of
what was loaded; an import that fails changes nothing but the referenced paths.
-/

namespace Isolate

/-- A linking session with records of some kind. -/
structure Session (ρ : Type) where
  rules : Rules
  /-- The records of loaded paths. -/
  records : List (Path × ρ) := []
  /-- The paths of CommonJS files that were loaded. -/
  wrapped : List Path := []
  /-- The paths that imports named, in ascending order. -/
  referenced : List Path := []
  /-- The failures of imports, earliest first. -/
  failures : List Error := []
  /-- The paths that are being loaded. -/
  loading : List Path := []
  /-- Whether a build has begun. -/
  isBound : Bool := false

namespace Session

variable {ρ : Type}

/-- What an import comes to before anything is read. -/
inductive Plan (ρ : Type) where
  | refuse (error : Error)
  /-- The record is known already. -/
  | reuse (record : ρ)
  /-- Read the file and load it as the given kind. -/
  | load (path : Path) (kind : Kind.Supported)

def record? (session : Session ρ) (path : Path) : Option ρ :=
  (session.records.find? (·.1.same path)).map (·.2)

/-- Begin a build; a session serves one build only. -/
def bind (session : Session ρ) : Except Error (Session ρ) :=
  if session.isBound then .error .linkerReused else .ok { session with isBound := true }

def refer (session : Session ρ) (path : Path) : Session ρ :=
  { session with referenced := path.insertSorted session.referenced }

def planPath (session : Session ρ) (path : Path) : Plan ρ :=
  match session.record? path with
  | some record => .reuse record
  | none =>
    match session.rules.classify path with
    | none => .refuse (.noMatchingRule path)
    | some (.unsupported name) => .refuse (.unsupportedKind name path)
    | some (.supported kind) => .load path kind

def plan (session : Session ρ) (referrer : Origin) (specifier : String) : Plan ρ × Session ρ :=
  match referrer with
  | .anonymous => (.refuse (.importFromNonFile specifier), session)
  | .file path =>
    match path.resolve specifier with
    | none => (.refuse (.unresolvableSpecifier specifier path.text), session)
    | some target => (session.planPath target, session.refer target)

def beginLoad (session : Session ρ) (path : Path) : Session ρ :=
  { session with loading := path :: session.loading }

/-- Note that a path is no longer being loaded. -/
def endLoad (session : Session ρ) (path : Path) : Session ρ :=
  { session with loading := session.loading.filter (!·.same path) }

def register (session : Session ρ) (path : Path) (record : ρ) : Session ρ :=
  { session with records := (path, record) :: session.records.filter (!·.1.same path) }

def accept (session : Session ρ) (path : Path) (kind : Kind.Supported) (record : ρ) : Session ρ :=
  let session := session.register path record
  if kind = .commonJS then { session with wrapped := path.insertSorted session.wrapped } else session

def fail (session : Session ρ) (error : Error) : Session ρ :=
  { session with failures := session.failures ++ [error] }

def clearFailures (session : Session ρ) : Session ρ := { session with failures := [] }

/-- The failure that a diagnostic tells of: the earliest one whose words occur in it, or else, with
`fallback`, the earliest one. All failures are forgotten if there is one. -/
def takeFailure (session : Session ρ) (text : List Char) (fallback : Bool) :
    Option Error × Session ρ :=
  let told := session.failures.find? fun e => Text.contains text e.describe.toList
  match told.or (if fallback then session.failures.head? else none) with
  | some error => (some error, session.clearFailures)
  | none => (none, session)

/-- A failure with its location in the coordinates of the file, not of the wrapper around it. -/
def unwrap (session : Session ρ) (error : Error) : Error :=
  error.mapLocation fun location =>
    if Path.isIn ⟨location.label⟩ session.wrapped then Wrapper.unwrap location else location

def cachedPaths (session : Session ρ) : List Path :=
  session.records.foldl (fun sorted (path, _) => path.insertSorted sorted) []

end Session
end Isolate
