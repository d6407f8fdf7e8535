import Isolate.Blueprint.Module
import Isolate.Blueprint.Script
import Isolate.CommandLine.Usage
import Isolate.Error.Report
import Isolate.Project.Reader
import Isolate.Store.Access

/-!
# Running a project

The project file is read, its entry is found beside it and run, as a module or as a script, and the
default export or the completion value is printed. What is written goes into an outcome together with
the exit code, and so does every path that was looked for, so that the same run can be made again when
more of the files is known.

Only the settings of the log are checked here; messages are nobody's output.
-/

namespace Isolate.CommandLine
open Script

/-- Why a project does not run to its end. -/
inductive Failure where
  | unknownLevel (name : String)
  | logFile (path : Path) (cause : Store.AccessError)
  | projectFile (path : Path) (cause : Store.AccessError)
  | project (path : Path) (cause : Project.Error)
  | entryNotFound (path : Path) (cause : Store.LookupError)
  | entryFile (path : Path) (cause : Store.AccessError)
  | rules (cause : Rules.Error)
  | worker (cause : Error)

namespace Failure

/-- What is wrong with a project file; a fault of its text is told once more by itself. -/
def projectText (cause : Project.Error) : String :=
  match cause with
  | .unreadable fault => s!"{cause.message}: {fault.message}"
  | cause => cause.message

/-- The failure in words. Failures of the worker speak for themselves. -/
def message : Failure → String
  | unknownLevel name => s!"Error: unknown log level '{name}'"
  | logFile path cause => s!"Error: cannot open log file '{path.text}': {cause.message}"
  | projectFile path cause =>
    s!"Error: cannot read project file '{path.text}' "
      ++ s!"(create it with an \"entry\" field): {cause.message}"
  | project path cause =>
    let text := projectText cause
    s!"Error: invalid project file '{path.text}': {text}"
  | entryNotFound path cause => s!"Error: cannot find entry '{path.text}': {cause.message}"
  | entryFile path cause => s!"Error: cannot read entry '{path.text}': {cause.message}"
  | rules cause => s!"Error: {cause.message}"
  | worker cause => cause.describe

def text (jsonErrors : Bool) (failure : Failure) : String :=
  match jsonErrors, failure with
  | true, worker cause => cause.report.toJson.toIndentedText
  | _, failure => failure.message

end Failure

structure Files where
  tree : Store.Tree
  /-- The place of the current directory. -/
  directory : List String
  /-- The paths that were looked for. -/
  asked : List Path := []
  /-- The files that were opened for writing. -/
  opened : List Path := []

/-- What a run prints when it succeeds. -/
structure Product where
  value : Option String
  referenced : List Path

abbrev Run := ExceptT Failure (StateM Files)

namespace Run

def ask (paths : List Path) : Run Unit :=
  modify fun files => { files with asked := files.asked ++ paths }

def ofExcept {α ε : Type} (failure : ε → Failure) : Except ε α → Run α
  | .ok value => pure value
  | .error cause => throw (failure cause)

def openLog (invocation : Invocation) : Run Unit := do
  if (Log.Level.ofName? invocation.logLevel).isNone then
    throw (.unknownLevel invocation.logLevel)
  if let some level := invocation.linkerLogLevel then
    if (Log.Level.ofName? level).isNone then throw (.unknownLevel level)
  if let some path := invocation.logFile then
    ask [path]
    let files ← get
    let tree ← ofExcept (.logFile path) (files.tree.ensureFile files.directory path)
    set { files with tree, opened := files.opened ++ [path] }

def readProject (path : Path) : Run Project := do
  ask [path]
  let files ← get
  let text ← ofExcept (.projectFile path) (files.tree.readText files.directory path)
  ofExcept (.project path) (Project.ofText text)

def readEntry (project : Path) (entry : String) : Run (Path × String) := do
  let joined := (project.parent?.getD ⟨"."⟩).join ⟨entry⟩
  ask [joined]
  let files ← get
  let path ← ofExcept (.entryNotFound joined) (files.tree.canonical files.directory joined)
  let text ← ofExcept (.entryFile path) (files.tree.readText files.directory path)
  pure (path, text)

/-- A value as it is printed; nothing is printed of `undefined`. -/
def valueText (world : World) (value : Value) : Option String :=
  match value with
  | .undefined => none
  | value => some (world.describe World.describeDepth value)

def runScript (blueprint : Blueprint) : Run Product := do
  let script ← ofExcept .worker (blueprint.buildScript [])
  let (result, script) := script.run
  let value ← ofExcept .worker result
  pure ⟨valueText script.world value, []⟩

/-- Run a blueprint as a module. The default export is printed as JSON, or in words if JSON has
nothing for it. -/
def runModule (blueprint : Blueprint) (rules : Rules) : Run Product := do
  let files ← get
  let start : Host Store.Native :=
    { session := { rules }, store := { tree := files.tree }
      directory := Store.Tree.pathOf files.directory }
  let (built, host) := blueprint.buildModule [] start
  ask host.session.referenced
  let module ← ofExcept .worker built
  let (result, module, host) := module.run host
  ask host.session.referenced
  ofExcept .worker result
  let (json, module, host) := module.exportedJson? host "default"
  match ← ofExcept .worker json with
  | some json => pure ⟨some json.sorted.toIndentedText, host.session.referenced⟩
  | none =>
    let value ← ofExcept .worker (module.export? "default")
    pure ⟨value.bind (valueText module.world), host.session.referenced⟩

def ofInvocation [Glob.Engine] (invocation : Invocation) : Run Product := do
  openLog invocation
  let project ← readProject invocation.project
  let (path, source) ← readEntry invocation.project project.entry
  let blueprint : Blueprint :=
    { source, origin := .file path, policy := project.policy, limits := project.limits }
  if project.modules then
    let rules ← ofExcept .rules (Rules.compile project.effectiveRules)
    runModule blueprint rules
  else runScript blueprint

end Run

/-- What the program leaves: an exit code, what it wrote, and the files. -/
structure Outcome where
  code : Nat
  output : String := ""
  errors : String := ""
  files : Files

def Product.text (product : Product) (listReferenced : Bool) : String :=
  let listed := if listReferenced then product.referenced.map Path.text else []
  String.join ((product.value.toList ++ listed).map fun line => line ++ "\n")

def Outcome.ofArguments [Glob.Engine] (arguments : List String) (files : Files) : Outcome :=
  match Request.ofArguments arguments with
  | .error misuse => { code := 2, errors := misuseText misuse, files }
  | .ok (.help long) => { code := 0, output := helpText long, files }
  | .ok .version => { code := 0, output := versionText, files }
  | .ok (.run invocation) =>
    match (Run.ofInvocation invocation).run.run files with
    | (.ok product, files) =>
      { code := 0, output := product.text invocation.listReferenced, files }
    | (.error failure, files) =>
      { code := 1, errors := failure.text invocation.jsonErrors ++ "\n", files }

end Isolate.CommandLine
