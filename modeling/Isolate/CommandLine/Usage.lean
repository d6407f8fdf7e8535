import Isolate.CommandLine.Arguments

/-!
# What the program says about itself

The long help gives every parameter a line of its own for its description and a blank line behind it;
the short help is denser.
-/

namespace Isolate.CommandLine

def versionText : String := "workerbox 0.1.0\n"

def usageLine : String := "Usage: workerbox [OPTIONS] [PROJECT]"

/-- What the help says of one parameter. -/
structure HelpEntry where
  /-- How the parameter is written. -/
  title : String
  description : String := ""
  /-- The value that it has when it is not given. -/
  standard : Option String := none
  /-- The values that it can have, each with its description. -/
  choices : List (String × String) := []

def projectEntry : HelpEntry :=
  ⟨"  [PROJECT]", "Project file path", some "workerbox.json", []⟩

/-- The entries of the options; the long help and the short help point at each other. -/
def optionEntries (long : Bool) : List HelpEntry :=
  [{ title := "      --list-referenced", description := "Print every path the linker touched, sorted" },
    { title := "      --json-errors", description := "Print sandbox errors as JSON reports" },
    { title := "      --log-level <LOG_LEVEL>"
      description := "Log level: silent, error, warn, info, debug, trace", standard := some "warn" },
    { title := "      --linker-log-level <LINKER_LOG_LEVEL>"
      description := "Log level override for module linking" },
    { title := "      --log-format <LOG_FORMAT>", standard := some "compact"
      choices :=
        [("pretty", "Colored, multi-line"), ("compact", "One line per event"),
          ("json", "JSON lines for tooling")] },
    { title := "      --log-file <LOG_FILE>", description := "Also append JSON logs to this file" },
    { title := "  -h, --help"
      description :=
        if long then "Print help (see a summary with '-h')"
        else "Print help (see more with '--help')" },
    { title := "  -V, --version", description := "Print version" }]

/-- The blanks in front of a description on a line of its own. -/
def margin : String := "          "

namespace HelpEntry

def standardText (entry : HelpEntry) : List String :=
  entry.standard.toList.map fun value => s!"[default: {value}]"

def choicesText (entry : HelpEntry) : List String :=
  if entry.choices.isEmpty then []
  else ["[possible values: " ++ String.intercalate ", " (entry.choices.map (·.1)) ++ "]"]

def descriptionText (entry : HelpEntry) : List String :=
  if entry.description.isEmpty then [] else [entry.description]

def summary (entry : HelpEntry) : String :=
  String.intercalate " " (entry.descriptionText ++ entry.standardText ++ entry.choicesText)

def choiceLine (width : Nat) (name description : String) : String :=
  let blanks := String.ofList (List.replicate (width - name.length) ' ')
  s!"\n{margin}- {name}: {blanks}{description}"

def choiceLines (entry : HelpEntry) : String :=
  let width := entry.choices.foldl (fun width (name, _) => max width name.length) 0
  s!"{margin}Possible values:"
    ++ String.join (entry.choices.map fun (name, description) => choiceLine width name description)

def long (entry : HelpEntry) : String :=
  let described :=
    margin ++ String.intercalate s!"\n{margin}\n{margin}" (entry.descriptionText ++ entry.standardText)
  let choices := if entry.choices.isEmpty then "" else "\n\n" ++ entry.choiceLines
  s!"{entry.title}\n{described}{choices}"

def short (entry : HelpEntry) : String := s!"{entry.title}\n{margin}{entry.summary}"

end HelpEntry

def helpText (long : Bool) : String :=
  let project :=
    if long then projectEntry.long else s!"{projectEntry.title}  {projectEntry.summary}"
  let options :=
    if long then String.intercalate "\n\n" ((optionEntries long).map HelpEntry.long)
    else String.intercalate "\n" ((optionEntries long).map HelpEntry.short)
  s!"Run a worker entry inside an isolated sandbox\n\n{usageLine}\n\n"
    ++ s!"Arguments:\n{project}\n\nOptions:\n{options}\n"

/-- What is said about arguments that cannot be used. -/
def misuseText (misuse : Misuse) : String :=
  s!"error: {misuse.message}\n\n{usageLine}\n\nFor more information, try '--help'.\n"

end Isolate.CommandLine
