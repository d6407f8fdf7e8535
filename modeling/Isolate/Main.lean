import Isolate.CommandLine.Outcome

/-!
# The program

A run is computed over the part of the files that is known. What it looked for and is not known yet is
then read from the disk, and the run is computed again, until it looks for nothing new. Only then are
its outcome written and its files opened.
-/

namespace Isolate.CommandLine

/-- The code of the operating system for a directory where a file is asked for. -/
def directoryCode : UInt32 := 21

def probe (path : Path) : IO (Option Store.Entry) := do
  try
    let bytes ← IO.FS.readBinFile path.text
    pure (some (.file bytes.toList))
  catch
    | .inappropriateType _ code _ => pure (if code = directoryCode then some .directory else none)
    | _ => pure none

def learn (tree : Store.Tree) (path : Path) : IO Store.Tree := do
  let components := path.components
  let ways := (List.range components.length).map fun n =>
    Path.ofComponents (Path.walk (components.take (n + 1)))
  ways.foldlM (fun tree way => do
    let place := (Store.Tree.names way).filter (· ≠ "")
    if (tree.find? place).isSome then pure tree
    else
      match ← probe way with
      | some entry => pure (tree.insert place entry)
      | none => pure tree) tree

/-- Compute a run until it looks for nothing that was not read from the disk before. -/
partial def settle (arguments : List String) (directory : Path) (tree : Store.Tree)
    (asked : List Path) : IO Outcome := do
  let place := (Store.Tree.names directory).filter (· ≠ "")
  let outcome := Outcome.ofArguments arguments { tree, directory := place }
  let fresh := outcome.files.asked.filter fun path => !asked.contains path
  if fresh.isEmpty then return outcome
  let tree ← fresh.foldlM (fun tree path => learn tree (directory.join path)) tree
  settle arguments directory tree (asked ++ fresh)

end Isolate.CommandLine

open Isolate CommandLine in
def main (arguments : List String) : IO UInt32 := do
  let directory : Path := ⟨(← IO.FS.realPath ".").toString⟩
  let tree ← learn {} directory
  let outcome ← settle arguments directory tree []
  for path in outcome.files.opened do
    discard (IO.FS.Handle.mk path.text .append)
  (← IO.getStdout).putStr outcome.output
  (← IO.getStderr).putStr outcome.errors
  return outcome.code.toUInt32
