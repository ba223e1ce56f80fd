import ScriptSplit.CommandLine.Command
import Std.Time.Zoned

/-!
# The program

Reads the files below the current directory, runs the command on them and writes back what it changed.
There is no line to an adviser, so that a request for a plan fails and the plan is made without one.
-/

namespace ScriptSplit.Program

open Std.Time

/-- Directories that hold nothing of the project's own. -/
def passedOver : List String := [".git", "node_modules"]

/-- Reads what stands at an entry of a directory and below it. Links are not followed. -/
partial def read (directory : Location) (entry : IO.FS.DirEntry) : IO (List (Location × Entry)) := do
  let location := directory ++ [entry.fileName]
  match (← entry.path.symlinkMetadata).type with
  | .dir =>
    if passedOver.contains entry.fileName then return [(location, .directory)]
    let below ← (← entry.path.readDir).toList.mapM (read location)
    return (location, .directory) :: below.flatten
  | .file =>
    let bytes ← IO.FS.readBinFile entry.path
    return [(location, .file (Content.ofBytes bytes.toList))]
  | _ => return []

/-- The files below the current directory, and the directories above it. -/
def readFiles (current : Location) : IO Files := do
  let above := (List.range current.length).map fun n => (current.take (n + 1), Entry.directory)
  let below ← (← (← IO.currentDir).readDir).toList.mapM (read current)
  return { current, entries := above ++ below.flatten }

def written (location : Location) : String :=
  Path.toString { slashes := 1, parts := location }

def writeChanges (before after : Files) : IO Unit := do
  for (location, entry) in before.entries do
    match entry, after.entry? location with
    | .file _, none => IO.FS.removeFile (written location)
    | _, _ => pure ()
  for (location, entry) in after.entries do
    if before.entry? location != some entry then
      match entry with
      | .directory => IO.FS.createDirAll (written location)
      | .file content =>
        IO.FS.createDirAll (written location.dropLast)
        let bytes := match content with
          | .text chars => (String.ofList chars).toUTF8
          | .raw bytes => ⟨bytes.toArray⟩
        IO.FS.writeBinFile (written location) bytes

def variableNames : List String :=
  ["ATOMIZER_FACTS_DIR", "ATOMIZER_PLANS_DIR", "ANTHROPIC_API_KEY", "MOONSHOT_API_KEY",
    "DEEPSEEK_API_KEY", "OPENAI_API_KEY"]

def now : IO Moment := do
  let t := DateTime.ofTimestamp (← Timestamp.now) TimeZone.ZoneRules.UTC
  return {
    year := t.year.toInt.toNat
    month := t.month.val.toNat
    day := t.day.val.toNat
    hour := t.hour.val.toNat
    minute := t.minute.val.toNat
    second := t.second.val.toNat }

def surroundings : IO Surroundings := do
  let set ← variableNames.filterMapM fun name => do
    return (← IO.getEnv name).map fun value => (name, value)
  return { environment := set, now := ← now }

/-- Runs the command in the current directory; yields its exit code. -/
def run (arguments : List String) : IO UInt32 := do
  let root := Path.ofString (← IO.currentDir).toString
  let before ← readFiles root.parts
  match CommandLine.run root arguments (← surroundings) { files := before } with
  | .ok outcome after =>
    writeChanges before after.files
    IO.print outcome.output
    IO.eprint outcome.errors
    return outcome.code.toUInt32
  | .error cause after =>
    writeChanges before after.files
    IO.eprintln cause.message
    return 1

end ScriptSplit.Program

def main (arguments : List String) : IO UInt32 :=
  ScriptSplit.Program.run arguments
