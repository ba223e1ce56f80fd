import ScriptSplit.Files.Pattern
import ScriptSplit.Path.Names
import ScriptSplit.Run.Storage

/-!
# Originals and their backups

A source that has been replaced by a shim lives on in a backup beside it. The best backup is the one with
the plain name; older texts are kept under names with the time at which they were moved aside.
-/

namespace ScriptSplit

structure Moment where
  year : Nat
  month : Nat
  day : Nat
  hour : Nat
  minute : Nat
  second : Nat
  deriving DecidableEq, Repr

namespace Moment

def padded (width n : Nat) : String :=
  let digits := toString n
  String.ofList (List.replicate (width - digits.length) '0') ++ digits

def stamp (m : Moment) : String :=
  padded 4 m.year ++ padded 2 m.month ++ padded 2 m.day ++ padded 2 m.hour ++ padded 2 m.minute ++
    padded 2 m.second

def written (m : Moment) : String :=
  padded 4 m.year ++ "-" ++ padded 2 m.month ++ "-" ++ padded 2 m.day ++ "T" ++ padded 2 m.hour ++
    ":" ++ padded 2 m.minute ++ ":" ++ padded 2 m.second ++ "+00:00"

end Moment

namespace Storage

/-- The paths of the backups that were moved aside, the newest name first. -/
def datedBackups (source : Path) (files : Files) : List Path :=
  let names := (files.namesIn source.parent).filter (matchesPattern source.datedPattern)
  (Names.sort names).reverse.map source.parent.child

def firstUsable : List Path → Storage (Option Path)
  | [] => return none
  | path :: rest => do
    if (← files).hasFile path then
      if looksLikeShim (← readText path) then firstUsable rest else return some path
    else firstUsable rest

def findBackup (source : Path) : Storage (Option Path) := do
  let plain ← require source source.backup?
  if !isNamePattern source.datedPattern then throw (.nameless .doubleStar)
  firstUsable (plain :: datedBackups source (← files))

/-- The text of a source before it was replaced by a shim, and the file that it was read from. -/
def readOriginal (source : Path) : Storage (Text × Path) := do
  let unreadable (reason : String) : Storage (Text × Path) :=
    throw (.analysis (.unreadableSource source.toString reason))
  match (← attempt (readText source)) with
  | .error (.system cause) => unreadable cause.message
  | .error (.undecodable cause) => unreadable cause.message
  | .error other => throw other
  | .ok text =>
    if looksLikeShim text then
      match (← findBackup source) with
      | some backup => return (← readText backup, backup)
      | none => throw (.analysis (.shimWithoutBackup source.toString source.basename))
    else return (text, source)

/-- The `n`-th name under which a backup can be moved aside. -/
def datedName (source : Path) (now : Moment) (n : Nat) : String :=
  source.basename ++ "_old_" ++ now.stamp ++ (if n = 0 then "" else "_" ++ toString n) ++
    source.suffix

/-- The first path under which nothing is kept yet, among `fuel` of them. -/
def freeDatedPath (source : Path) (now : Moment) (files : Files) (n : Nat) : Nat → Path
  | 0 => source.parent / datedName source now n
  | fuel + 1 =>
    let path := source.parent / datedName source now n
    if files.has path then freeDatedPath source now files (n + 1) fuel else path

/-- Makes sure that the text of a source is in its backup, and gives the path of that. A backup with
another text is moved aside first. -/
def backUp (source : Path) (now : Moment) : Storage Path := do
  let text ← readText source
  if looksLikeShim text then
    match (← findBackup source) with
    | some backup => return backup
    | none => throw (.artifact (.shimWithoutBackup source))
  else
    let plain ← require source source.backup?
    if (← files).hasFile plain then
      if (← readText plain) = text then return plain
      let files ← files
      let aside := freeDatedPath source now files 0 files.entries.length
      change (·.replace plain aside)
    writeText plain text
    return plain

end Storage

end ScriptSplit
