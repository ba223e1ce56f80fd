import ScriptSplit.Json.Writer
import ScriptSplit.Run.Failure

/-!
# Reading and writing files

Tasks that change nothing but files. A text is written beside its file first and then moved over it, so
that the file never holds half of it.
-/

namespace ScriptSplit

/-- A task on files. What it did before it failed stays done. -/
abbrev Storage := EStateM Failure Files

namespace Storage

def change (operation : Files → Except OsError Files) : Storage Unit := fun files =>
  match operation files with
  | .ok files => .ok () files
  | .error cause => .error (.system cause) files

def readText (path : Path) : Storage Text := fun files =>
  match files.read path with
  | .error cause => .error (.system cause) files
  | .ok content =>
    match content.decoded with
    | .ok text => .ok text files
    | .error cause => .error (.undecodable cause) files

def makeDirectories (path : Path) : Storage Unit := fun files =>
  match files.makeDirectories path (path.parts.length + 1) with
  | (.ok (), files) => .ok () files
  | (.error cause, files) => .error (.system cause) files

/-- The name that a text is written under before it is complete. -/
def temporary (path : Path) : Path :=
  path.extended ".tmp"

def writeText (path : Path) (text : Text) : Storage Unit := do
  makeDirectories path.parent
  change (·.write (temporary path) (.text text))
  change (·.replace (temporary path) path)

def writeDocument (path : Path) (doc : Json) : Storage Unit :=
  writeText path (doc.pretty.toList ++ ['\n'])

def copyFile (source target : Path) : Storage Unit := do
  let content ← fun files =>
    match files.read source with
    | .ok content => .ok content files
    | .error cause => .error (.system cause) files
  change (·.write target content)

def files : Storage Files := get

/-- The file beside a path, or the failure that the path has no name. -/
def require (path : Path) (beside : Option Path) : Storage Path :=
  match beside with
  | some found => pure found
  | none => throw (.nameless (.empty path))

def attempt {α : Type} (task : Storage α) : Storage (Except Failure α) := fun files =>
  match task files with
  | .ok a files => .ok (.ok a) files
  | .error cause files => .ok (.error cause) files

end Storage

end ScriptSplit
