import ScriptSplit.Emit.Module

/-!
# Insertion of imports

Import lines go below the first line of a module. Lines that the module already has are not added
again, and the placeholder goes once there are imports.
-/

namespace ScriptSplit

namespace Insertion

/-- Whether a line ends in a line feed or a carriage return. -/
def endsInNewline (line : Text) : Bool :=
  line.getLast?.any Text.isNewline

/-- What ends inserted lines: whatever ends the first line of the module, if that is a carriage return
and a line feed, otherwise a line feed. -/
def newline (lines : List Text) : Text :=
  match lines with
  | first :: _ => if ['\r', '\n'].isSuffixOf first then ['\r', '\n'] else ['\n']
  | [] => ['\n']

def below (newline : Text) (added : List Text) : List Text → List Text
  | [] => added
  | first :: rest => (if endsInNewline first then first else first ++ newline) :: added ++ rest

def dropPlaceholder : List Text → List Text
  | [] => []
  | line :: rest =>
    if line.strip == importsPlaceholder.toList then
      match rest with
      | next :: more => if next.isBlankText then more else next :: more
      | [] => []
    else line :: dropPlaceholder rest

def missing (text : Text) (wanted : List String) : List String :=
  let present := text.lines.map Text.strip
  wanted.filter fun line => !present.contains line.toList

end Insertion

/-- A module with import lines inserted, and how many were missing. A module that misses none stays as
it is. -/
def insertImports (text : Text) (wanted : List String) : Text × Nat :=
  let added := Insertion.missing text wanted
  if added.isEmpty then (text, 0)
  else
    let lines := text.lines
    let newline := Insertion.newline lines
    let lines := Insertion.below newline (added.map fun line => line.toList ++ newline) lines
    ((Insertion.dropPlaceholder lines).flatten, added.length)

end ScriptSplit
