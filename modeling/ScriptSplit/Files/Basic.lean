import ScriptSplit.Path.Basic
import ScriptSplit.Text.Utf8

/-!
# Files and directories

All files that a run can see. There are no links, so that a step up always leads to the directory that
the path came through.
-/

namespace ScriptSplit

/-- What a file holds: text, or bytes that are no text. -/
inductive Content where
  | text (chars : Text)
  | raw (bytes : List UInt8)
  deriving DecidableEq, Repr

namespace Content

def ofBytes (bytes : List UInt8) : Content :=
  match Utf8.decode bytes with
  | .ok chars => .text chars
  | .error _ => .raw bytes

def decoded : Content → Except Utf8Error Text
  | .text chars => .ok chars
  | .raw bytes => Utf8.decode bytes

end Content

inductive Entry where
  | directory
  | file (content : Content)
  deriving DecidableEq, Repr

/-- The names that lead from the root to a place. -/
abbrev Location := List String

/-- Files and directories by their place. The root is always there. -/
structure Files where
  /-- The directory that relative paths start from. -/
  current : Location := []
  entries : List (Location × Entry) := []
  deriving Repr

inductive OsError.Kind where
  | notFound
  | exists
  | notDirectory
  | isDirectory
  deriving DecidableEq, Repr

structure OsError where
  kind : OsError.Kind
  path : Path
  target : Option Path := none
  deriving DecidableEq, Repr

namespace OsError

def Kind.number : Kind → Nat
  | .notFound => 2
  | .exists => 17
  | .notDirectory => 20
  | .isDirectory => 21

def Kind.reason : Kind → String
  | .notFound => "No such file or directory"
  | .exists => "File exists"
  | .notDirectory => "Not a directory"
  | .isDirectory => "Is a directory"

def message (e : OsError) : String :=
  "[Errno " ++ toString e.kind.number ++ "] " ++ e.kind.reason ++ ": " ++
    Text.quoted e.path.toString ++
    match e.target with
    | some target => " -> " ++ Text.quoted target.toString
    | none => ""

end OsError

namespace Files

def entry? (files : Files) (location : Location) : Option Entry :=
  if location.isEmpty then some .directory else files.entries.lookup location

def remove (files : Files) (location : Location) : Files :=
  { files with entries := files.entries.filter (·.1 != location) }

def removeTree (files : Files) (location : Location) : Files :=
  { files with entries := files.entries.filter fun e => !location.isPrefixOf e.1 }

def put (files : Files) (location : Location) (entry : Entry) : Files :=
  { files with entries := (location, entry) :: (files.remove location).entries }

/-- Goes on from a place. Every step leads out of a directory that is there. -/
def walk (files : Files) (location : Location) : List String → Except OsError.Kind Location
  | [] => .ok location
  | part :: rest =>
    match files.entry? location with
    | some .directory =>
      walk files (if part = ".." then location.dropLast else location ++ [part]) rest
    | some (.file _) => .error .notDirectory
    | none => .error .notFound

/-- The place that a path leads to; there need not be anything. -/
def locate (files : Files) (path : Path) : Except OsError.Kind Location :=
  files.walk (if path.isAbsolute then [] else files.current) path.parts

def at? (files : Files) (path : Path) : Option Entry :=
  match files.locate path with
  | .ok location => files.entry? location
  | .error _ => none

def has (files : Files) (path : Path) : Bool :=
  (files.at? path).isSome

def hasFile (files : Files) (path : Path) : Bool :=
  match files.at? path with
  | some (.file _) => true
  | _ => false

def hasDirectory (files : Files) (path : Path) : Bool :=
  files.at? path == some .directory

def read (files : Files) (path : Path) : Except OsError Content :=
  match files.locate path with
  | .error kind => .error { kind, path }
  | .ok location =>
    match files.entry? location with
    | some (.file content) => .ok content
    | some .directory => .error { kind := .isDirectory, path }
    | none => .error { kind := .notFound, path }

def write (files : Files) (path : Path) (content : Content) : Except OsError Files :=
  match files.locate path with
  | .error kind => .error { kind, path }
  | .ok location =>
    match files.entry? location with
    | some .directory => .error { kind := .isDirectory, path }
    | some (.file _) => .ok (files.put location (.file content))
    | none =>
      match files.entry? location.dropLast with
      | some .directory => .ok (files.put location (.file content))
      | some (.file _) => .error { kind := .notDirectory, path }
      | none => .error { kind := .notFound, path }

def replace (files : Files) (source target : Path) : Except OsError Files :=
  let refuse (kind : OsError.Kind) : Except OsError Files :=
    .error { kind, path := source, target := some target }
  match files.locate source, files.locate target with
  | .error kind, _ => refuse kind
  | _, .error kind => refuse kind
  | .ok origin, .ok target =>
    match files.entry? origin, files.entry? target with
    | none, _ => refuse .notFound
    | some _, some .directory => refuse .isDirectory
    | some entry, _ => .ok ((files.remove origin).put target entry)

def makeDirectory (files : Files) (path : Path) : Except OsError Files :=
  match files.locate path with
  | .error kind => .error { kind, path }
  | .ok location =>
    match files.entry? location with
    | some _ => .error { kind := .exists, path }
    | none => .ok (files.put location .directory)

/-- Makes a directory with all directories on the way to it. What is there already is kept. The
directories that were made stay also where the last one cannot be made. -/
def makeDirectories (files : Files) (path : Path) : Nat → Except OsError Unit × Files
  | 0 => (.error { kind := .notFound, path }, files)
  | depth + 1 =>
    match files.makeDirectory path with
    | .ok files => (.ok (), files)
    | .error e =>
      if e.kind = .notFound && !path.parts.isEmpty then
        match files.makeDirectories path.parent depth with
        | (.error e, files) => (.error e, files)
        | (.ok (), files) =>
          match files.makeDirectory path with
          | .ok files => (.ok (), files)
          | .error e => if files.hasDirectory path then (.ok (), files) else (.error e, files)
      else if files.hasDirectory path then (.ok (), files)
      else (.error e, files)

def namesIn (files : Files) (directory : Path) : List String :=
  match files.locate directory with
  | .ok location =>
    files.entries.filterMap fun e =>
      match e.1.getLast? with
      | some name => if e.1.dropLast == location then some name else none
      | none => none
  | .error _ => []

end Files

end ScriptSplit
