import ScriptSplit.Text.Search

/-!
# Paths

A path is its parts between slashes. Empty parts and single points say nothing and are left out; two
points stay, because what they mean depends on the directory before them.
-/

namespace ScriptSplit

structure Path where
  /-- How many slashes stand in front: none for a relative path. Two are not the same as one. -/
  slashes : Nat
  parts : List String
  deriving DecidableEq, Repr

namespace Path

def ofString (s : String) : Path :=
  let slashes := (s.toList.takeWhile (· == '/')).length
  { slashes := if slashes = 2 then 2 else min slashes 1
    parts := ((Text.splitAny (· == '/') s.toList).map String.ofList).filter fun part =>
      part != "" && part != "." }

def toString (path : Path) : String :=
  if path.slashes = 0 && path.parts.isEmpty then "."
  else String.ofList (List.replicate path.slashes '/') ++ "/".intercalate path.parts

def isAbsolute (path : Path) : Bool :=
  path.slashes != 0

/-- A path seen from a directory. An absolute path does not depend on it. -/
def join (directory path : Path) : Path :=
  if path.isAbsolute then path else { directory with parts := directory.parts ++ path.parts }

instance : HDiv Path String Path where
  hDiv directory path := directory.join (ofString path)

def child (directory : Path) (name : String) : Path :=
  { directory with parts := directory.parts ++ [name] }

/-- The directory that holds the file at a path. The root holds itself. -/
def parent (path : Path) : Path :=
  { path with parts := path.parts.dropLast }

/-- The last part of a path; a bare root has none. -/
def name (path : Path) : String :=
  path.parts.getLast?.getD ""

/-- The path of another file in the same directory. A path without a name has no neighbours. -/
def sibling? (path : Path) (name : String) : Option Path :=
  if path.parts.isEmpty then none else some (path.parent / name)

def extended (path : Path) (ending : String) : Path :=
  { path with parts := path.parts.dropLast ++ [path.name ++ ending] }

/-- Splits a file name before the point of its suffix. A point at either end of the name starts no
suffix. -/
def splitName (name : String) : String × String :=
  match Text.findLast? name.toList ['.'] with
  | some n =>
    if 0 < n && n + 1 < name.length then
      (String.ofList (name.toList.take n), String.ofList (name.toList.drop n))
    else (name, "")
  | none => (name, "")

def stem (path : Path) : String :=
  (splitName path.name).1

def suffix (path : Path) : String :=
  (splitName path.name).2

/-- The parts of a path after all steps up have been taken, one level above another, last part
first. There is nothing above the root. -/
def climb (above : List String) : List String → List String
  | [] => above
  | part :: rest => if part = ".." then climb above.tail rest else climb (part :: above) rest

/-- An absolute path without steps up. -/
def normal (path : Path) : Path :=
  { path with parts := (climb [] path.parts).reverse }

/-- The parts of `target` after those it shares with `base`, below one step up for every other part
of `base`. -/
def partsFrom : (base target : List String) → List String
  | b :: base, t :: target =>
    if b = t then partsFrom base target
    else ".." :: base.map (fun _ => "..") ++ (t :: target)
  | base, target => base.map (fun _ => "..") ++ target

/-- The way from an absolute directory to an absolute path as a module specifier. It starts with one
or two points. -/
def specifierFrom (directory target : Path) : String :=
  let parts := partsFrom directory.normal.parts target.normal.parts
  let way := if parts.isEmpty then "." else "/".intercalate parts
  if "./".toList.isPrefixOf way.toList || "../".toList.isPrefixOf way.toList then way
  else "./" ++ way

end Path

end ScriptSplit
