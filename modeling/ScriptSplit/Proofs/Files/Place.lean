import ScriptSplit.Files.Basic
import Mathlib.Data.List.Basic
import Mathlib.Data.Set.Insert

/-!
# Where paths lead

A walk that succeeds ends at a place that depends on the path and the current directory alone. What the
files decide is only whether it succeeds: every place on the way must be a directory.
-/

namespace ScriptSplit

namespace Location

def after (location : Location) (part : String) : Location :=
  if part = ".." then location.dropLast else location ++ [part]

end Location

namespace Path

def start (path : Path) (current : Location) : Location :=
  if path.isAbsolute then [] else current

def place (path : Path) (current : Location) : Location :=
  path.parts.foldl Location.after (path.start current)

@[simp] theorem child_parts (directory : Path) (name : String) :
    (directory.child name).parts = directory.parts ++ [name] := rfl

@[simp] theorem child_parent (directory : Path) (name : String) :
    (directory.child name).parent = directory := by
  simp [parent, child]

@[simp] theorem child_name (directory : Path) (name : String) :
    (directory.child name).name = name := by
  simp [Path.name, child]

theorem child_inj {directory : Path} {a b : String} :
    directory.child a = directory.child b ↔ a = b := by
  simp [child]

theorem parent_child_name {path : Path} (hparts : path.parts ≠ []) :
    path.parent.child path.name = path := by
  have hlast : path.parts.dropLast ++ [path.parts.getLast hparts] = path.parts :=
    List.dropLast_append_getLast hparts
  cases path with
  | mk slashes parts =>
      simp only [child, parent, Path.name, List.getLast?_eq_some_getLast hparts, Option.getD_some]
      rw [hlast]

theorem place_child {directory : Path} {name : String} (hname : name ≠ "..")
    (current : Location) :
    (directory.child name).place current = directory.place current ++ [name] := by
  simp [place, child, start, isAbsolute, Location.after, hname]

/-- The places that a walk along a path comes through, its end among them. -/
def way (path : Path) (current : Location) : Set Location :=
  { location | ∃ parts, parts <+: path.parts ∧
    location = parts.foldl Location.after (path.start current) }

theorem place_mem_way (path : Path) (current : Location) :
    path.place current ∈ path.way current :=
  ⟨path.parts, List.prefix_rfl, rfl⟩

theorem way_parent_subset (path : Path) (current : Location) :
    path.parent.way current ⊆ path.way current := by
  rintro location ⟨parts, hparts, rfl⟩
  exact ⟨parts, hparts.trans (List.dropLast_prefix _), rfl⟩

end Path

namespace Files

variable {files : Files} {path : Path} {location : Location}

theorem walk_append (files : Files) (location : Location) (before after : List String) :
    files.walk location (before ++ after) =
      match files.walk location before with
      | .ok between => files.walk between after
      | .error kind => .error kind := by
  induction before generalizing location with
  | nil => rfl
  | cons part before ih =>
      simp only [List.cons_append, walk]
      split
      · exact ih _
      · rfl
      · rfl

theorem walk_eq_ok {parts : List String} {start : Location}
    (hwalk : files.walk start parts = .ok location) :
    location = parts.foldl Location.after start := by
  induction parts generalizing start with
  | nil => simpa [walk] using hwalk.symm
  | cons part parts ih =>
      simp only [walk] at hwalk
      split at hwalk
      · exact ih hwalk
      · cases hwalk
      · cases hwalk

theorem locate_eq_ok (hlocate : files.locate path = .ok location) :
    location = path.place files.current :=
  walk_eq_ok hlocate

def Standing (files : Files) (path : Path) : Prop :=
  files.at? path = some .directory

theorem hasDirectory_iff_standing : files.hasDirectory path = true ↔ files.Standing path := by
  simp [hasDirectory, Standing]

theorem at?_eq_some {entry : Entry} :
    files.at? path = some entry ↔
      files.locate path = .ok (path.place files.current) ∧
        files.entry? (path.place files.current) = some entry := by
  unfold at?
  cases hlocate : files.locate path with
  | error kind => simp
  | ok location =>
      rw [locate_eq_ok hlocate]
      simp

theorem Standing.locate (h : files.Standing path) :
    files.locate path = .ok (path.place files.current) :=
  (at?_eq_some.1 h).1

theorem Standing.entry? (h : files.Standing path) :
    files.entry? (path.place files.current) = some .directory :=
  (at?_eq_some.1 h).2

theorem Standing.locate_child {directory : Path} (h : files.Standing directory) (name : String) :
    files.locate (directory.child name) = .ok ((directory.child name).place files.current) := by
  have hwalk : files.walk (directory.start files.current) directory.parts =
      .ok (directory.place files.current) := h.locate
  show files.walk (directory.start files.current) (directory.parts ++ [name]) = _
  rw [walk_append, hwalk]
  simp only [walk, h.entry?]
  simp [Path.place, Path.start, Path.child, Path.isAbsolute, Location.after]

theorem Standing.at?_child {directory : Path} (h : files.Standing directory) {name : String}
    (hname : name ≠ "..") :
    files.at? (directory.child name) =
      files.entry? (directory.place files.current ++ [name]) := by
  unfold at?
  rw [h.locate_child]
  simp only
  rw [Path.place_child hname]

theorem standing_of_locate_child {directory : Path} {name : String}
    (h : files.locate (directory.child name) = .ok location) : files.Standing directory := by
  have hwalk : files.walk (directory.start files.current) (directory.parts ++ [name]) =
      .ok location := h
  rw [walk_append] at hwalk
  apply at?_eq_some.2
  cases hbefore : files.walk (directory.start files.current) directory.parts with
  | error kind => rw [hbefore] at hwalk; cases hwalk
  | ok between =>
      have hplace : between = directory.place files.current := walk_eq_ok hbefore
      rw [hbefore] at hwalk
      subst hplace
      refine ⟨hbefore, ?_⟩
      cases hentry : files.entry? (directory.place files.current) with
      | none => simp [walk, hentry] at hwalk
      | some entry =>
          cases entry with
          | directory => rfl
          | file content => simp [walk, hentry] at hwalk

theorem at?_child_eq_some {directory : Path} {name : String} (hname : name ≠ "..")
    {entry : Entry} (h : files.at? (directory.child name) = some entry) :
    files.Standing directory ∧
      files.entry? (directory.place files.current ++ [name]) = some entry := by
  obtain ⟨hlocate, hentry⟩ := at?_eq_some.1 h
  rw [Path.place_child hname] at hentry
  exact ⟨standing_of_locate_child hlocate, hentry⟩

@[simp] theorem entry?_root (files : Files) : files.entry? [] = some .directory := rfl

private theorem lookup_filter (entries : List (Location × Entry)) (keep : Location → Bool) (other : Location) :
    (entries.filter fun entry => keep entry.1).lookup other =
      if keep other then entries.lookup other else none := by
  induction entries with
  | nil => simp
  | cons entry entries ih =>
      obtain ⟨key, value⟩ := entry
      by_cases hkey : keep key = true
      · rw [List.filter_cons_of_pos (by simpa using hkey), List.lookup_cons, List.lookup_cons, ih]
        by_cases hother : other = key
        · subst hother
          simp [hkey]
        · have hne : (other == key) = false := by simpa using hother
          simp only [hne]
      · rw [List.filter_cons_of_neg (by simpa using hkey), ih]
        by_cases hother : other = key
        · simp [hother, hkey]
        · have hne : (other == key) = false := by simpa using hother
          simp [List.lookup_cons, hne]

theorem entry?_remove (files : Files) {location : Location} (hlocation : location ≠ [])
    (other : Location) :
    Files.entry? (files.remove location) other =
      if other = location then none else files.entry? other := by
  unfold entry? remove
  by_cases hother : other = []
  · subst hother
    simp [Ne.symm hlocation]
  · simp only [List.isEmpty_iff, hother, if_false]
    rw [lookup_filter _ (· != location)]
    by_cases heq : other = location <;> simp [heq]

/-- What does not stand below a place stays when everything there goes. -/
theorem entry?_removeTree {other : Location} (h : ¬ location <+: other) :
    Files.entry? (files.removeTree location) other = files.entry? other := by
  have hkeep : (!location.isPrefixOf other) = true := by simpa [← List.isPrefixOf_iff_prefix] using h
  unfold entry? removeTree
  rw [lookup_filter _ (fun key => !location.isPrefixOf key), if_pos hkeep]

theorem entry?_put (files : Files) {location : Location} (hlocation : location ≠ [])
    (entry : Entry) (other : Location) :
    Files.entry? (files.put location entry) other =
      if other = location then some entry else files.entry? other := by
  by_cases hother : other = location
  · subst hother
    simp [put, hlocation, entry?]
  · rw [if_neg hother]
    have hremove := entry?_remove files hlocation other
    rw [if_neg hother] at hremove
    rw [← hremove]
    unfold entry? put
    have hne : (other == location) = false := by simpa using hother
    simp [List.lookup_cons, hne]

@[simp] theorem current_put (files : Files) (location : Location) (entry : Entry) :
    (files.put location entry).current = files.current := rfl

@[simp] theorem current_remove (files : Files) (location : Location) :
    (files.remove location).current = files.current := rfl

/-- A walk depends on what stands at the places that it comes through. -/
theorem walk_congr {other : Files} {parts : List String} {start : Location}
    (h : ∀ front, front <+: parts →
      other.entry? (front.foldl Location.after start) = files.entry? (front.foldl Location.after start)) :
    other.walk start parts = files.walk start parts := by
  induction parts generalizing start with
  | nil => rfl
  | cons part parts ih =>
      have hstart : other.entry? start = files.entry? start := h [] List.nil_prefix
      have hrest := @ih (start.after part) fun front hfront =>
        h (part :: front) (List.cons_prefix_cons.2 ⟨rfl, hfront⟩)
      simp only [walk, hstart]
      split
      · exact hrest
      · rfl
      · rfl

theorem at?_congr {other : Files} (hcurrent : other.current = files.current)
    (h : ∀ between ∈ path.way files.current, other.entry? between = files.entry? between) :
    other.at? path = files.at? path := by
  have hwalk : other.locate path = files.locate path := by
    rw [locate, locate, hcurrent]
    exact walk_congr fun front hfront => h _ ⟨front, hfront, rfl⟩
  unfold at?
  rw [hwalk]
  cases hlocate : files.locate path with
  | error kind => rfl
  | ok location =>
      rw [locate_eq_ok hlocate]
      exact h _ (path.place_mem_way files.current)

/-- A path that does not come through a place leads to the same end when everything there goes. -/
theorem at?_removeTree (h : ∀ between ∈ path.way files.current, ¬ location <+: between) :
    (files.removeTree location).at? path = files.at? path :=
  at?_congr rfl fun between hbetween => entry?_removeTree (h between hbetween)

end Files

end ScriptSplit
