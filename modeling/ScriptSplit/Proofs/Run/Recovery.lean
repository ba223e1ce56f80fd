import Mathlib.Data.List.Find
import ScriptSplit.Proofs.Run.Original
import ScriptSplit.Proofs.Run.Reread
import ScriptSplit.Proofs.Text.Names

/-!
# Recovering an original

A source that a shim has replaced is read from its best backup. The search looks at names of a certain
shape alone, so that it finds the same backup as long as files with such names stay the same.
-/

namespace ScriptSplit

/-! ## Files of a directory -/

namespace Files

variable {files before after : Files} {directory : Path} {name : String} {location : Location}

def contentAt? (files : Files) (location : Location) : Option Content :=
  match files.entry? location with
  | some (.file content) => some content
  | _ => none

theorem contentAt?_eq_some {content : Content} :
    files.contentAt? location = some content ↔ files.entry? location = some (.file content) := by
  unfold contentAt?
  cases files.entry? location with
  | none => simp
  | some entry => cases entry <;> simp

theorem contentAt?_congr (hentry : after.entry? location = before.entry? location) :
    after.contentAt? location = before.contentAt? location := by
  unfold contentAt?
  rw [hentry]

theorem Changes.contentAt?_eq {touched made : Set Location} (h : Changes touched made before after)
    (hlocation : location ∉ touched) : after.contentAt? location = before.contentAt? location := by
  rcases h.kept location hlocation with hsame | ⟨hnone, hdirectory, -⟩
  · exact contentAt?_congr hsame
  · unfold contentAt?
    rw [hnone, hdirectory]

theorem Standing.hasFile_child (h : files.Standing directory) (hname : name ≠ "..") :
    files.hasFile (directory.child name) =
      (files.contentAt? (directory.place files.current ++ [name])).isSome := by
  unfold hasFile contentAt?
  rw [h.at?_child hname]
  cases files.entry? (directory.place files.current ++ [name]) with
  | none => rfl
  | some entry => cases entry <;> rfl

theorem Standing.textAt?_child (h : files.Standing directory) (hname : name ≠ "..") :
    files.textAt? (directory.child name) =
      (files.contentAt? (directory.place files.current ++ [name])).bind (·.decoded.toOption) := by
  unfold textAt? contentAt?
  rw [h.at?_child hname]
  cases files.entry? (directory.place files.current ++ [name]) with
  | none => rfl
  | some entry => cases entry <;> rfl

/-- A step up from a directory leads to one. -/
theorem Standing.hasFile_up (h : files.Standing directory)
    (habsolute : directory.isAbsolute = true) (hparts : ∀ part ∈ directory.parts, part ≠ "..") :
    files.hasFile (directory.child "..") = false := by
  suffices hentry : files.entry? (directory.place files.current).dropLast = some .directory by
    have hat : files.at? (directory.child "..") = some .directory := by
      have hplace : (directory.child "..").place files.current =
          (directory.place files.current).dropLast := by
        simp [Path.place, Path.start, Path.child, Path.isAbsolute, Location.after]
      unfold at?
      rw [h.locate_child, hplace]
      exact hentry
    simp [hasFile, hat]
  rcases List.eq_nil_or_concat directory.parts with hnil | ⟨front, last, hlast⟩
  · simp [Path.place_of_absolute habsolute hnil]
  · have hchild : directory = ({ directory with parts := front } : Path).child last := by
      simp only [Path.child, ← List.concat_eq_append, ← hlast]
    have hup : last ≠ ".." := hparts last (by simp [hlast])
    have hstanding : files.Standing { directory with parts := front } := by
      have hlocate := h.locate
      rw [hchild] at hlocate
      exact standing_of_locate_child hlocate
    rw [hchild, Path.place_child hup, List.dropLast_concat]
    exact hstanding.entry?

theorem mem_namesIn (h : files.Standing directory) :
    name ∈ files.namesIn directory ↔
      ∃ entry, files.entry? (directory.place files.current ++ [name]) = some entry := by
  have hlookup : ∀ entries : List (Location × Entry),
      (∃ entry, entries.lookup (directory.place files.current ++ [name]) = some entry) ↔
        ∃ e ∈ entries, e.1 = directory.place files.current ++ [name] := by
    intro entries
    rw [← Option.isSome_iff_exists, List.lookup_isSome_iff]
    simp only [beq_iff_eq]
    constructor <;> exact fun ⟨e, he, hplace⟩ => ⟨e, he, hplace.symm⟩
  have hentry : files.entry? (directory.place files.current ++ [name]) =
      files.entries.lookup (directory.place files.current ++ [name]) := by
    simp [Files.entry?]
  rw [hentry, hlookup]
  unfold namesIn
  rw [h.locate]
  simp only [List.mem_filterMap]
  constructor
  · rintro ⟨e, he, hname⟩
    cases hlast : e.1.getLast? with
    | none => simp [hlast] at hname
    | some last =>
        simp only [hlast, beq_iff_eq, Option.ite_none_right_eq_some, Option.some.injEq] at hname
        obtain ⟨hparent, rfl⟩ := hname
        obtain ⟨front, hfront⟩ := List.getLast?_eq_some_iff.1 hlast
        rw [hfront, List.dropLast_concat] at hparent
        exact ⟨e, he, by rw [hfront, hparent]⟩
  · rintro ⟨e, he, hplace⟩
    exact ⟨e, he, by simp [hplace]⟩

end Files

/-! ## Finding a backup -/

namespace Path

def IsBackup (source : Path) (name : String) : Prop :=
  name = source.backupName ∨
    matchesPattern source.datedPattern name = true

end Path

namespace Storage

variable {files first again : Files} {source path : Path} {text : Text}

/-- Whether the search for a backup ends at a file. -/
def stops (files : Files) (path : Path) : Bool :=
  files.hasFile path && (files.textAt? path).all (!looksLikeShim ·)

theorem firstUsable_eq (files : Files) (paths : List Path) :
    firstUsable paths files =
      match paths.find? (stops files) with
      | none => .ok none files
      | some path =>
        match readText path files with
        | .ok _ _ => .ok (some path) files
        | .error cause _ => .error cause files := by
  induction paths with
  | nil => rfl
  | cons path paths ih =>
      unfold firstUsable
      rw [bind_eq (show Storage.files files = .ok files files from rfl), List.find?_cons]
      by_cases hfile : files.hasFile path = true
      · rw [if_pos hfile]
        rcases readText_readOnly path files with ⟨text, htext⟩ | ⟨cause, hcause⟩
        · have hat := (readText_eq_ok.1 htext).2
          rw [bind_eq htext]
          by_cases hshim : looksLikeShim text = true
          · have hstops : stops files path = false := by simp [stops, hat, hshim]
            rw [if_pos hshim, hstops, ih]
          · have hstops : stops files path = true := by simp [stops, hfile, hat, hshim]
            rw [if_neg hshim, hstops]
            simp only [htext]
            rfl
        · have hnone : files.textAt? path = none := by
            rw [Option.eq_none_iff_forall_ne_some]
            intro text hat
            rw [readText_eq_ok.2 ⟨rfl, hat⟩] at hcause
            cases hcause
          have hstops : stops files path = true := by simp [stops, hfile, hnone]
          rw [hstops]
          simp only [hcause]
          exact bind_error hcause
      · have hstops : stops files path = false := by simp [stops, hfile]
        rw [if_neg hfile, hstops, ih]

/-- Whether the search for a backup comes upon the same files in two states. -/
structure BackupsAlike (source : Path) (first again : Files) : Prop where
  current : again.current = first.current
  standing : first.Standing source.parent ∧ again.Standing source.parent
  same : ∀ name, source.IsBackup name →
    again.contentAt? (source.parent.place first.current ++ [name]) =
      first.contentAt? (source.parent.place first.current ++ [name])

/-- The backups that can stand for a source, in the order in which they are tried. -/
def candidates (source : Path) (files : Files) : List Path :=
  source.backup?.toList ++ datedBackups source files

theorem findBackup_eq_ite (hparts : source.parts ≠ []) :
    findBackup source files =
      if isNamePattern source.datedPattern then firstUsable (candidates source files) files
      else .error (.nameless .doubleStar) files := by
  cases hplain : source.backup? with
  | none => exact absurd (by simpa [Path.backup?, Path.sibling?] using hplain) hparts
  | some plain =>
      unfold findBackup candidates
      rw [hplain]
      cases hpattern : isNamePattern source.datedPattern with
      | false => rfl
      | true => rfl

theorem findBackup_eq (h : source.Named) (hpattern : isNamePattern source.datedPattern = true)
    (files : Files) :
    findBackup source files = firstUsable (backupPath source :: datedBackups source files) files := by
  rw [findBackup_eq_ite h.nonempty, if_pos hpattern, candidates, h.backup?_eq]
  rfl

theorem isNamePattern_of_findBackup {found : Option Path}
    (hfound : findBackup source files = .ok found files) : isNamePattern source.datedPattern = true := by
  unfold findBackup at hfound
  obtain ⟨plain, -, hrest⟩ := (require_readOnly source source.backup?).bind_eq_ok hfound
  rw [← Bool.not_eq_false]
  intro hpattern
  rw [hpattern] at hrest
  cases hrest

def datedNames (source : Path) (files : Files) : List String :=
  (Names.sort ((files.namesIn source.parent).filter
    (matchesPattern source.datedPattern))).reverse

theorem datedBackups_eq (source : Path) (files : Files) :
    datedBackups source files = (datedNames source files).map source.parent.child := rfl

theorem datedNames_pairwise (source : Path) (files : Files) :
    (datedNames source files).Pairwise fun a b => b ≤ a :=
  Names.sort_reverse_pairwise _

theorem mem_datedNames {name : String} :
    name ∈ datedNames source files ↔ name ∈ files.namesIn source.parent ∧
      matchesPattern source.datedPattern name = true := by
  rw [datedNames, List.mem_reverse, Names.sort, List.mem_mergeSort, List.mem_filter]

theorem stops_up (hstanding : files.Standing source.parent) (hnamed : source.Named)
    (habsolute : source.isAbsolute = true) : stops files (source.parent.child "..") = false := by
  have hparts : ∀ part ∈ source.parent.parts, part ≠ ".." := fun part hpart =>
    (hnamed.parts part (List.dropLast_subset _ hpart)).notUp
  simp [stops, hstanding.hasFile_up habsolute hparts]

/-- The search for a backup ends at a file beside the source. -/
theorem find?_backup (hstanding : files.Standing source.parent) (hnamed : source.Named)
    (habsolute : source.isAbsolute = true)
    (hstop : (backupPath source :: datedBackups source files).find? (stops files) = some path) :
    ∃ name, source.IsBackup name ∧ name ≠ ".." ∧ path = source.parent.child name := by
  have hstops := List.find?_some hstop
  obtain ⟨name, hname, rfl⟩ : ∃ name, source.IsBackup name ∧ path = source.parent.child name := by
    rcases List.mem_cons.1 (List.mem_of_find?_eq_some hstop) with rfl | hdated
    · exact ⟨_, Or.inl rfl, rfl⟩
    · obtain ⟨name, hname, rfl⟩ := List.mem_map.1 hdated
      exact ⟨name, Or.inr (mem_datedNames.1 hname).2, rfl⟩
  refine ⟨name, hname, ?_, rfl⟩
  rintro rfl
  rw [stops_up hstanding hnamed habsolute] at hstops
  cases hstops

theorem findBackup_eq_some {backup : Path} (hstanding : files.Standing source.parent)
    (hnamed : source.Named) (habsolute : source.isAbsolute = true)
    (hfound : findBackup source files = .ok (some backup) files) :
    ∃ name, source.IsBackup name ∧ name ≠ ".." ∧ backup = source.parent.child name := by
  rw [findBackup_eq hnamed (isNamePattern_of_findBackup hfound), firstUsable_eq] at hfound
  cases hstop : (backupPath source :: datedBackups source files).find? (stops files) with
  | none => simp [hstop] at hfound
  | some path =>
      rw [hstop] at hfound
      rcases readText_readOnly path files with ⟨text, hread⟩ | ⟨cause, hread⟩
      · simp only [hread, EStateM.Result.ok.injEq, Option.some.injEq, and_true] at hfound
        exact hfound ▸ find?_backup hstanding hnamed habsolute hstop
      · simp [hread] at hfound

namespace BackupsAlike

variable (h : BackupsAlike source first again) (hnamed : source.Named)
  (habsolute : source.isAbsolute = true)

include h

theorem textAt?_eq {name : String} (hname : source.IsBackup name) (hup : name ≠ "..") :
    again.textAt? (source.parent.child name) = first.textAt? (source.parent.child name) := by
  rw [h.standing.1.textAt?_child hup, h.standing.2.textAt?_child hup, h.current, h.same name hname]

include hnamed habsolute

theorem stops_eq {name : String} (hname : source.IsBackup name) :
    stops again (source.parent.child name) = stops first (source.parent.child name) := by
  by_cases hup : name = ".."
  · subst hup
    rw [stops_up h.standing.1 hnamed habsolute, stops_up h.standing.2 hnamed habsolute]
  · unfold stops
    rw [h.textAt?_eq hname hup, h.standing.1.hasFile_child hup, h.standing.2.hasFile_child hup,
      h.current, h.same name hname]

theorem find?_eq :
    (backupPath source :: datedBackups source again).find? (stops again) =
      (backupPath source :: datedBackups source first).find? (stops first) := by
  have hplain := h.stops_eq hnamed habsolute (Or.inl rfl)
  have hdated : (datedBackups source again).find? (stops again) =
      (datedBackups source first).find? (stops first) := by
    rw [datedBackups_eq, datedBackups_eq, List.find?_map, List.find?_map]
    congr 1
    have hsame : (datedNames source again).find? (stops again ∘ source.parent.child) =
        (datedNames source again).find? (stops first ∘ source.parent.child) :=
      List.find?_congr fun name hname =>
        h.stops_eq hnamed habsolute (Or.inr (mem_datedNames.1 hname).2)
    rw [hsame]
    apply Names.find?_eq_of_descending (datedNames_pairwise _ _) (datedNames_pairwise _ _)
    intro name hstops
    rw [mem_datedNames, mem_datedNames]
    apply and_congr_left
    intro hname
    have hup : name ≠ ".." := by
      rintro rfl
      rw [Function.comp_apply, stops_up h.standing.1 hnamed habsolute] at hstops
      cases hstops
    have hfile : first.hasFile (source.parent.child name) = true := by
      simp only [Function.comp_apply, stops, Bool.and_eq_true] at hstops
      exact hstops.1
    rw [h.standing.1.hasFile_child hup, Option.isSome_iff_exists] at hfile
    obtain ⟨content, hcontent⟩ := hfile
    have hagain := h.same name (Or.inr hname)
    rw [hcontent, Files.contentAt?_eq_some] at hagain
    rw [Files.contentAt?_eq_some] at hcontent
    rw [Files.mem_namesIn h.standing.1, Files.mem_namesIn h.standing.2, h.current]
    exact iff_of_true ⟨_, hagain⟩ ⟨_, hcontent⟩
  rw [List.find?_cons, List.find?_cons, hdated, show backupPath source =
    source.parent.child source.backupName from rfl, hplain]

/-- The same backup is found, with the same text. -/
theorem findBackup_again {backup : Path} (hfound : findBackup source first = .ok (some backup) first) :
    findBackup source again = .ok (some backup) again ∧
      again.textAt? backup = first.textAt? backup := by
  have hfind := h.find?_eq hnamed habsolute
  have hpattern := isNamePattern_of_findBackup hfound
  rw [findBackup_eq hnamed hpattern, firstUsable_eq] at hfound
  rw [findBackup_eq hnamed hpattern, firstUsable_eq, hfind]
  cases hstop : (backupPath source :: datedBackups source first).find? (stops first) with
  | none => simp [hstop] at hfound
  | some path =>
      obtain ⟨name, hname, hup, rfl⟩ := find?_backup h.standing.1 hnamed habsolute hstop
      have htext := h.textAt?_eq hname hup
      rw [hstop] at hfound
      rcases readText_readOnly (source.parent.child name) first with ⟨text, hread⟩ | ⟨cause, hread⟩
      · simp only [hread, EStateM.Result.ok.injEq, Option.some.injEq, and_true] at hfound
        subst hfound
        have hat := (readText_eq_ok.1 hread).2
        have hagain := readText_eq_ok.2 ⟨rfl, htext.trans hat⟩
        simp only [hagain, true_and]
        exact htext
      · simp [hread] at hfound

end BackupsAlike

end Storage

end ScriptSplit
