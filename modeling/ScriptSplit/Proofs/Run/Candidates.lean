import ScriptSplit.Proofs.Run.Recovery

/-!
# What stands behind a shim

The text of a source that a shim has replaced is that of the first backup that is not passed over. A backup is
passed over if there is no file or if it is a shim itself. One whose bytes are no text is not passed over, but stops
the search.
-/

namespace ScriptSplit.Storage

variable {files : Files} {source path : Path} {text : Text}

/-! ## Candidates -/

/-- Whether a backup is passed over: no file is there, or a shim. -/
def PassedOver (files : Files) (path : Path) : Prop :=
  files.hasFile path = false ∨ HoldsShim files path

def FirstKept (files : Files) (paths : List Path) (path : Path) : Prop :=
  ∃ before rest, paths = before ++ path :: rest ∧
    (∀ p ∈ before, PassedOver files p) ∧ ¬ PassedOver files path

theorem stops_eq_false_iff : stops files path = false ↔ PassedOver files path := by
  unfold stops PassedOver HoldsShim
  cases files.hasFile path <;> cases files.textAt? path <;> simp

theorem firstKept_iff {paths : List Path} :
    FirstKept files paths path ↔ paths.find? (stops files) = some path := by
  simp only [List.find?_eq_some_iff_append, FirstKept, ← stops_eq_false_iff, Bool.not_eq_false,
    Bool.not_eq_true', ← exists_and_left, and_left_comm, and_comm]

/-- A backup that is not passed over is a file. If it is a text, it is no shim. -/
theorem FirstKept.kept {paths : List Path} (h : FirstKept files paths path) :
    files.hasFile path = true ∧ ∀ text, files.textAt? path = some text → looksLikeShim text = false := by
  obtain ⟨-, -, -, -, hkept⟩ := h
  rw [PassedOver, not_or, Bool.not_eq_false] at hkept
  refine ⟨hkept.1, fun text htext => ?_⟩
  rw [← Bool.not_eq_true]
  exact fun hshim => hkept.2 ⟨text, htext, hshim⟩

theorem text_or_bytes (hfile : files.hasFile path = true) :
    (∃ text, files.textAt? path = some text) ∨
      ∃ content reason, files.at? path = some (.file content) ∧ content.decoded = .error reason := by
  obtain ⟨content, hat⟩ := Files.exists_of_hasFile hfile
  cases hdecoded : content.decoded with
  | ok text =>
      left
      refine ⟨text, ?_⟩
      simp only [Files.textAt?, hat, hdecoded]
      rfl
  | error reason => exact Or.inr ⟨content, reason, hat, hdecoded⟩

/-! ## The search -/

theorem findBackup_of_parts (hparts : source.parts = []) :
    findBackup source files = .error (.nameless (.empty source)) files := by
  rw [findBackup, Path.backup?, Path.sibling?, hparts]
  rfl

theorem firstUsable_of_passedOver {paths : List Path} (h : ∀ path ∈ paths, PassedOver files path) :
    firstUsable paths files = .ok none files := by
  have hnone : paths.find? (stops files) = none := by
    rw [List.find?_eq_none]
    exact fun path hpath => by simp [stops_eq_false_iff.2 (h path hpath)]
  rw [firstUsable_eq, hnone]

theorem FirstKept.firstUsable {paths : List Path} (h : FirstKept files paths path) :
    Storage.firstUsable paths files =
      match readText path files with
      | .ok _ _ => .ok (some path) files
      | .error cause _ => .error cause files := by
  have hsearch := firstUsable_eq files paths
  rw [firstKept_iff.1 h] at hsearch
  exact hsearch

theorem passedOver_or_firstKept (files : Files) (paths : List Path) :
    (∀ path ∈ paths, PassedOver files path) ∨ ∃ path, FirstKept files paths path := by
  cases hfind : paths.find? (stops files) with
  | none =>
      left
      intro path hpath
      rw [← stops_eq_false_iff]
      simpa using List.find?_eq_none.1 hfind path hpath
  | some path => exact Or.inr ⟨path, firstKept_iff.2 hfind⟩

/-! ## The original -/

/-- A source with a name that holds a shim. -/
structure Replaced (source : Path) (files : Files) : Prop where
  named : source.parts ≠ []
  shim : HoldsShim files source

/-- Whether a text in a file is the original of a source: it is no shim, and it is the source's own text or, where the
source is a shim, that of the first backup that is not passed over. -/
structure IsOriginal (source : Path) (files : Files) (text : Text) (path : Path) : Prop where
  held : files.textAt? path = some text
  plain : looksLikeShim text = false
  origin : path = source ∨ Replaced source files ∧ isNamePattern source.datedPattern = true ∧
    FirstKept files (candidates source files) path

inductive NoOriginal (source : Path) (files : Files) : Failure → Prop
  | unreadable {reason : Failure} (hread : readText source files = .error reason files) :
      NoOriginal source files (.analysis (.unreadableSource source.toString reason.message))
  | nameless (hparts : source.parts = []) (hshim : HoldsShim files source) :
      NoOriginal source files (.nameless (.empty source))
  | stars (hreplaced : Replaced source files) (hpattern : isNamePattern source.datedPattern = false) :
      NoOriginal source files (.nameless .doubleStar)
  | bytes {path : Path} {content : Content} {reason : Utf8Error} (hreplaced : Replaced source files)
      (hpattern : isNamePattern source.datedPattern = true)
      (hfirst : FirstKept files (candidates source files) path)
      (hat : files.at? path = some (.file content)) (hdecoded : content.decoded = .error reason) :
      NoOriginal source files (.undecodable reason)
  | noBackup (hreplaced : Replaced source files) (hpattern : isNamePattern source.datedPattern = true)
      (hpassed : ∀ path ∈ candidates source files, PassedOver files path) :
      NoOriginal source files (.analysis (.shimWithoutBackup source.toString source.basename))

theorem IsOriginal.readOriginal (h : IsOriginal source files text path) :
    Storage.readOriginal source files = .ok (text, path) files := by
  rcases h.origin with rfl | ⟨hreplaced, hpattern, hfirst⟩
  · exact readOriginal_of_plain h.held h.plain
  · apply readOriginal_of_findBackup_eq_some hreplaced.shim _ h.held
    rw [findBackup_eq_ite hreplaced.named, if_pos hpattern, hfirst.firstUsable, readText_eq_ok.2 ⟨rfl, h.held⟩]

theorem NoOriginal.readOriginal {cause : Failure} (h : NoOriginal source files cause) :
    Storage.readOriginal source files = .error cause files := by
  cases h with
  | unreadable hread => exact readOriginal_of_error hread
  | nameless hparts hshim => exact readOriginal_of_findBackup_eq_error hshim (findBackup_of_parts hparts)
  | stars hreplaced hpattern =>
      apply readOriginal_of_findBackup_eq_error hreplaced.shim
      rw [findBackup_eq_ite hreplaced.named, hpattern]
      rfl
  | bytes hreplaced hpattern hfirst hat hdecoded =>
      apply readOriginal_of_findBackup_eq_error hreplaced.shim
      rw [findBackup_eq_ite hreplaced.named, if_pos hpattern, hfirst.firstUsable,
        readText_eq_error.2 ⟨rfl, Or.inr ⟨_, _, hat, hdecoded, rfl⟩⟩]
  | noBackup hreplaced hpattern hpassed =>
      apply readOriginal_of_findBackup_eq_none hreplaced.shim
      rw [findBackup_eq_ite hreplaced.named, if_pos hpattern, firstUsable_of_passedOver hpassed]

/-- Where the backups of a source are looked through, one of them is the original or there is none. -/
theorem Replaced.original_or_not (h : Replaced source files)
    (hpattern : isNamePattern source.datedPattern = true) :
    (∃ text path, IsOriginal source files text path) ∨ ∃ cause, NoOriginal source files cause := by
  rcases passedOver_or_firstKept files (candidates source files) with hpassed | ⟨path, hfirst⟩
  · exact Or.inr ⟨_, .noBackup h hpattern hpassed⟩
  · rcases text_or_bytes hfirst.kept.1 with ⟨text, htext⟩ | ⟨content, reason, hat, hdecoded⟩
    · exact Or.inl ⟨text, path, htext, hfirst.kept.2 text htext, Or.inr ⟨h, hpattern, hfirst⟩⟩
    · exact Or.inr ⟨_, .bytes h hpattern hfirst hat hdecoded⟩

theorem original_or_not (source : Path) (files : Files) :
    (∃ text path, IsOriginal source files text path) ∨ ∃ cause, NoOriginal source files cause := by
  rcases readText_readOnly source files with ⟨text, hread⟩ | ⟨reason, hreason⟩
  · have htext := (readText_eq_ok.1 hread).2
    cases hshim : looksLikeShim text with
    | false => exact Or.inl ⟨text, source, htext, hshim, Or.inl rfl⟩
    | true =>
        by_cases hparts : source.parts = []
        · exact Or.inr ⟨_, .nameless hparts ⟨text, htext, hshim⟩⟩
        · have hreplaced : Replaced source files := ⟨hparts, text, htext, hshim⟩
          cases hpattern : isNamePattern source.datedPattern with
          | false => exact Or.inr ⟨_, .stars hreplaced hpattern⟩
          | true => exact hreplaced.original_or_not hpattern
  · exact Or.inr ⟨_, .unreadable hreason⟩

/-- Whatever stands around a source, looking for its original changes nothing, and gives it together with the
file that holds it. Where there is none, it fails for one of the reasons above, and for no other. -/
theorem readOriginal_outcome (source : Path) (files : Files) :
    (match Storage.readOriginal source files with
      | .ok (text, path) after => after = files ∧ IsOriginal source files text path
      | .error cause after => after = files ∧ NoOriginal source files cause) ∧
    (∀ text path, IsOriginal source files text path →
      Storage.readOriginal source files = .ok (text, path) files) ∧
    ∀ cause, NoOriginal source files cause → Storage.readOriginal source files = .error cause files := by
  refine ⟨?_, fun text path => IsOriginal.readOriginal, fun cause => NoOriginal.readOriginal⟩
  rcases original_or_not source files with ⟨text, path, h⟩ | ⟨cause, h⟩
  · rw [h.readOriginal]
    exact ⟨rfl, h⟩
  · rw [h.readOriginal]
    exact ⟨rfl, h⟩

end ScriptSplit.Storage
