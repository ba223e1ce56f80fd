import ScriptSplit.Proofs.Path.Pattern
import ScriptSplit.Proofs.Run.Again
import ScriptSplit.Proofs.Run.Backup
import ScriptSplit.Proofs.Stage.Link

/-!
# Settled sources

A run leaves its source so that the next one reads the same text: from the source itself or, where the shim
has taken its place, from the backup. Backing the source up and writing the shim then come to the same end
again, and no place holds anything else afterwards.
-/

namespace ScriptSplit

variable {source backup path : Path} {text own : Text} {current : Location} {now : Moment}

namespace Storage

variable {files first again after : Files} {touched made : Set Location}

/-! ## What a source is read from -/

def savedPlaces (source : Path) (current : Location) : Set Location :=
  { location | ∃ name, (source.Underscored name ∨ source.IsBackup name) ∧
    location = source.parent.place current ++ [name] }

/-- The places that writing a source touches and those of its backups. -/
def heldPlaces (source : Path) (current : Location) : Set Location :=
  touchedBy source.parent source.name current ∪ savedPlaces source current

theorem backupPlaces_subset_saved (source : Path) (current : Location) :
    backupPlaces source current ⊆ savedPlaces source current := by
  rintro location ⟨name, hname, rfl⟩
  exact ⟨name, Or.inl hname, rfl⟩

theorem beside_not_saved (hnamed : source.Named) (hapart : source.BackupsApart) {name : String}
    (hname : name ∈ source.namesBeside) :
    source.parent.place current ++ [name] ∉ savedPlaces source current := by
  rintro ⟨other, hother, heq⟩
  obtain rfl : name = other := by simpa using heq
  have hdotted := Path.dotted_of_mem_namesBeside hnamed.name_ne_empty hname
  rcases hother with hunderscored | rfl | hmatches
  · exact hdotted.ne hunderscored rfl
  · exact hdotted.ne (Path.underscored_backupName source) rfl
  · have hnot := hapart name hname
    rw [hmatches] at hnot
    cases hnot

theorem own_not_saved (hnamed : source.Named) (hapart : source.BackupsApart) :
    ∀ location ∈ touchedBy source.parent source.name current,
      location ∉ savedPlaces source current := by
  rintro location (rfl | rfl)
  · exact beside_not_saved hnamed hapart (by simp [Path.namesBeside])
  · exact beside_not_saved hnamed hapart (by simp [Path.namesBeside])

/-- Whether two states of the files hold the same source and the same backups. -/
structure SourceAlike (source : Path) (first again : Files) : Prop
    extends BackupsAlike source first again where
  text : again.textAt? source = first.textAt? source

theorem backupsAlike_of_changes (hstanding : first.Standing source.parent)
    (hchanges : Files.Changes touched made first again)
    (hsaved : ∀ location ∈ savedPlaces source first.current, location ∉ touched) :
    BackupsAlike source first again where
  current := hchanges.current
  standing := ⟨hstanding, hchanges.standing hstanding⟩
  same name hname := hchanges.contentAt?_eq (hsaved _ ⟨name, Or.inr hname, rfl⟩)

theorem sourceAlike_of_changes (hnamed : source.Named) (hstanding : first.Standing source.parent)
    (hchanges : Files.Changes touched made first again)
    (hheld : ∀ location ∈ heldPlaces source first.current, location ∉ touched) :
    SourceAlike source first again where
  toBackupsAlike := backupsAlike_of_changes hstanding hchanges
    fun location hlocation => hheld location (Or.inr hlocation)
  text := by
    have hup := hnamed.isName.notUp
    have hcontent := hchanges.contentAt?_eq (hheld _ (Or.inl (Or.inl rfl)))
    have hfirst := hstanding.textAt?_child hup
    have hagain := (hchanges.standing hstanding).textAt?_child hup
    rw [hnamed.parent_child] at hfirst hagain
    rw [hagain, hfirst, hchanges.current, hcontent]

theorem SourceAlike.readOriginal (h : SourceAlike source first again) (hnamed : source.Named)
    (habsolute : source.isAbsolute = true)
    (hrun : readOriginal source first = .ok (text, path) first) :
    readOriginal source again = .ok (text, path) again := by
  obtain ⟨own, hown, hcases⟩ := readOriginal_eq_ok.1 hrun
  refine readOriginal_eq_ok.2 ⟨own, h.text.trans hown, ?_⟩
  rcases hcases with hplain | ⟨hshim, hfound, hsaved⟩
  · exact Or.inl hplain
  · obtain ⟨hagain, hsame⟩ := h.toBackupsAlike.findBackup_again hnamed habsolute hfound
    exact Or.inr ⟨hshim, hagain, hsame.trans hsaved⟩

theorem Recoverable.alike (h : Recoverable source backup text first)
    (halike : BackupsAlike source first again) (hnamed : source.Named)
    (habsolute : source.isAbsolute = true)
    (hown : ∃ own, again.textAt? source = some own ∧
      (looksLikeShim own = true ∨ first.textAt? source = some own)) :
    Recoverable source backup text again := by
  obtain ⟨hfound, hsame⟩ := halike.findBackup_again hnamed habsolute h.found
  refine ⟨?_, hfound, hsame.trans h.saved⟩
  obtain ⟨own, hagain, hshim | hfirst⟩ := hown
  · exact ⟨own, hagain, Or.inl hshim⟩
  · obtain ⟨own', hown', hcases⟩ := h.own
    rw [hfirst, Option.some.injEq] at hown'
    subst hown'
    exact ⟨own, hagain, hcases⟩

/-! ## Backing up -/

/-- What backing up a source that can be read leads to. -/
theorem backUp_settles (hnamed : source.Named) (hpattern : isNamePattern source.datedPattern = true)
    (hstanding : files.Standing source.parent)
    (hrun : readOriginal source files = .ok (text, path) files) (now : Moment) :
    match backUp source now files with
    | .ok backup after => Files.Changes (backupPlaces source files.current) ∅ files after ∧
        Recoverable source backup text after
    | .error _ after => Files.Changes (backupPlaces source files.current) ∅ files after ∧
        Blocked source text after ∧ after.textAt? source = some text ∧
          looksLikeShim text = false := by
  obtain ⟨own, hown, ⟨hplain, rfl, rfl⟩ | ⟨hshim, hfound, hsaved⟩⟩ := readOriginal_eq_ok.1 hrun
  · have houtcome := backUp_outcome hnamed hstanding hown hplain now
    have hkept : ∀ after, Files.Changes (backupPlaces path files.current) ∅ files after →
        after.textAt? path = some text := by
      intro after hchanges
      refine hchanges.textAt?_eq_some ?_ hown
      rintro ⟨name, hname, heq⟩
      exact hnamed.place_neighbour_ne
        ((Path.dotted_name hnamed.name_ne_empty).ne hname) heq
    cases hbackUp : backUp path now files with
    | ok backup after =>
        rw [hbackUp] at houtcome
        obtain ⟨rfl, hchanges, hsaved⟩ := houtcome
        exact ⟨hchanges, ⟨text, hkept after hchanges, Or.inr ⟨rfl, hplain, rfl⟩⟩,
          findBackup_plain hnamed hpattern hsaved hplain, hsaved⟩
    | error cause after =>
        rw [hbackUp] at houtcome
        exact ⟨houtcome.1, houtcome.2, hkept after houtcome.1, hplain⟩
  · have hbackUp : backUp source now files = .ok path files := by
      rw [backUp_eq hnamed hown, if_pos hshim, bind_eq hfound]
      rfl
    rw [hbackUp]
    exact ⟨.refl .., ⟨own, hown, Or.inl hshim⟩, hfound, hsaved⟩

/-- What stopped a backup stops it again, and no place holds anything else afterwards. -/
theorem Blocked.backUp (h : Blocked source text files) (hnamed : source.Named)
    (hstanding : files.Standing source.parent) (hown : files.textAt? source = some text)
    (hplain : looksLikeShim text = false) (now : Moment) :
    ∃ cause after, backUp source now files = .error cause after ∧
      after.current = files.current ∧ ∀ location, after.entry? location = files.entry? location := by
  have hup := hnamed.isName_backupName.notUp
  have hhas := hstanding.hasFile_child hup
  have hbackUp := backUp_eq hnamed hown now
  rw [if_neg (by simp [hplain]), bind_eq (show Storage.files files = .ok files files from rfl)]
    at hbackUp
  have hwrite := writeText_standing hstanding hup text
  simp only [show source.parent.place files.current ++ [Path.temporaryName source.backupName] =
    asideOf source.parent source.backupName files.current from rfl] at hwrite
  have herror : ∀ {cause : Failure} {after : Files},
      files.hasFile (backupPath source) = false →
        writeText (backupPath source) text files = .error cause after →
          Storage.backUp source now files = .error cause after := by
    intro cause after hnone hrun
    rw [hbackUp, if_neg (by simp [hnone])]
    exact bind_error hrun
  cases h with
  | @unreadable content cause hfile hdecoded =>
      have hsome : files.hasFile (backupPath source) = true := by
        rw [backupPath, hhas, Files.contentAt?_eq_some.2 hfile]
        rfl
      have hread := readText_child hstanding hup
      rw [hfile] at hread
      simp only [hdecoded] at hread
      have hfailed : readText (backupPath source) files = .error (.undecodable cause) files := hread
      exact ⟨_, files, by rw [hbackUp, if_pos hsome, bind_error hfailed], rfl, fun _ => rfl⟩
  | beside hnone haside =>
      rw [if_pos haside] at hwrite
      exact ⟨_, files, herror (by rw [backupPath, hhas, hnone]; rfl) hwrite, rfl, fun _ => rfl⟩
  | covered hdirectory haside =>
      have hnone : files.hasFile (backupPath source) = false := by
        rw [backupPath, hhas]
        simp [Files.contentAt?, hdirectory]
      rw [if_neg (by simp [haside]), if_pos hdirectory] at hwrite
      refine ⟨_, _, herror hnone hwrite, rfl, fun location => ?_⟩
      -- what was left there is written there once more
      have hne : asideOf source.parent source.backupName files.current ≠ [] := by simp [asideOf]
      rw [Files.entry?_put files hne]
      split
      · next heq => rw [heq, haside]
      · rfl

/-- Only a directory in the place of the temporary file keeps a source from being written. -/
theorem writeText_refused (hnamed : source.Named) (hstanding : files.Standing source.parent)
    (hown : files.textAt? source = some own) {cause : Failure}
    (hrun : writeText source text files = .error cause after) :
    files.entry? (asideOf source.parent source.name files.current) = some .directory ∧
      after = files := by
  have hwrite := writeText_standing hstanding hnamed.isName.notUp text
  rw [hnamed.parent_child, hrun] at hwrite
  simp only [show source.parent.place files.current ++ [Path.temporaryName source.name] =
    asideOf source.parent source.name files.current from rfl] at hwrite
  by_cases haside : files.entry? (asideOf source.parent source.name files.current) =
      some .directory
  · rw [if_pos haside] at hwrite
    cases hwrite
    exact ⟨haside, rfl⟩
  · obtain ⟨content, hat, -⟩ := Files.exists_of_textAt? hown
    rw [← hnamed.parent_child] at hat
    have hfile := (Files.at?_child_eq_some hnamed.isName.notUp hat).2
    rw [if_neg haside, if_neg (by simp [hfile])] at hwrite
    cases hwrite

end Storage

namespace Run

open Storage (backupPath backupPlaces heldPlaces savedPlaces)

variable {surroundings other : Surroundings} {s s' : RunState}

/-- How a source stands once a run has tried to back it up: the backup holds its text, or the source is as
it was and no backup can be made. -/
def Secured (surroundings : Surroundings) (source : Path) (text : Text) (files : Files) :
    Option Path → Prop
  | some backup => surroundings.faults.lookup .backUp = none ∧
      Storage.Recoverable source backup text files
  | none => (∃ path, Storage.readOriginal source files = .ok (text, path) files) ∧
      ((surroundings.faults.lookup .backUp).isSome = true ∨
        Storage.Blocked source text files ∧ files.textAt? source = some text ∧
          looksLikeShim text = false)

def backUpStep (source : Path) (now : Moment) : Run Path :=
  step .backUp (storing (Storage.backUp source now))

theorem step_fault {α : Type} {kind : LinkStep} {reason : String} (task : Run α)
    (hfault : surroundings.faults.lookup kind = some reason) (s : RunState) :
    step kind task surroundings s = .error (.injected reason) s := by
  simp only [step, bind_read_eq, hfault]
  rfl

theorem step_eq {α : Type} {kind : LinkStep} (task : Run α)
    (hfault : surroundings.faults.lookup kind = none) (s : RunState) :
    step kind task surroundings s = task surroundings s := by
  simp only [step, bind_read_eq, hfault]

theorem step_eq_ok {α : Type} {kind : LinkStep} {task : Run α} {a : α} {s s' : RunState} :
    step kind task surroundings s = .ok a s' ↔
      surroundings.faults.lookup kind = none ∧ task surroundings s = .ok a s' := by
  cases hfault : surroundings.faults.lookup kind with
  | some reason => simp [step_fault task hfault]
  | none => simp [step_eq task hfault]

theorem Secured.readOriginal {backup : Option Path} {files : Files}
    (h : Secured surroundings source text files backup) :
    ∃ path, Storage.readOriginal source files = .ok (text, path) files := by
  cases backup with
  | some backup => exact h.2.readOriginal
  | none => exact h.1

theorem Secured.changes {backup : Option Path} {first again : Files} {touched made : Set Location}
    (h : Secured surroundings source text first backup) (hnamed : source.Named)
    (habsolute : source.isAbsolute = true) (hstanding : first.Standing source.parent)
    (hchanges : Files.Changes touched made first again)
    (hheld : ∀ location ∈ heldPlaces source first.current, location ∉ touched) :
    Secured surroundings source text again backup := by
  have halike := Storage.sourceAlike_of_changes hnamed hstanding hchanges hheld
  cases backup with
  | some backup =>
      obtain ⟨own, hown, -⟩ := h.2.own
      exact ⟨h.1, h.2.alike halike.toBackupsAlike hnamed habsolute
        ⟨own, halike.text.trans hown, Or.inr hown⟩⟩
  | none =>
      obtain ⟨⟨path, hrun⟩, hcases⟩ := h
      refine ⟨⟨path, halike.readOriginal hnamed habsolute hrun⟩, hcases.imp_right ?_⟩
      rintro ⟨hblocked, hown, hplain⟩
      refine ⟨hblocked.changes hchanges ?_, halike.text.trans hown, hplain⟩
      have hunderscored := Path.underscored_backupName source
      rintro location (rfl | rfl)
      · exact hheld _ (Or.inr ⟨_, Or.inl hunderscored, rfl⟩)
      · exact hheld _ (Or.inr ⟨_, Or.inl hunderscored.temporary, rfl⟩)

/-- A run that tries to back its source up secures it. -/
theorem secured_of_backUp {outcome : Option Path × List Warning} (hnamed : source.Named)
    (hpattern : isNamePattern source.datedPattern = true) (hstanding : s.files.Standing source.parent)
    (hread : Storage.readOriginal source s.files = .ok (text, path) s.files)
    (hrun : bestEffort "backup" (backUpStep source now) surroundings s = .ok outcome s') :
    Files.Changes (backupPlaces source s.files.current) ∅ s.files s'.files ∧
      Secured surroundings source text s'.files outcome.1 := by
  cases hfault : surroundings.faults.lookup .backUp with
  | some reason =>
      obtain ⟨log, hbest⟩ := bestEffort_error "backup" (step_fault _ hfault s)
      rw [backUpStep, hbest] at hrun
      cases hrun
      exact ⟨.refl .., ⟨path, hread⟩, Or.inl (by simp [hfault])⟩
  | none =>
      have houtcome := Storage.backUp_settles hnamed hpattern hstanding hread now
      have hstep := step_eq (storing (Storage.backUp source now)) hfault s
      cases hbackUp : Storage.backUp source now s.files with
      | ok backup after =>
          rw [hbackUp] at houtcome
          rw [storing_eq hbackUp] at hstep
          rw [backUpStep, bestEffort_ok hstep] at hrun
          cases hrun
          exact ⟨houtcome.1, hfault, houtcome.2⟩
      | error cause after =>
          rw [hbackUp] at houtcome
          obtain ⟨hchanges, hblocked, hown, hplain⟩ := houtcome
          simp only [storing, hbackUp] at hstep
          obtain ⟨log, hbest⟩ := bestEffort_error "backup" hstep
          rw [backUpStep, hbest] at hrun
          cases hrun
          exact ⟨hchanges, ⟨source, Storage.readOriginal_eq_ok.2 ⟨text, hown,
            Or.inl ⟨hplain, rfl, rfl⟩⟩⟩, Or.inr ⟨hblocked, hown, hplain⟩⟩

/-- A secured source is backed up again with the same outcome, and no place holds anything else
afterwards. -/
theorem Secured.backUp {backup : Option Path}
    (h : Secured surroundings source text s.files backup)
    (hfaults : other.faults = surroundings.faults) (hnamed : source.Named)
    (hstanding : s.files.Standing source.parent) (now : Moment) :
    ∃ warnings s', bestEffort "backup" (backUpStep source now) other s = .ok (backup, warnings) s' ∧
      s'.files.current = s.files.current ∧
        ∀ location, s'.files.entry? location = s.files.entry? location := by
  cases backup with
  | some backup =>
      obtain ⟨hfault, hrecoverable⟩ := h
      have hstep := step_eq (storing (Storage.backUp source now)) (hfaults ▸ hfault) s
      rw [storing_eq (hrecoverable.backUp hnamed now)] at hstep
      exact ⟨_, _, bestEffort_ok hstep, rfl, fun _ => rfl⟩
  | none =>
      cases hfault : surroundings.faults.lookup .backUp with
      | some reason =>
          obtain ⟨log, hbest⟩ := bestEffort_error "backup"
            (step_fault (storing (Storage.backUp source now)) (hfaults ▸ hfault) s)
          exact ⟨_, _, hbest, rfl, fun _ => rfl⟩
      | none =>
          obtain ⟨-, hnone | ⟨hblocked, hown, hplain⟩⟩ := h
          · simp [hfault] at hnone
          · obtain ⟨cause, after, hrun, hcurrent, hsame⟩ :=
              hblocked.backUp hnamed hstanding hown hplain now
            have hstep := step_eq (storing (Storage.backUp source now)) (hfaults ▸ hfault) s
            simp only [storing, hrun] at hstep
            obtain ⟨log, hbest⟩ := bestEffort_error "backup" hstep
            exact ⟨_, _, hbest, hcurrent, hsame⟩

/-! ## The shim -/

namespace Linking

variable {l : Linking}

/-- How a source stands once a run has tried to write the shim: the shim is there, or the source is no shim
and there is no room beside it to write one. -/
inductive Shimmed (l : Linking) (surroundings : Surroundings) (files : Files) : Bool → Prop
  | written (hwrite : surroundings.faults.lookup .writeShim = none)
    (hrender : surroundings.faults.lookup .renderShim = none)
    (htext : files.textAt? l.source = some l.shimText) : Shimmed l surroundings files true
  | failing (hfault : (surroundings.faults.lookup .writeShim).isSome = true ∨
      (surroundings.faults.lookup .renderShim).isSome = true) : Shimmed l surroundings files false
  | crowded {own : Text} (hwrite : surroundings.faults.lookup .writeShim = none)
    (hrender : surroundings.faults.lookup .renderShim = none)
    (hown : files.textAt? l.source = some own) (hne : own ≠ l.shimText)
    (haside : files.entry? (Storage.asideOf l.source.parent l.source.name files.current) =
      some .directory) : Shimmed l surroundings files false

theorem writeShim_eq (hnamed : l.source.Named)
    (hwrite : surroundings.faults.lookup .writeShim = none)
    (hrender : surroundings.faults.lookup .renderShim = none) {own : Text}
    (hown : s.files.textAt? l.source = some own) :
    l.writeShim surroundings s =
      if own ≠ l.shimText then storing (Storage.writeText l.source l.shimText) surroundings s
      else .ok () s := by
  have hread : storing (Storage.readText l.source) surroundings s = .ok own s :=
    storing_eq (Storage.readText_eq_ok.2 ⟨rfl, hown⟩)
  unfold writeShim
  rw [step_eq _ hwrite, hnamed.bridge?_eq, storing_require_some, pure_bind, Path.child_name,
    bind_eq (step_eq (pure (renderShim l.config.banner l.source.bridgeName)) hrender s),
    bind_eq hread]
  by_cases hne : own ≠ l.shimText
  · rw [if_pos hne]
    exact congrArg (fun task : Run Unit => task surroundings s) (if_pos hne)
  · rw [if_neg hne]
    exact congrArg (fun task : Run Unit => task surroundings s) (if_neg hne)

theorem writeShim_fault (hnamed : l.source.Named)
    (hfault : (surroundings.faults.lookup .writeShim).isSome = true ∨
      (surroundings.faults.lookup .renderShim).isSome = true) (s : RunState) :
    ∃ cause, l.writeShim surroundings s = .error cause s := by
  cases hwrite : surroundings.faults.lookup .writeShim with
  | some reason => exact ⟨_, step_fault _ hwrite s⟩
  | none =>
      obtain ⟨reason, hrender⟩ := Option.isSome_iff_exists.1
        (hfault.resolve_left (by simp [hwrite]))
      refine ⟨.injected reason, ?_⟩
      unfold writeShim
      rw [step_eq _ hwrite, hnamed.bridge?_eq, storing_require_some, pure_bind]
      exact bind_eq_error (step_fault _ hrender s)

/-- A run that tries to write the shim touches the source and what is written beside it. -/
theorem shimmed_of_writeShim {outcome : Option Unit × List Warning} (hnamed : l.source.Named)
    (hstanding : s.files.Standing l.source.parent) (hown : s.files.textAt? l.source = some own)
    (hrun : bestEffort "shim" l.writeShim surroundings s = .ok outcome s') :
    Files.Changes (Storage.touchedBy l.source.parent l.source.name s.files.current) ∅ s.files
        s'.files ∧
      l.Shimmed surroundings s'.files outcome.1.isSome ∧
        (s'.files.textAt? l.source = some own ∨ s'.files.textAt? l.source = some l.shimText) := by
  by_cases hfault : (surroundings.faults.lookup .writeShim).isSome = true ∨
      (surroundings.faults.lookup .renderShim).isSome = true
  · obtain ⟨cause, hfailed⟩ := writeShim_fault hnamed hfault s
    obtain ⟨log, hbest⟩ := bestEffort_error "shim" hfailed
    rw [hbest] at hrun
    cases hrun
    exact ⟨.refl .., .failing hfault, Or.inl hown⟩
  simp only [not_or, Bool.not_eq_true, Option.isSome_eq_false_iff, Option.isNone_iff_eq_none]
    at hfault
  obtain ⟨hwrite, hrender⟩ := hfault
  have hshim := writeShim_eq hnamed hwrite hrender hown
  by_cases hsame : own = l.shimText
  · rw [if_neg (by simpa using hsame)] at hshim
    rw [bestEffort_ok hshim] at hrun
    cases hrun
    exact ⟨.refl .., .written hwrite hrender (hsame ▸ hown), Or.inl hown⟩
  rw [if_pos hsame] at hshim
  have hchanges := Storage.writeText_standing_changes hstanding hnamed.isName.notUp l.shimText
  have hends := Storage.writeText_standing hstanding hnamed.isName.notUp l.shimText
  rw [hnamed.parent_child] at hchanges hends
  cases hwritten : Storage.writeText l.source l.shimText s.files with
  | ok _ after =>
      rw [hwritten] at hchanges
      simp only [storing, hwritten] at hshim
      rw [bestEffort_ok hshim] at hrun
      cases hrun
      have htext := Files.textAt?_of_at? hchanges.2
      exact ⟨hchanges.1, .written hwrite hrender htext, Or.inr htext⟩
  | error cause after =>
      obtain ⟨haside, rfl⟩ := Storage.writeText_refused hnamed hstanding hown hwritten
      simp only [storing, hwritten] at hshim
      obtain ⟨log, hbest⟩ := bestEffort_error "shim" hshim
      rw [hbest] at hrun
      cases hrun
      exact ⟨.refl .., .crowded hwrite hrender hown hsame haside, Or.inl hown⟩

theorem Shimmed.changes {first again : Files} {touched made : Set Location} {done : Bool}
    (h : l.Shimmed surroundings first done) (hnamed : l.source.Named)
    (hstanding : first.Standing l.source.parent)
    (hchanges : Files.Changes touched made first again)
    (hheld : ∀ location ∈ heldPlaces l.source first.current, location ∉ touched) :
    l.Shimmed surroundings again done := by
  have halike := Storage.sourceAlike_of_changes hnamed hstanding hchanges hheld
  cases h with
  | written hwrite hrender htext => exact .written hwrite hrender (halike.text.trans htext)
  | failing hfault => exact .failing hfault
  | crowded hwrite hrender hown hne haside =>
      refine .crowded hwrite hrender (halike.text.trans hown) hne ?_
      rw [hchanges.current]
      exact hchanges.directory _ haside

theorem Shimmed.writeShim {done : Bool} (h : l.Shimmed surroundings s.files done)
    (hfaults : other.faults = surroundings.faults) (hnamed : l.source.Named)
    (hstanding : s.files.Standing l.source.parent) :
    ∃ outcome s', bestEffort "shim" l.writeShim other s = .ok outcome s' ∧
      outcome.1.isSome = done ∧ s'.files = s.files := by
  cases h with
  | written hwrite hrender htext =>
      have hshim := writeShim_eq hnamed (hfaults ▸ hwrite) (hfaults ▸ hrender) htext
      rw [if_neg (by simp)] at hshim
      exact ⟨_, _, bestEffort_ok hshim, rfl, rfl⟩
  | failing hfault =>
      obtain ⟨cause, hfailed⟩ := writeShim_fault hnamed (hfaults ▸ hfault) s
      obtain ⟨log, hbest⟩ := bestEffort_error "shim" hfailed
      exact ⟨_, _, hbest, rfl, rfl⟩
  | crowded hwrite hrender hown hne haside =>
      have hshim := writeShim_eq hnamed (hfaults ▸ hwrite) (hfaults ▸ hrender) hown
      have hends := (Storage.writeText_standing hstanding hnamed.isName.notUp l.shimText).trans
        (if_pos haside)
      rw [hnamed.parent_child] at hends
      rw [if_pos hne] at hshim
      simp only [storing, hends] at hshim
      obtain ⟨log, hbest⟩ := bestEffort_error "shim" hshim
      exact ⟨_, _, hbest, rfl, rfl⟩

end Linking

end Run

end ScriptSplit
