import ScriptSplit.Proofs.Stage.Rewrite
import ScriptSplit.Proofs.Stage.SourceSafety

/-!
# Surrounding the modules again

Backup, bridges, mirror and shim: a run secures its source before it writes the shim, and from then on the
source stays secured. The repetition finds it so, and leaves alone what the first run did to it.
-/

namespace ScriptSplit

def Config.reach (config : Config) (environment : Table String) (source : Path)
    (current : Location) (more : Set Location) : Reach where
  touched := config.writtenPlaces environment source current ∪ more
  made := config.madePlaces source current

namespace Run

/-! ## Where linking works -/

/-- Whether a run and its repetition link the modules of a source, and everything that linking needs
stands. -/
structure Placed (config : Config) (environment : Table String) (source : Path) (layout : Layout)
    (r : Rerun) : Prop where
  named : source.Named
  isAbsolute : source.isAbsolute = true
  root : config.root.Clean
  clear : config.Clear environment r.current source
  slugs : ∀ slug ∈ layout.slugs, isSlug slug = true
  basename : layout.basename = source.basename
  directory : layout.directory = config.outputRoot.child source.groupName
  parent : source.parent ∈ r.standing
  modules : config.outputRoot.child source.groupName ∈ r.standing
  mirror : ∀ mirror, config.mirrorRoot? = some mirror → config.outputRoot.parent ∈ r.standing
  touched : r.touched = config.writtenPlaces environment source r.current
  failures : r.failures

namespace Placed

variable {config : Config} {environment : Table String} {source : Path} {layout : Layout}
  {r : Rerun} {known more : Set Location}
  (h : Placed config environment source layout r)

include h

theorem covers (more : Set Location) :
    config.Covers environment source r (config.reach environment source r.current more) where
  written := Set.subset_union_left
  made := rfl
  again := h.touched

theorem modulesKnown
    (hknown : ∀ slug ∈ layout.slugs, modulePlace config source r.current slug ∈ known) :
    ModulesKnown r known layout where
  file slug hslug := layout_file_eq (h.slugs slug hslug) (h.basename ▸ h.named.noSlash.1)
  standing := by
    rw [h.directory]
    exact h.modules
  isName slug hslug := (moduleFileName_isName (c := 'j') (h.slugs slug hslug)
    (h.basename ▸ h.named.noSlash.1) ".js" (by decide) (by decide) (by decide)).notUp
  known slug hslug := by
    rw [h.directory, moduleFile, h.basename]
    exact hknown slug hslug

theorem modulesWritable
    (hknown : ∀ slug ∈ layout.slugs, modulePlace config source r.current slug ∈ known) :
    ModulesWritable r (config.reach environment source r.current more) known layout where
  toModulesKnown := h.modulesKnown hknown
  writable slug hslug := by
    rw [h.directory, moduleFile, h.basename]
    exact Config.Writes.writable (.moduleFile (h.slugs slug hslug)) (h.covers more) h.named h.modules

theorem mirrorWritable {mirror : Path} (hmirror : config.mirrorRoot? = some mirror)
    (hmore : ∀ location ∈ Storage.twoPlaces config.outputRoot.parent config.mirrorName
      source.groupName r.current, location ∉ more) :
    ∃ (top : Path) (name : String), mirror = top.child name ∧
      Linking.MirrorWritable r (config.reach environment source r.current more) layout top name
        source.groupName := by
  obtain rfl := Config.mirrorRoot?_eq h.root hmirror
  refine ⟨_, _, rfl, ?_⟩
  constructor
  · exact h.mirror _ hmirror
  · exact (Config.isName_mirrorName h.root).notUp
  · exact (Path.isName_groupName h.named).notUp
  · exact fun location hlocation => Or.inr hlocation
  · rintro location hlocation (hwritten | hown)
    · exact Config.made_not_written h.named location (Or.inr hlocation) hwritten
    · exact hmore location hlocation hown
  · intro slug hslug
    exact Path.div_name _ (moduleFileName_isName (c := 'j') (h.slugs slug hslug)
      (h.basename ▸ h.named.noSlash.1) ".cjs" (by decide) (by decide) (by decide))
  · intro slug hslug
    rw [h.basename]
    have hwrites : config.Writes environment source
        ((config.outputRoot.parent.child config.mirrorName).child source.groupName)
        (moduleFileName slug source.basename ".cjs") := .mirror (h.slugs slug hslug) hmirror
    exact hwrites.writable ⟨(h.covers more).written, rfl, h.touched⟩ h.named (Set.mem_insert _ _)

/-- What is written apart from the source leaves its text readable. -/
theorem readOriginal_changes {text : Text} {path : Path} {first again : Files}
    {made : Set Location} (hready : r.Ready first)
    (hread : Storage.readOriginal source first = .ok (text, path) first)
    (hchanges : Files.Changes (config.writtenPlaces environment source r.current) made first again) :
    Storage.readOriginal source again = .ok (text, path) again := by
  apply (Storage.sourceAlike_of_changes h.named (hready.standing _ h.parent) hchanges
    ?_).readOriginal h.named h.isAbsolute hread
  rw [hready.current]
  exact h.clear.held_not_written h.named

end Placed

namespace Linking

open Storage (backupPlaces heldPlaces savedPlaces)

variable {l : Linking} {surroundings : Surroundings} {s s' : RunState} {r : Rerun}
  {known more : Set Location} {text : Text} {environment : Table String}

/-! ## The steps of a run that ends well -/

theorem replaceSource_eq_ok {backup bridge : Path} :
    (∃ outcome, l.replaceSource backup bridge surroundings s = .ok outcome s') ↔
      ∃ shim s₁ copied, bestEffort "shim" l.writeShim surroundings s = .ok shim s₁ ∧
        bestEffort "backup copy" (l.copyBackup backup) surroundings s₁ = .ok copied s' := by
  unfold replaceSource
  constructor
  · rintro ⟨outcome, hrun⟩
    obtain ⟨shim, s₁, hshim, hrun⟩ := bind_eq_ok.1 hrun
    obtain ⟨copied, s₂, hcopied, hrun⟩ := bind_eq_ok.1 hrun
    cases hrun
    exact ⟨shim, s₁, copied, hshim, hcopied⟩
  · rintro ⟨shim, s₁, copied, hshim, hcopied⟩
    exact ⟨_, bind_eq_ok.2 ⟨shim, s₁, hshim, bind_eq_ok.2 ⟨copied, s', hcopied, rfl⟩⟩⟩

/-- What is done to the source at last: it is replaced, or it is left as it is. -/
def Finishes (l : Linking) (surroundings : Surroundings) (backup bridge : Option Path)
    (s s' : RunState) : Prop :=
  (∃ path target, backup = some path ∧ bridge = some target ∧
    ∃ outcome, l.replaceSource path target surroundings s = .ok outcome s') ∨
  (backup = none ∨ bridge = none) ∧ s' = s

theorem surround_eq_ok :
    (∃ surrounded, l.surround surroundings s = .ok surrounded s') ↔
      ∃ backup warnings s₁ bridge more s₂ mirrored s₃,
        bestEffort "backup" (backUpStep l.source surroundings.now) surroundings s =
          .ok (backup, warnings) s₁ ∧
        l.writeBridges backup surroundings s₁ = .ok (bridge, more) s₂ ∧
        bestEffort "CommonJS mirror" l.writeMirror surroundings s₂ = .ok mirrored s₃ ∧
        l.Finishes surroundings backup bridge s₃ s' := by
  unfold surround
  constructor
  · rintro ⟨surrounded, hrun⟩
    rw [bind_read_eq] at hrun
    obtain ⟨⟨backup, warnings⟩, s₁, hbackup, hrun⟩ := bind_eq_ok.1 hrun
    obtain ⟨⟨bridge, more⟩, s₂, hbridge, hrun⟩ := bind_eq_ok.1 hrun
    obtain ⟨mirrored, s₃, hmirror, hrun⟩ := bind_eq_ok.1 hrun
    refine ⟨backup, warnings, s₁, bridge, more, s₂, mirrored, s₃, hbackup, hbridge, hmirror, ?_⟩
    cases backup with
    | none =>
        cases hrun
        exact Or.inr ⟨Or.inl rfl, rfl⟩
    | some path =>
        cases bridge with
        | none =>
            cases hrun
            exact Or.inr ⟨Or.inr rfl, rfl⟩
        | some target =>
            obtain ⟨replaced, s₄, hreplaced, hrun⟩ := bind_eq_ok.1 hrun
            cases hrun
            exact Or.inl ⟨path, target, rfl, rfl, replaced, hreplaced⟩
  · rintro ⟨backup, warnings, s₁, bridge, more, s₂, mirrored, s₃, hbackup, hbridge, hmirror, hlast⟩
    simp only [bind_read_eq]
    rcases hlast with ⟨path, target, rfl, rfl, outcome, hreplaced⟩ | ⟨hnone, rfl⟩
    · exact ⟨_, bind_eq_ok.2 ⟨_, s₁, hbackup, bind_eq_ok.2 ⟨_, s₂, hbridge,
        bind_eq_ok.2 ⟨_, s₃, hmirror, bind_eq_ok.2 ⟨outcome, s', hreplaced, rfl⟩⟩⟩⟩⟩
    · cases backup with
      | none =>
          exact ⟨_, bind_eq_ok.2 ⟨_, s₁, hbackup, bind_eq_ok.2 ⟨_, s₂, hbridge,
            bind_eq_ok.2 ⟨_, s', hmirror, rfl⟩⟩⟩⟩
      | some path =>
          obtain rfl := hnone.resolve_left (by simp)
          exact ⟨_, bind_eq_ok.2 ⟨_, s₁, hbackup, bind_eq_ok.2 ⟨_, s₂, hbridge,
            bind_eq_ok.2 ⟨_, s', hmirror, rfl⟩⟩⟩⟩

/-! ## What the first run does -/

section First

variable (h : Placed l.config environment l.source l.layout r)

include h

/-- The places of the source and of its temporary file are those of no module, bridge or copy. -/
theorem own_not_written :
    ∀ location ∈ Storage.touchedBy l.source.parent l.source.name r.current,
      location ∉ l.config.writtenPlaces environment l.source r.current :=
  fun location hlocation => h.clear.held_not_written h.named location (Or.inl hlocation)

theorem bridges_again (backup : Option Path) :
    Again r (l.config.reach environment l.source r.current more) known known
      (l.writeBridges backup) :=
  writeBridges_again h.named h.failures
    (Config.Writes.bridge.writable (h.covers more) h.named h.parent) backup

theorem mirror_again (hmore : more ⊆ Storage.touchedBy l.source.parent l.source.name r.current)
    (hknown : ∀ slug ∈ l.layout.slugs, modulePlace l.config l.source r.current slug ∈ known) :
    Again r (l.config.reach environment l.source r.current more) known known
      (bestEffort "CommonJS mirror" l.writeMirror) := by
  refine (writeMirror_again h.named (h.modulesKnown hknown) (fun mirror hmirror => ?_)
    (Config.Writes.requireBridge.writable (h.covers _) h.named h.parent)).bestEffort h.failures
  apply h.mirrorWritable hmirror
  rw [Config.mirrorRoot?_eq h.root hmirror] at hmirror
  exact fun location hlocation hmem =>
    h.clear.mirror_not_own h.root h.named hmirror location hlocation (hmore hmem)

theorem copy_again {backup : String} (hbackup : backup ≠ "..")
    (hknown : l.source.parent.place r.current ++ [backup] ∈ known) :
    Again r (l.config.reach environment l.source r.current ∅) known known
      (bestEffort "backup copy" (l.copyBackup (l.source.parent.child backup))) :=
  (copyBackup_again h.named hbackup h.parent hknown
    (Config.Writes.backupCopy.writable (h.covers ∅) h.named h.modules)).bestEffort h.failures

theorem secured_changes {first again : Files} {made : Set Location} {backup : Option Path}
    (hready : r.Ready first) (hsecured : Secured surroundings l.source text first backup)
    (hchanges : Files.Changes (l.config.writtenPlaces environment l.source r.current) made first
      again) : Secured surroundings l.source text again backup := by
  apply hsecured.changes h.named h.isAbsolute (hready.standing _ h.parent) hchanges
  rw [hready.current]
  exact h.clear.held_not_written h.named

theorem replaceSource_secures {backup : Path} {shim : Option Unit × List Warning}
    {copied : Option Path × List Warning} {s₁ : RunState} (hready : r.Ready s.files)
    (hsecured : Secured r.first l.source text s.files (some backup))
    (hshim : bestEffort "shim" l.writeShim r.first s = .ok shim s₁)
    (hcopied : bestEffort "backup copy" (l.copyBackup backup) r.first s₁ = .ok copied s') :
    Files.Changes (Storage.touchedBy l.source.parent l.source.name r.current) ∅ s.files s₁.files ∧
      Files.Changes (l.config.writtenPlaces environment l.source r.current)
        (l.config.madePlaces l.source r.current) s₁.files s'.files ∧
      Secured r.first l.source text s'.files (some backup) ∧
      l.Shimmed r.first s₁.files shim.1.isSome := by
  obtain ⟨hfault, hrecoverable⟩ := hsecured
  obtain ⟨own, hown, -⟩ := hrecoverable.own
  have hstanding := hready.standing _ h.parent
  obtain ⟨hchanges, hshimmed, htext⟩ := shimmed_of_writeShim h.named hstanding hown hshim
  rw [hready.current] at hchanges
  have hready₁ : r.Ready s₁.files := hready.changes hchanges
  have halike : Storage.BackupsAlike l.source s.files s₁.files := by
    apply Storage.backupsAlike_of_changes hstanding hchanges
    rw [hready.current]
    exact fun location hsaved hmem =>
      Storage.own_not_saved h.named h.clear.backups location hmem hsaved
  have hrecoverable₁ : Storage.Recoverable l.source backup text s₁.files := by
    apply hrecoverable.alike halike h.named h.isAbsolute
    rcases htext with hkept | hwritten
    · exact ⟨own, hkept, Or.inr hown⟩
    · exact ⟨_, hwritten, Or.inl (looksLikeShim_renderShim _ _)⟩
  obtain ⟨name, -, hup, rfl⟩ :=
    Storage.findBackup_eq_some hstanding h.named h.isAbsolute hrecoverable.found
  have hcopy := (copy_again h hup (Set.mem_univ _)).changes_ok hcopied hready₁
  simp only [Config.reach, Set.union_empty] at hcopy
  exact ⟨hchanges, hcopy, secured_changes h hready₁ ⟨hfault, hrecoverable₁⟩ hcopy, hshimmed⟩

/-- Bridges and mirror touch neither the source nor its backups. -/
theorem bridges_changes {backup : Option Path} {bridge : Option Path × List Warning}
    (hready : r.Ready s.files) (hbridge : l.writeBridges backup r.first s = .ok bridge s') :
    Files.Changes (l.config.writtenPlaces environment l.source r.current)
      (l.config.madePlaces l.source r.current) s.files s'.files := by
  have hbridges : Again r (l.config.reach environment l.source r.current ∅) ∅ ∅
      (l.writeBridges backup) := bridges_again h backup
  have hchanges := hbridges.changes_ok hbridge hready
  simp only [Config.reach, Set.union_empty] at hchanges
  exact hchanges

theorem mirror_changes {mirrored : Option (List Path) × List Warning} (hready : r.Ready s.files)
    (hmirror : bestEffort "CommonJS mirror" l.writeMirror r.first s = .ok mirrored s') :
    Files.Changes (l.config.writtenPlaces environment l.source r.current)
      (l.config.madePlaces l.source r.current) s.files s'.files := by
  have hchanges := (mirror_again h (Set.empty_subset _) fun _ _ => Set.mem_univ _).changes_ok
    hmirror hready
  simp only [Config.reach, Set.union_empty] at hchanges
  exact hchanges

theorem finishes_secures {backup bridge : Option Path} (hready : r.Ready s.files)
    (hsecured : Secured r.first l.source text s.files backup)
    (hlast : l.Finishes r.first backup bridge s s') :
    Files.Changes (l.config.writtenPlaces environment l.source r.current ∪
        Storage.touchedBy l.source.parent l.source.name r.current)
      (l.config.madePlaces l.source r.current) s.files s'.files ∧
      Secured r.first l.source text s'.files backup := by
  rcases hlast with ⟨path, target, rfl, rfl, hreplaced⟩ | ⟨-, rfl⟩
  · obtain ⟨shim, s₁, copied, hshim, hcopied⟩ := replaceSource_eq_ok.1 hreplaced
    obtain ⟨hfirst, hlast, hsecured', -⟩ := replaceSource_secures h hready hsecured hshim hcopied
    exact ⟨(hfirst.mono Set.subset_union_right (Set.empty_subset _)).trans
      (hlast.mono Set.subset_union_left (Set.Subset.refl _)), hsecured'⟩
  · exact ⟨.refl .., hsecured⟩

/-- A run that surrounds its modules secures the source. -/
theorem surround_secures {path : Path} {surrounded : Surrounded} (hready : r.Ready s.files)
    (hread : Storage.readOriginal l.source s.files = .ok (text, path) s.files)
    (hrun : l.surround r.first s = .ok surrounded s') :
    Files.Changes (l.config.changedPlaces environment l.source r.current)
        (l.config.madePlaces l.source r.current) s.files s'.files ∧
      ∃ backup, Secured r.first l.source text s'.files backup := by
  obtain ⟨backup, warnings, s₁, bridge, more, s₂, mirrored, s₃, hbackup, hbridge, hmirror, hlast⟩ :=
    surround_eq_ok.1 ⟨surrounded, hrun⟩
  obtain ⟨hmoved, hsecured⟩ :=
    secured_of_backUp h.named h.clear.pattern (hready.standing _ h.parent) hread hbackup
  rw [hready.current] at hmoved
  have hready₁ := hready.changes hmoved
  have hbridges := bridges_changes h hready₁ hbridge
  have hwritten := hbridges.trans (mirror_changes h (hready₁.changes hbridges) hmirror)
  have hready₃ := hready₁.changes hwritten
  obtain ⟨hfinished, hsecured'⟩ :=
    finishes_secures h hready₃ (secured_changes h hready₁ hsecured hwritten) hlast
  refine ⟨?_, backup, hsecured'⟩
  have hsaved := Storage.backupPlaces_subset_saved l.source r.current
  have hall : Files.Changes (l.config.changedPlaces environment l.source r.current)
      (l.config.madePlaces l.source r.current) s.files s₃.files :=
    (hmoved.mono (hsaved.trans (Set.subset_union_right.trans Set.subset_union_right))
      (Set.empty_subset _)).trans (hwritten.mono Set.subset_union_left (Set.Subset.refl _))
  exact hall.trans (hfinished.mono (Set.union_subset_union_right _ Set.subset_union_left)
    (Set.Subset.refl _))

end First

/-! ## What the repetition does -/

section Again

variable (h : Placed l.config environment l.source l.layout r) {t : RunState} {last : Files}

include h

theorem replaceSource_again {backup bridge : Path} (hready : r.Ready s.files)
    (hsecured : Secured r.first l.source text s.files (some backup))
    (hrun : ∃ outcome, l.replaceSource backup bridge r.first s = .ok outcome s')
    (hrest : Files.Changes (l.config.writtenPlaces environment l.source r.current)
      (l.config.madePlaces l.source r.current) s'.files last)
    (hkept : ∀ location ∈ known,
      location ∉ Storage.touchedBy l.source.parent l.source.name r.current)
    (hbackup : backup.place r.current ∈ known)
    (hfollows : Files.Follows r.touched known last s.files t.files) :
    ∃ t', (∃ outcome, l.replaceSource backup bridge r.again t = .ok outcome t') ∧
      Files.Follows r.touched known last s'.files t'.files := by
  obtain ⟨shim, s₁, copied, hshim, hcopied⟩ := replaceSource_eq_ok.1 hrun
  obtain ⟨hfirst, hcopy, -, hshimmed⟩ := replaceSource_secures h hready hsecured hshim hcopied
  have hready₁ := hready.changes hfirst
  have hlast := hcopy.trans hrest
  have hready_last := hready₁.changes hlast
  have hready_t := hready_last.changes hfollows.changed
  -- the shim is where the first run left it
  have hheld : ∀ location ∈ heldPlaces l.source r.current,
      location ∉ l.config.writtenPlaces environment l.source r.current :=
    h.clear.held_not_written h.named
  have hshimmed_last := hshimmed.changes h.named (hready₁.standing _ h.parent) hlast
    (by rw [hready₁.current]; exact hheld)
  have hshimmed_t := hshimmed_last.changes h.named (hready_last.standing _ h.parent)
    hfollows.changed (by rw [hready_last.current, h.touched]; exact hheld)
  obtain ⟨shim', t₁, hshim', -, hfiles⟩ :=
    hshimmed_t.writeShim r.faults h.named (hready_t.standing _ h.parent)
  have hsettled := hfollows.settle hfirst
    (by rw [h.touched]; exact own_not_written h) hkept
    (congrArg Files.current hfiles) fun location => by rw [hfiles]
  obtain ⟨-, hrecoverable⟩ := hsecured
  obtain ⟨name, -, hup, rfl⟩ := Storage.findBackup_eq_some (hready.standing _ h.parent) h.named
    h.isAbsolute hrecoverable.found
  rw [Path.place_child hup] at hbackup
  have hcopyAgain := copy_again h hup hbackup
  rw [← Set.union_empty (l.config.writtenPlaces environment l.source r.current)] at hrest
  obtain ⟨t', hcopied', hfollows'⟩ := hcopyAgain.ok hcopied hready₁ hsettled hrest
  exact ⟨t', replaceSource_eq_ok.2 ⟨shim', t₁, copied, hshim', hcopied'⟩, hfollows'⟩

theorem learn_backup {backup : Path} (hready : r.Ready s.files)
    (hsecured : Secured r.first l.source text s.files (some backup))
    (hrest : Files.Changes (l.config.writtenPlaces environment l.source r.current ∪
      Storage.touchedBy l.source.parent l.source.name r.current)
      (l.config.madePlaces l.source r.current) s.files last)
    (hfollows : Files.Follows r.touched known last s.files t.files) :
    backup.place r.current ∈ savedPlaces l.source r.current ∧
      Files.Follows r.touched (insert (backup.place r.current) known) last s.files t.files := by
  obtain ⟨-, hrecoverable⟩ := hsecured
  have hstanding := hready.standing _ h.parent
  obtain ⟨name, hname, hup, rfl⟩ :=
    Storage.findBackup_eq_some hstanding h.named h.isAbsolute hrecoverable.found
  have hplace : (l.source.parent.child name).place r.current =
      l.source.parent.place r.current ++ [name] := Path.place_child hup r.current
  have hsaved : l.source.parent.place r.current ++ [name] ∈ savedPlaces l.source r.current :=
    ⟨name, Or.inr hname, rfl⟩
  obtain ⟨content, hat, -⟩ := Files.exists_of_textAt? hrecoverable.saved
  rw [hstanding.at?_child hup, hready.current] at hat
  have hnot := h.clear.held_not_written h.named _ (Or.inr hsaved)
  have hlast := hrest.entry?_eq_some (by
    rintro (hwritten | hown)
    · exact hnot hwritten
    · exact Storage.own_not_saved h.named h.clear.backups _ hown hsaved) hat
  have hagain := hfollows.changed.entry?_eq_some (by rw [h.touched]; exact hnot) hlast
  rw [hplace]
  exact ⟨hsaved, hfollows.learn (hagain.trans hat.symm)⟩

/-- What is done to the source at last is done again. -/
theorem finishes_again {backup bridge : Option Path} (hready : r.Ready s.files)
    (hsecured : Secured r.first l.source text s.files backup)
    (hrun : l.Finishes r.first backup bridge s s')
    (hrest : Files.Changes (l.config.writtenPlaces environment l.source r.current)
      (l.config.madePlaces l.source r.current) s'.files last)
    (hkept : ∀ location ∈ known,
      location ∉ Storage.touchedBy l.source.parent l.source.name r.current)
    (hbackup : ∀ path, backup = some path → path.place r.current ∈ known)
    (hfollows : Files.Follows r.touched known last s.files t.files) :
    ∃ t', l.Finishes r.again backup bridge t t' ∧
      Files.Follows r.touched known last s'.files t'.files := by
  rcases hrun with ⟨path, target, rfl, rfl, hreplaced⟩ | ⟨hnone, rfl⟩
  · obtain ⟨t', hagain, hfollows'⟩ := replaceSource_again h hready hsecured hreplaced hrest hkept
      (hbackup path rfl) hfollows
    exact ⟨t', Or.inl ⟨path, target, rfl, rfl, hagain⟩, hfollows'⟩
  · exact ⟨t, Or.inr ⟨hnone, rfl⟩, hfollows⟩

/-- A run that surrounds its modules does so again, as long as the files of the modules are the same. -/
theorem surround_again {path : Path} {surrounded : Surrounded} (hready : r.Ready s.files)
    (hread : Storage.readOriginal l.source s.files = .ok (text, path) s.files)
    (hrun : l.surround r.first s = .ok surrounded s')
    (hmodules : ∀ slug ∈ l.layout.slugs, modulePlace l.config l.source r.current slug ∈ known)
    (hkept : ∀ location ∈ known, location ∉ heldPlaces l.source r.current)
    (hrest : Files.Changes (l.config.writtenPlaces environment l.source r.current)
      (l.config.madePlaces l.source r.current) s'.files last)
    (hfollows : Files.Follows r.touched known last s.files t.files) :
    ∃ again t', l.surround r.again t = .ok again t' ∧
      Files.Follows r.touched known last s'.files t'.files := by
  obtain ⟨backup, warnings, s₁, bridge, more, s₂, mirrored, s₃, hbackup, hbridge, hmirror, hlast⟩ :=
    surround_eq_ok.1 ⟨surrounded, hrun⟩
  -- the first run secures the source, and it stays so until the repetition backs it up
  obtain ⟨hmoved, hsecured⟩ :=
    secured_of_backUp h.named h.clear.pattern (hready.standing _ h.parent) hread hbackup
  rw [hready.current] at hmoved
  have hready₁ := hready.changes hmoved
  have hbridges := bridges_changes h hready₁ hbridge
  have hready₂ := hready₁.changes hbridges
  have hmirrored := mirror_changes h hready₂ hmirror
  have hwritten := hbridges.trans hmirrored
  have hready₃ := hready₁.changes hwritten
  have hsecured₃ := secured_changes h hready₁ hsecured hwritten
  obtain ⟨hfinished, hsecured'⟩ := finishes_secures h hready₃ hsecured₃ hlast
  have hready' := hready₃.changes hfinished
  have hsecured_last := secured_changes h hready' hsecured' hrest
  have hready_last := hready'.changes hrest
  have hready_t := hready_last.changes hfollows.changed
  have hsecured_t := secured_changes h hready_last hsecured_last (h.touched ▸ hfollows.changed)
  obtain ⟨warnings', t₁, hbackup', hcurrent, hsame⟩ := hsecured_t.backUp r.faults h.named
    (hready_t.standing _ h.parent) r.again.now
  have hheld := h.clear.held_not_written h.named
  have hsaved := Storage.backupPlaces_subset_saved l.source r.current
  have hsettled := hfollows.settle hmoved
    (fun location hlocation => h.touched ▸ hheld location (Or.inr (hsaved hlocation)))
    (fun location hlocation hmem => hkept location hlocation (Or.inr (hsaved hmem)))
    hcurrent hsame
  -- the file of the backup is known from here on
  have hrest₃ := hfinished.trans (hrest.mono Set.subset_union_left (Set.Subset.refl _))
  have hrest₂ := (hmirrored.mono Set.subset_union_left (Set.Subset.refl _)).trans hrest₃
  have hrest₁ := (hbridges.mono Set.subset_union_left (Set.Subset.refl _)).trans hrest₂
  obtain ⟨known', hgrows, hown, hbackupKnown, hlearned⟩ : ∃ known', known ⊆ known' ∧
      (∀ location ∈ known',
        location ∉ Storage.touchedBy l.source.parent l.source.name r.current) ∧
      (∀ path, backup = some path → path.place r.current ∈ known') ∧
      Files.Follows r.touched known' last s₁.files t₁.files := by
    have hknown : ∀ location ∈ known,
        location ∉ Storage.touchedBy l.source.parent l.source.name r.current :=
      fun location hlocation hmem => hkept location hlocation (Or.inl hmem)
    cases backup with
    | none => exact ⟨known, Set.Subset.refl _, hknown, by simp, hsettled⟩
    | some file =>
        obtain ⟨hplace, hlearned⟩ := learn_backup h hready₁ hsecured hrest₁ hsettled
        refine ⟨_, Set.subset_insert _ _, ?_, ?_, hlearned⟩
        · rintro location (rfl | hlocation)
          · exact fun hmem => Storage.own_not_saved h.named h.clear.backups _ hmem hplace
          · exact hknown location hlocation
        · rintro _ ⟨rfl⟩
          exact Set.mem_insert _ _
  obtain ⟨t₂, hbridge', hfollows₂⟩ := (bridges_again h backup).ok hbridge hready₁ hlearned hrest₂
  obtain ⟨t₃, hmirror', hfollows₃⟩ := (mirror_again h (Set.Subset.refl _) fun slug hslug =>
    hgrows (hmodules slug hslug)).ok hmirror hready₂ hfollows₂ hrest₃
  obtain ⟨t', hlast', hfollows'⟩ := finishes_again h hready₃ hsecured₃ hlast hrest hown
    hbackupKnown hfollows₃
  obtain ⟨again, hagain⟩ := surround_eq_ok.2 ⟨backup, warnings', t₁, bridge, more, t₂, mirrored,
    t₃, hbackup', hbridge', hmirror', hlast'⟩
  exact ⟨again, t', hagain, hfollows'.mono (Set.Subset.refl _) hgrows⟩

end Again

end Linking

end Run

end ScriptSplit
