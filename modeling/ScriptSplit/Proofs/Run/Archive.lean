import Mathlib
import ScriptSplit.Proofs.Run.Backup

/-!
# Texts in backups

A backup with another text is moved aside before the plain name is written again, and it goes to a name that is
free. So a text that is in a backup stays in one.
-/

namespace ScriptSplit.Storage

/-- The backups beside a source: the one with the plain name, and those that were moved aside. -/
inductive IsBackup (source : Path) : Path → Prop where
  | plain : IsBackup source (backupPath source)
  | dated (now : Moment) (n : Nat) : IsBackup source (source.parent.child (datedName source now n))

def Archived (source : Path) (text : Text) (files : Files) : Prop :=
  ∃ path, IsBackup source path ∧ files.textAt? path = some text

def MovedAside (source : Path) (text : Text) (files : Files) : Prop :=
  ∃ now n, files.textAt? (source.parent.child (datedName source now n)) = some text

variable {source path : Path} {files : Files} {text : Text} {current : Location}

theorem MovedAside.archived (h : MovedAside source text files) : Archived source text files := by
  obtain ⟨now, n, htext⟩ := h
  exact ⟨_, .dated now n, htext⟩

/-! ## Writing at other places -/

theorem datedName_ne_backupName (source : Path) (now : Moment) (n : Nat) :
    datedName source now n ≠ source.backupName := by
  intro heq
  have hlength := congrArg String.length heq
  have hold : ("_old_" : String).length = 5 := by decide
  have hplain : ("_old" : String).length = 4 := by decide
  simp only [datedName, Path.backupName, String.length_append, hold, hplain] at hlength
  omega

theorem datedName_ne_temporary (h : source.Named) (now : Moment) (n : Nat) :
    datedName source now n ≠ Path.temporaryName source.backupName := by
  intro heq
  have hold : ("_old_" : String) = "_old" ++ "_" := by decide
  simp only [datedName, Path.temporaryName, Path.backupName, hold, String.append_assoc,
    String.append_right_inj] at heq
  -- an underscore follows in the one, the suffix with its point in the other
  obtain ⟨rest, hrest, hhead⟩ := Path.dotted_name h.name_ne_empty
  rw [← Path.basename_append_suffix h.name_ne_empty, String.append_right_inj] at hrest
  have hlist := congrArg (fun name : String => name.toList.head?) heq
  simp only [String.toList_append, hrest] at hlist
  cases hsuffix : rest.toList with
  | nil => simp [hsuffix] at hlist
  | cons c more =>
      rw [hsuffix] at hlist hhead
      exact hhead hlist.symm

theorem IsBackup.place_mem (hpath : IsBackup source path) (h : source.Named) (current : Location) :
    path.place current ∈ backupPlaces source current := by
  cases hpath with
  | plain => exact ⟨_, Path.underscored_backupName source, Path.place_child h.isName_backupName.notUp _⟩
  | dated now n =>
      exact ⟨_, underscored_datedName source now n, Path.place_child (isName_datedName h n).notUp _⟩

theorem archived_stable (h : source.Named) (text : Text) :
    Stable current (backupPlaces source current)ᶜ
      (fun files => files.current = current ∧ Archived source text files) where
  current _ hfiles := hfiles.1
  changes before after hchanges hbefore := by
    obtain ⟨rfl, path, hpath, htext⟩ := hbefore
    exact ⟨hchanges.current, path, hpath,
      hchanges.textAt?_eq_some (fun houtside => houtside (hpath.place_mem h _)) htext⟩

theorem movedAside_stable (h : source.Named) (text : Text) :
    Stable current (touchedBy source.parent source.backupName current)
      (fun files => files.current = current ∧ MovedAside source text files) where
  current _ hfiles := hfiles.1
  changes before after hchanges hbefore := by
    obtain ⟨rfl, now, n, htext⟩ := hbefore
    refine ⟨hchanges.current, now, n, hchanges.textAt?_eq_some ?_ htext⟩
    rw [Path.place_child (isName_datedName h n).notUp]
    exact not_mem_touchedBy (datedName_ne_backupName source now n) (datedName_ne_temporary h now n)

/-! ## Making backups -/

/-- Without a plain backup, a text that is in a backup was moved aside. -/
theorem Archived.movedAside (htext : Archived source text files)
    (hnone : files.hasFile (backupPath source) = false) : MovedAside source text files := by
  obtain ⟨path, hpath, htext⟩ := htext
  cases hpath with
  | plain =>
      obtain ⟨content, hat, -⟩ := Files.exists_of_textAt? htext
      simp [Files.hasFile, hat] at hnone
  | dated now n => exact ⟨now, n, htext⟩

/-- Moving the plain backup aside covers no other backup. -/
theorem moveAside_archives (h : source.Named) (htext : Archived source text files)
    (hfile : files.hasFile (backupPath source) = true) (now : Moment) :
    ∃ after, change (·.replace (backupPath source)
        (freeDatedPath source now files 0 files.entries.length)) files = .ok () after ∧
      after.current = files.current ∧ MovedAside source text after := by
  obtain ⟨content, hat⟩ := Files.exists_of_hasFile hfile
  obtain ⟨hstanding, hentry⟩ := Files.at?_child_eq_some h.isName_backupName.notUp hat
  obtain ⟨k, -, hfree, hmoved⟩ := moveAside_eq h hstanding hentry now
  have hchanges := Files.move_changes hentry (by rw [hfree]; simp)
  refine ⟨_, hmoved, hchanges.current, ?_⟩
  have hname : ∀ now n, datedName source now n ≠ ".." := fun now n => (isName_datedName h n).notUp
  obtain ⟨path, hpath, htext⟩ := htext
  cases hpath with
  | plain =>
      refine ⟨now, k, ?_⟩
      have hplaced := (hchanges.standing hstanding).at?_child (hname now k)
      rw [hchanges.current, Files.entry?_put _ (by simp), if_pos rfl] at hplaced
      rw [Files.textAt?, hat] at htext
      rw [Files.textAt?, hplaced]
      exact htext
  | dated other n =>
      refine ⟨other, n, hchanges.textAt?_eq_some ?_ htext⟩
      rw [Path.place_child (hname other n)]
      rintro (hplain | htaken)
      · exact datedName_ne_backupName source other n (by simpa using hplain)
      · -- the other name is not free
        obtain ⟨kept, hkept, -⟩ := Files.exists_of_textAt? htext
        rw [hstanding.at?_child (hname other n), htaken, hfree] at hkept
        cases hkept

/-- A text that is in a backup stays in one when the source is backed up. -/
theorem backUp_archives (h : source.Named) (text : Text) (now : Moment) :
    Meets (fun files => files.current = current ∧ Archived source text files) (backUp source now)
      (fun _ files => files.current = current ∧ Archived source text files)
      (fun files => files.current = current ∧ Archived source text files) := by
  have hwrite : ∀ own, Meets (fun files => files.current = current ∧ MovedAside source text files)
      (do writeText (backupPath source) own; return backupPath source)
      (fun _ files => files.current = current ∧ Archived source text files)
      (fun files => files.current = current ∧ Archived source text files) := by
    intro own
    apply Meets.bind ((writeText_keeps h.isName_backupName.notUp (movedAside_stable h text)
      own).consequence (fun _ hfiles => hfiles) (fun _ _ hfiles => hfiles)
        fun _ hfiles => ⟨hfiles.1, hfiles.2.archived⟩)
    exact fun _ => .pure fun _ hfiles => ⟨hfiles.1.1, hfiles.1.2.archived⟩
  unfold backUp
  rw [h.backup?_eq]
  apply Meets.bind ((readText_readOnly source).meets _)
  intro own
  split
  · apply Meets.bind ((findBackup_readOnly source).meets _)
    rintro (_ | backup)
    · exact .throw fun _ hfiles => hfiles
    · exact .pure fun _ hfiles => hfiles
  · simp only [require, pure_bind]
    apply Meets.bind_files
    intro found
    split
    · next hfile =>
        apply Meets.seq (fun _ files => files.hasFile (backupPath source) = true ∧
          files.current = current ∧ Archived source text files)
        · apply ((readText_readOnly (backupPath source)).meets fun files =>
            files.hasFile (backupPath source) = true ∧ files.current = current ∧
              Archived source text files).consequence
          · rintro files ⟨rfl, hfiles⟩
            exact ⟨hfile, hfiles⟩
          · exact fun _ _ hfiles => hfiles
          · exact fun _ hfiles => hfiles.2
        · intro kept
          split
          · exact .pure fun _ hfiles => hfiles.2
          · apply Meets.bind_files
            intro found
            apply Meets.seq (fun _ files => files.current = current ∧ MovedAside source text files)
            · constructor
              rintro files ⟨rfl, hfile, hcurrent, htext⟩
              obtain ⟨after, hmoved, hkept, haside⟩ := moveAside_archives h htext hfile now
              rw [backupPath] at hmoved
              rw [hmoved]
              exact ⟨hkept.trans hcurrent, haside⟩
            · exact fun _ => hwrite own
    · next hnone =>
        apply (hwrite own).consequence
        · rintro files ⟨rfl, hcurrent, htext⟩
          exact ⟨hcurrent, htext.movedAside (by simpa [backupPath] using hnone)⟩
        · exact fun _ _ hfiles => hfiles
        · exact fun _ hfiles => hfiles

theorem backUp_shim_keeps (h : source.Named) {property : Files → Prop}
    (hshim : ∀ files, property files → ∃ own, files.textAt? source = some own ∧ looksLikeShim own = true)
    (now : Moment) : Meets property (backUp source now) (fun _ => property) property := by
  constructor
  intro files hfiles
  obtain ⟨own, hown, hlooks⟩ := hshim files hfiles
  rw [backUp_eq h hown, if_pos hlooks]
  refine (ReadOnly.meets (ReadOnly.bind (findBackup_readOnly source) ?_) property).ends files hfiles
  rintro (_ | backup)
  · exact .throw _
  · exact .pure _

end ScriptSplit.Storage
