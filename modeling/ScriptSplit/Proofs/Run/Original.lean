import ScriptSplit.Proofs.Run.Places
import ScriptSplit.Proofs.Run.Stored

/-!
# Keeping the text of a source

After a backup has been made, the text of the source stands beside it under the plain backup name. Until
then the source itself has not changed.
-/

namespace ScriptSplit

/-! ## Names of backups that are moved aside -/

namespace Moment

theorem noSlash_repr (n : Nat) : '/' ∉ (toString n).toList := by
  intro hmem
  have hdigit : '/' ∈ Nat.toDigits 10 n := by
    rw [← Nat.toList_repr]
    exact hmem
  exact absurd (Nat.isDigit_of_mem_toDigits (by decide) (by decide) hdigit) (by decide)

theorem noSlash_padded (width n : Nat) : '/' ∉ (padded width n).toList := by
  simp only [padded, String.toList_append, String.toList_ofList, List.mem_append, not_or]
  exact ⟨by simp [List.mem_replicate], noSlash_repr n⟩

theorem noSlash_stamp (m : Moment) : '/' ∉ m.stamp.toList := by
  simp [stamp, noSlash_padded]

end Moment

namespace Storage

variable {source : Path} {now : Moment}

theorem isName_datedName (h : source.Named) (n : Nat) : Path.IsName (datedName source now n) := by
  have hnumber : '/' ∉ (if n = 0 then "" else "_" ++ toString n).toList := by
    split
    · simp
    · rw [String.toList_append, List.mem_append, not_or]
      exact ⟨by decide, Moment.noSlash_repr n⟩
  have hold : ("_old_" : String).toList = ['_', 'o', 'l', 'd', '_'] := by decide
  apply Path.isName_of_mem (c := '_')
  · simp only [datedName, String.toList_append, List.mem_append, not_or]
    exact ⟨⟨⟨⟨h.noSlash.1, by decide⟩, Moment.noSlash_stamp now⟩, hnumber⟩, h.noSlash.2⟩
  · simp [datedName]
  · decide

theorem underscored_datedName (source : Path) (now : Moment) (n : Nat) :
    source.Underscored (datedName source now n) := by
  have hbase : source.Underscored (source.basename ++ "_old_") := ⟨"_old_", rfl, by decide⟩
  exact ((hbase.append _).append _).append _

theorem freeDatedPath_eq (h : source.Named) (now : Moment) (files : Files) (n fuel : Nat) :
    ∃ k, freeDatedPath source now files n fuel = source.parent.child (datedName source now k) := by
  induction fuel generalizing n with
  | zero => exact ⟨n, Path.div_name _ (isName_datedName h n)⟩
  | succ fuel ih =>
      simp only [freeDatedPath]
      split
      · exact ih (n + 1)
      · exact ⟨n, Path.div_name _ (isName_datedName h n)⟩

end Storage

/-! ## Moving a file -/

namespace Files

theorem move_changes {files : Files} {origin goal : Location} {content : Content}
    (hfile : files.entry? origin = some (.file content)) (hfree : files.entry? goal ≠ some .directory) :
    Changes {origin, goal} ∅ files ((files.remove origin).put goal (.file content)) := by
  have hnot : files.entry? origin ≠ some .directory := by
    rw [hfile]
    simp
  have hremove : Changes {origin, goal} ∅ files (files.remove origin) :=
    (remove_changes hnot).mono (by simp) (Set.Subset.refl ∅)
  have hmoved : Files.entry? (files.remove origin) goal ≠ some .directory := by
    have hne : origin ≠ [] := by
      rintro rfl
      exact hnot rfl
    rw [entry?_remove _ hne]
    split
    · simp
    · exact hfree
  exact hremove.trans ((put_file_changes hmoved content).mono (by simp) (Set.Subset.refl ∅))

theorem replace_changes {files after : Files} {path target : Path} {content : Content}
    (hfile : files.at? path = some (.file content))
    (hreplace : files.replace path target = .ok after) :
    Changes {path.place files.current, target.place files.current} ∅ files after := by
  obtain ⟨hlocate, hentry⟩ := at?_eq_some.1 hfile
  unfold replace at hreplace
  rw [hlocate] at hreplace
  cases htarget : files.locate target with
  | error kind => simp [htarget] at hreplace
  | ok destination =>
      have hdestination := locate_eq_ok htarget
      subst hdestination
      have hnot : files.entry? (target.place files.current) ≠ some .directory := by
        intro hdirectory
        simp [htarget, hentry, hdirectory] at hreplace
      have hafter : after = (files.remove (path.place files.current)).put
          (target.place files.current) (.file content) := by
        simp only [htarget, hentry] at hreplace
        exact (Except.ok.inj hreplace).symm
      subst hafter
      exact move_changes hentry hnot

theorem exists_of_hasFile {files : Files} {path : Path} (h : files.hasFile path = true) :
    ∃ content, files.at? path = some (.file content) := by
  unfold hasFile at h
  split at h
  · next content hcontent => exact ⟨content, hcontent⟩
  · cases h

end Files

namespace Storage

variable {source : Path} {now : Moment} {current : Location} {property : Files → Prop} {text : Text}

def backupPath (source : Path) : Path :=
  source.parent.child source.backupName

def backupPlaces (source : Path) (current : Location) : Set Location :=
  { location | ∃ name, source.Underscored name ∧
    location = source.parent.place current ++ [name] }

theorem touchedBy_backup_subset (source : Path) (current : Location) :
    touchedBy source.parent source.backupName current ⊆ backupPlaces source current := by
  have hbackup := Path.underscored_backupName source
  rintro location (rfl | rfl)
  · exact ⟨_, hbackup, rfl⟩
  · exact ⟨_, hbackup.temporary, rfl⟩

theorem backupPlaces_subset_compl (h : source.Named) (current : Location) :
    backupPlaces source current ⊆ {source.place current}ᶜ := by
  rintro location ⟨name, hname, rfl⟩
  exact (h.place_neighbour_ne ((Path.dotted_name h.name_ne_empty).ne hname)).symm

theorem moveAside_keeps (h : source.Named)
    (hstable : Stable current (backupPlaces source current) property) (found : Files) :
    Meets (fun files => property files ∧ files.hasFile (backupPath source) = true)
      (change (·.replace (backupPath source)
        (freeDatedPath source now found 0 found.entries.length)))
      (fun _ => property) property := by
  obtain ⟨k, haside⟩ := freeDatedPath_eq h now found 0 found.entries.length
  rw [haside]
  constructor
  rintro files ⟨hfiles, hfile⟩
  obtain ⟨content, hcontent⟩ := Files.exists_of_hasFile hfile
  simp only [change]
  cases hreplace : files.replace (backupPath source)
      (source.parent.child (datedName source now k)) with
  | error cause => exact hfiles
  | ok after =>
      refine hstable.changes _ _ ((Files.replace_changes hcontent hreplace).mono ?_
        (Set.empty_subset _)) hfiles
      rw [hstable.current files hfiles, backupPath, Path.place_child h.isName_backupName.notUp,
        Path.place_child (isName_datedName h k).notUp]
      rintro location (rfl | rfl)
      · exact ⟨_, Path.underscored_backupName source, rfl⟩
      · exact ⟨_, underscored_datedName source now k, rfl⟩

theorem secure_meets (h : source.Named)
    (hstable : Stable current (backupPlaces source current) property) (text : Text) (now : Moment) :
    Meets property
      (do
        if (← files).hasFile (backupPath source) then
          if (← readText (backupPath source)) = text then return backupPath source
          let files ← files
          let aside := freeDatedPath source now files 0 files.entries.length
          change (·.replace (backupPath source) aside)
        writeText (backupPath source) text
        return backupPath source)
      (fun backup files => backup = backupPath source ∧ property files ∧
        files.textAt? (backupPath source) = some text) property := by
  have hwrite : Meets property
      (do writeText (backupPath source) text; return backupPath source)
      (fun backup files => backup = backupPath source ∧ property files ∧
        files.textAt? (backupPath source) = some text) property := by
    apply Meets.bind (writeText_keeps h.isName_backupName.notUp
      (hstable.mono (touchedBy_backup_subset source current)) text)
    intro _
    exact .pure fun files hfiles => ⟨rfl, hfiles.1, Files.textAt?_of_at? hfiles.2⟩
  apply Meets.bind_files
  intro found
  split
  · next hfile =>
      apply Meets.seq (fun kept files =>
        (property files ∧ files.hasFile (backupPath source) = true) ∧
          files.textAt? (backupPath source) = some kept)
      · apply (readText_meets (backupPath source) fun files =>
          property files ∧ files.hasFile (backupPath source) = true).consequence
        · rintro files ⟨rfl, hfiles⟩
          exact ⟨hfiles, hfile⟩
        · exact fun _ _ hfiles => hfiles
        · exact fun _ hfiles => hfiles.1
      · intro kept
        split
        · next hkept => exact .pure fun files hfiles => ⟨rfl, hfiles.1.1, hkept ▸ hfiles.2⟩
        · apply Meets.bind_files
          intro found
          apply Meets.bind ((moveAside_keeps h hstable found).consequence
            (fun _ hfiles => hfiles.2.1) (fun _ _ hfiles => hfiles) fun _ hfiles => hfiles)
          exact fun _ => hwrite
  · exact hwrite.consequence (fun _ hfiles => hfiles.2) (fun _ _ hfiles => hfiles)
      fun _ hfiles => hfiles

/-- A backup that succeeds holds the text of the source, and whether it succeeds or not, only backups
change. -/
theorem backUp_meets (h : source.Named)
    (hstable : Stable current (backupPlaces source current) property)
    (htext : ∀ files, property files → files.textAt? source = some text)
    (hplain : looksLikeShim text = false) (now : Moment) :
    Meets property (backUp source now)
      (fun backup files => backup = backupPath source ∧ property files ∧
        files.textAt? (backupPath source) = some text) property := by
  unfold backUp
  rw [h.backup?_eq]
  apply Meets.seq (fun found files => found = text ∧ property files)
  · apply (readText_meets source property).consequence (fun _ hfiles => hfiles) _
      fun _ hfiles => hfiles
    intro found files hfiles
    have hsame := htext files hfiles.1
    rw [hfiles.2] at hsame
    exact ⟨Option.some.inj hsame, hfiles.1⟩
  · intro found
    apply Meets.assume
    rintro rfl
    rw [if_neg (by simp [hplain])]
    simp only [require, pure_bind]
    exact secure_meets h hstable found now

/-- Backing a source up changes nothing but backups. -/
theorem backUp_keeps (h : source.Named)
    (hstable : Stable current (backupPlaces source current) property) (now : Moment) :
    Meets property (backUp source now) (fun _ => property) property := by
  unfold backUp
  rw [h.backup?_eq]
  apply Meets.bind ((readText_readOnly source).meets property)
  intro own
  split
  · apply Meets.bind ((findBackup_readOnly source).meets property)
    rintro (_ | backup)
    · exact .throw fun _ hfiles => hfiles
    · exact .pure fun _ hfiles => hfiles
  · simp only [require, pure_bind]
    exact (secure_meets h hstable own now).consequence (fun _ hfiles => hfiles)
      (fun _ _ hfiles => hfiles.2.1) fun _ hfiles => hfiles

/-! ## What is read for a source -/

section Read

variable {files : Files} {path : Path}

def HoldsShim (files : Files) (path : Path) : Prop :=
  ∃ text, files.textAt? path = some text ∧ looksLikeShim text = true

theorem readOriginal_of_error {reason : Failure} (hread : readText source files = .error reason files) :
    readOriginal source files =
      .error (.analysis (.unreadableSource source.toString reason.message)) files := by
  rw [readOriginal, bind_eq (attempt_eq_error hread)]
  rcases (readText_eq_error.1 hread).2 with ⟨fault, -, rfl⟩ | ⟨content, fault, -, -, rfl⟩ <;> rfl

theorem readOriginal_of_plain (htext : files.textAt? source = some text) (hplain : looksLikeShim text = false) :
    readOriginal source files = .ok (text, source) files := by
  rw [readOriginal, bind_eq (attempt_eq_ok (readText_eq_ok.2 ⟨rfl, htext⟩))]
  simp only [hplain]
  rfl

section Shim

variable (hshim : HoldsShim files source)

include hshim

theorem readOriginal_of_shim :
    readOriginal source files =
      (do
        match (← findBackup source) with
        | some backup => return (← readText backup, backup)
        | none => throw (Failure.analysis (.shimWithoutBackup source.toString source.basename))) files := by
  obtain ⟨text, htext, hshim⟩ := hshim
  rw [readOriginal, bind_eq (attempt_eq_ok (readText_eq_ok.2 ⟨rfl, htext⟩))]
  exact congrFun (if_pos hshim) files

theorem readOriginal_of_findBackup_eq_error {cause : Failure}
    (hfails : findBackup source files = .error cause files) : readOriginal source files = .error cause files := by
  rw [readOriginal_of_shim hshim]
  exact bind_error hfails

theorem readOriginal_of_findBackup_eq_none (hnone : findBackup source files = .ok none files) :
    readOriginal source files =
      .error (.analysis (.shimWithoutBackup source.toString source.basename)) files := by
  rw [readOriginal_of_shim hshim, bind_eq hnone]
  rfl

theorem readOriginal_of_findBackup_eq_some (hsome : findBackup source files = .ok (some path) files)
    (htext : files.textAt? path = some text) : readOriginal source files = .ok (text, path) files := by
  rw [readOriginal_of_shim hshim, bind_eq hsome]
  exact bind_eq (readText_eq_ok.2 ⟨rfl, htext⟩)

end Shim

theorem readOriginal_of_textAt?_eq_none (h : files.textAt? source = none) :
    ∃ cause, readOriginal source files = .error cause files := by
  rcases readText_readOnly source files with ⟨text, hread⟩ | ⟨reason, hread⟩
  · rw [(readText_eq_ok.1 hread).2] at h
    cases h
  · exact ⟨_, readOriginal_of_error hread⟩

end Read

end Storage

end ScriptSplit
