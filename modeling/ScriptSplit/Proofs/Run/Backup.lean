import Mathlib.Data.List.Nodup
import ScriptSplit.Proofs.Run.Recovery

/-!
# Backing up again

Once a source has been backed up, its text can be recovered, and backing it up again changes nothing. What
stops a backup stops it again.
-/

namespace ScriptSplit.Storage

variable {files first again after : Files} {source backup path : Path} {text own : Text} {now : Moment}

/-! ## What is read -/

theorem readOriginal_eq_ok :
    readOriginal source files = .ok (text, path) files ↔
      ∃ own, files.textAt? source = some own ∧
        (looksLikeShim own = false ∧ text = own ∧ path = source ∨
          looksLikeShim own = true ∧ findBackup source files = .ok (some path) files ∧
            files.textAt? path = some text) := by
  cases hown : files.textAt? source with
  | none =>
      obtain ⟨cause, hrun⟩ := readOriginal_of_textAt?_eq_none hown
      simp [hrun]
  | some own =>
      simp only [Option.some.injEq, exists_eq_left']
      cases hshim : looksLikeShim own with
      | false =>
          rw [readOriginal_of_plain hown hshim]
          simp [eq_comm]
      | true =>
          simp only [Bool.true_eq_false, false_and, true_and, false_or]
          constructor
          · intro hrun
            rw [readOriginal_of_shim ⟨own, hown, hshim⟩] at hrun
            obtain ⟨found, hfound, hrest⟩ := (findBackup_readOnly source).bind_eq_ok hrun
            cases found with
            | none => cases hrest
            | some backup =>
                obtain ⟨kept, hkept, hlast⟩ := (readText_readOnly backup).bind_eq_ok hrest
                cases hlast
                exact ⟨hfound, (readText_eq_ok.1 hkept).2⟩
          · rintro ⟨hfound, htext⟩
            exact readOriginal_of_findBackup_eq_some ⟨own, hown, hshim⟩ hfound htext

/-! ## Sources that can be recovered -/

/-- The text of a source is in a backup, and that is what the source is read from if it is a shim. -/
structure Recoverable (source backup : Path) (text : Text) (files : Files) : Prop where
  own : ∃ own, files.textAt? source = some own ∧
    (looksLikeShim own = true ∨
      own = text ∧ looksLikeShim text = false ∧ backup = backupPath source)
  found : findBackup source files = .ok (some backup) files
  saved : files.textAt? backup = some text

theorem Recoverable.readOriginal (h : Recoverable source backup text files) :
    ∃ path, readOriginal source files = .ok (text, path) files := by
  obtain ⟨own, hown, hshim | ⟨rfl, hplain, -⟩⟩ := h.own
  · exact ⟨backup, readOriginal_eq_ok.2 ⟨own, hown, Or.inr ⟨hshim, h.found, h.saved⟩⟩⟩
  · exact ⟨source, readOriginal_eq_ok.2 ⟨own, hown, Or.inl ⟨hplain, rfl, rfl⟩⟩⟩

/-- A plain backup with a text that is no shim is the best there is. -/
theorem findBackup_plain (h : source.Named) (hpattern : isNamePattern source.datedPattern = true)
    (htext : files.textAt? (backupPath source) = some text) (hplain : looksLikeShim text = false) :
    findBackup source files = .ok (some (backupPath source)) files := by
  have hfile : files.hasFile (backupPath source) = true := by
    obtain ⟨content, hat, -⟩ := Files.exists_of_textAt? htext
    simp [Files.hasFile, hat]
  have hstops : stops files (backupPath source) = true := by simp [stops, hfile, htext, hplain]
  rw [findBackup_eq h hpattern, firstUsable_eq, List.find?_cons, hstops]
  simp only [readText_eq_ok.2 ⟨rfl, htext⟩]

theorem backUp_eq (h : source.Named) (hown : files.textAt? source = some own) (now : Moment) :
    backUp source now files =
      if looksLikeShim own then
        (findBackup source >>= fun found =>
          match found with
          | some backup => pure backup
          | none => throw (.artifact (.shimWithoutBackup source))) files
      else
        (do
          if (← Storage.files).hasFile (backupPath source) then
            if (← readText (backupPath source)) = own then return backupPath source
            let files ← Storage.files
            let aside := freeDatedPath source now files 0 files.entries.length
            change (·.replace (backupPath source) aside)
          writeText (backupPath source) own
          return backupPath source : Storage Path) files := by
  unfold backUp
  rw [bind_eq (readText_eq_ok.2 ⟨rfl, hown⟩), h.backup?_eq]
  split <;> rfl

theorem Recoverable.backUp (h : Recoverable source backup text files) (hnamed : source.Named)
    (now : Moment) : backUp source now files = .ok backup files := by
  obtain ⟨own, hown, hcases⟩ := h.own
  rw [backUp_eq hnamed hown]
  by_cases hshim : looksLikeShim own = true
  · rw [if_pos hshim, bind_eq h.found]
    rfl
  · obtain ⟨rfl, hplain, rfl⟩ := hcases.resolve_left hshim
    have hfile : files.hasFile (backupPath source) = true := by
      obtain ⟨content, hat, -⟩ := Files.exists_of_textAt? h.saved
      simp [Files.hasFile, hat]
    rw [if_neg hshim, bind_eq (show Storage.files files = .ok files files from rfl), if_pos hfile,
      bind_eq (readText_eq_ok.2 ⟨rfl, h.saved⟩), if_pos rfl]
    rfl

/-! ## Moving a backup aside -/

theorem datedName_injective (source : Path) (now : Moment) :
    Function.Injective (datedName source now) := by
  intro m n hname
  simp only [datedName, String.append_left_inj, String.append_right_inj] at hname
  have hunderscore : ∀ k : Nat, "_" ++ toString k ≠ "" := by
    intro k hempty
    have hlength := congrArg String.length hempty
    rw [String.length_append] at hlength
    exact absurd hlength (by simp)
  by_cases hm : m = 0
  · by_cases hn : n = 0
    · rw [hm, hn]
    · rw [if_pos hm, if_neg hn] at hname
      exact absurd hname.symm (hunderscore n)
  · by_cases hn : n = 0
    · rw [if_neg hm, if_pos hn] at hname
      exact absurd hname (hunderscore m)
    · rw [if_neg hm, if_neg hn, String.append_right_inj] at hname
      exact Names.toString_injective hname

/-- A name is only taken if all names before it are. -/
theorem has_of_has_freeDatedPath (h : source.Named) {n fuel : Nat}
    (hhas : files.has (freeDatedPath source now files n fuel) = true) :
    ∀ k ≤ fuel, files.has (source.parent.child (datedName source now (n + k))) = true := by
  induction fuel generalizing n with
  | zero =>
      intro k hk
      obtain rfl : k = 0 := by omega
      rw [freeDatedPath, Path.div_name _ (isName_datedName h n)] at hhas
      exact hhas
  | succ fuel ih =>
      rw [freeDatedPath, Path.div_name _ (isName_datedName h n)] at hhas
      split at hhas
      · next hfirst =>
          intro k hk
          cases k with
          | zero => exact hfirst
          | succ k =>
              have hrest := ih hhas k (by omega)
              rwa [Nat.add_right_comm, Nat.add_assoc] at hrest
      · next hfirst => exact absurd hhas hfirst

/-- There are more names than there is anything that could have taken them. -/
theorem freeDatedPath_free (h : source.Named) (hstanding : files.Standing source.parent)
    (now : Moment) :
    files.has (freeDatedPath source now files 0 files.entries.length) = false := by
  rw [Bool.eq_false_iff]
  intro hhas
  have hall := has_of_has_freeDatedPath h hhas
  have hkeys : ∀ k ≤ files.entries.length,
      source.parent.place files.current ++ [datedName source now k] ∈ files.entries.map (·.1) := by
    intro k hk
    have htaken := hall k hk
    rw [Nat.zero_add, Files.has, hstanding.at?_child (isName_datedName h k).notUp, Files.entry?,
      if_neg (by simp), List.lookup_isSome_iff] at htaken
    obtain ⟨e, he, hplace⟩ := htaken
    exact List.mem_map.2 ⟨e, he, (beq_iff_eq.1 hplace).symm⟩
  have hnodup : ((List.range (files.entries.length + 1)).map fun k =>
      source.parent.place files.current ++ [datedName source now k]).Nodup := by
    apply List.Nodup.map _ List.nodup_range
    intro m n hplace
    apply datedName_injective source now
    simpa using hplace
  have hsubset : (List.range (files.entries.length + 1)).map (fun k =>
      source.parent.place files.current ++ [datedName source now k]) ⊆ files.entries.map (·.1) := by
    intro location hlocation
    obtain ⟨k, hk, rfl⟩ := List.mem_map.1 hlocation
    exact hkeys k (Nat.lt_succ_iff.1 (List.mem_range.1 hk))
  have hlength := hnodup.length_le_of_subset hsubset
  rw [List.length_map, List.length_map, List.length_range] at hlength
  omega

theorem moveAside_eq (h : source.Named) (hstanding : files.Standing source.parent)
    {content : Content}
    (hfile : files.entry? (source.parent.place files.current ++ [source.backupName]) =
      some (.file content)) (now : Moment) :
    ∃ k, datedName source now k ≠ source.backupName ∧
      files.entry? (source.parent.place files.current ++ [datedName source now k]) = none ∧
      change (·.replace (backupPath source)
        (freeDatedPath source now files 0 files.entries.length)) files =
          .ok () ((files.remove (source.parent.place files.current ++ [source.backupName])).put
            (source.parent.place files.current ++ [datedName source now k]) (.file content)) := by
  obtain ⟨k, haside⟩ := freeDatedPath_eq h now files 0 files.entries.length
  have hfree := freeDatedPath_free h hstanding now
  have hup : datedName source now k ≠ ".." := (isName_datedName h k).notUp
  rw [haside, Files.has, hstanding.at?_child hup, Option.isSome_eq_false_iff,
    Option.isNone_iff_eq_none] at hfree
  refine ⟨k, ?_, hfree, ?_⟩
  · intro hname
    rw [hname, hfile] at hfree
    cases hfree
  · simp only [change, haside, Files.replace, backupPath, hstanding.locate_child,
      Path.place_child h.isName_backupName.notUp, Path.place_child hup, hfile, hfree]

/-! ## What stops a backup -/

/-- What stops a text from becoming the plain backup: a file there that is no text, or a directory in one
of the two places. -/
inductive Blocked (source : Path) (text : Text) (files : Files) : Prop where
  | unreadable {content : Content} {cause : Utf8Error}
    (plain : files.entry? (source.parent.place files.current ++ [source.backupName]) =
      some (.file content))
    (decoded : content.decoded = .error cause)
  | beside
    (plain : files.contentAt? (source.parent.place files.current ++ [source.backupName]) = none)
    (aside : files.entry? (asideOf source.parent source.backupName files.current) =
      some .directory)
  | covered
    (plain : files.entry? (source.parent.place files.current ++ [source.backupName]) =
      some .directory)
    (aside : files.entry? (asideOf source.parent source.backupName files.current) =
      some (.file (.text text)))

theorem Blocked.changes {touched made : Set Location} (h : Blocked source text first)
    (hchanges : Files.Changes touched made first again)
    (htouched : ∀ location ∈ touchedBy source.parent source.backupName first.current,
      location ∉ touched) : Blocked source text again := by
  have hplain := htouched (source.parent.place first.current ++ [source.backupName]) (Or.inl rfl)
  have haside := htouched (asideOf source.parent source.backupName first.current) (Or.inr rfl)
  cases h with
  | unreadable hfile hdecoded =>
      exact .unreadable (by rw [hchanges.current]; exact hchanges.entry?_eq_some hplain hfile)
        hdecoded
  | beside hnone hdirectory =>
      refine .beside ?_ ?_
      · rw [hchanges.current, hchanges.contentAt?_eq hplain]
        exact hnone
      · rw [hchanges.current]
        exact hchanges.directory _ hdirectory
  | covered hdirectory hfile =>
      refine .covered ?_ ?_
      · rw [hchanges.current]
        exact hchanges.directory _ hdirectory
      · rw [hchanges.current]
        exact hchanges.entry?_eq_some haside hfile

section Outcome

variable (h : source.Named) (hstanding : files.Standing source.parent)

include h hstanding

theorem writeBackup_outcome
    (hnone : files.contentAt? (source.parent.place files.current ++ [source.backupName]) = none)
    (text : Text) :
    match writeText (backupPath source) text files with
    | .ok _ after => Files.Changes (backupPlaces source files.current) ∅ files after ∧
        after.textAt? (backupPath source) = some text
    | .error _ after => Files.Changes (backupPlaces source files.current) ∅ files after ∧
        Blocked source text after := by
  have hup := h.isName_backupName.notUp
  have hunderscored := Path.underscored_backupName source
  have hplaces : touchedBy source.parent source.backupName files.current ⊆
      backupPlaces source files.current := by
    rintro location (rfl | rfl)
    · exact ⟨_, hunderscored, rfl⟩
    · exact ⟨_, hunderscored.temporary, rfl⟩
  have haside : {asideOf source.parent source.backupName files.current} ⊆
      backupPlaces source files.current :=
    Set.singleton_subset_iff.2 (hplaces (Or.inr rfl))
  have hchanges := writeText_standing_changes hstanding hup text
  have hwrite := writeText_standing hstanding hup text
  simp only [show source.parent.place files.current ++ [Path.temporaryName source.backupName] =
    asideOf source.parent source.backupName files.current from rfl] at hwrite
  by_cases hblocked : files.entry? (asideOf source.parent source.backupName files.current) =
      some .directory
  · rw [if_pos hblocked] at hwrite
    rw [backupPath, hwrite]
    exact ⟨.refl .., .beside hnone hblocked⟩
  rw [if_neg hblocked] at hwrite
  by_cases hcovered : files.entry? (source.parent.place files.current ++ [source.backupName]) =
      some .directory
  · rw [if_pos hcovered] at hwrite
    rw [hwrite] at hchanges
    have hne : asideOf source.parent source.backupName files.current ≠ [] := by simp [asideOf]
    rw [backupPath, hwrite]
    refine ⟨hchanges.mono haside (Set.Subset.refl _), .covered ?_ ?_⟩
    · rw [hchanges.current]
      exact hchanges.directory _ hcovered
    · rw [hchanges.current, Files.entry?_put _ hne, if_pos rfl]
  · rw [if_neg hcovered] at hwrite
    rw [hwrite] at hchanges
    rw [backupPath, hwrite]
    exact ⟨hchanges.1.mono hplaces (Set.Subset.refl _), Files.textAt?_of_at? hchanges.2⟩

/-- A source that is no shim is backed up under the plain name or not at all. -/
theorem backUp_outcome (hown : files.textAt? source = some text)
    (hplain : looksLikeShim text = false) (now : Moment) :
    match backUp source now files with
    | .ok backup after => backup = backupPath source ∧
        Files.Changes (backupPlaces source files.current) ∅ files after ∧
          after.textAt? (backupPath source) = some text
    | .error _ after => Files.Changes (backupPlaces source files.current) ∅ files after ∧
        Blocked source text after := by
  have hup := h.isName_backupName.notUp
  have hwritten : ∀ before : Files,
      Files.Changes (backupPlaces source files.current) ∅ files before →
        before.contentAt? (source.parent.place files.current ++ [source.backupName]) = none →
          match (do writeText (backupPath source) text; return backupPath source : Storage Path)
            before with
          | .ok backup after => backup = backupPath source ∧
              Files.Changes (backupPlaces source files.current) ∅ files after ∧
                after.textAt? (backupPath source) = some text
          | .error _ after => Files.Changes (backupPlaces source files.current) ∅ files after ∧
              Blocked source text after := by
    intro before hbefore hnone
    have hwrite := writeBackup_outcome h (hbefore.standing hstanding)
      (by rw [hbefore.current]; exact hnone) text
    rw [hbefore.current] at hwrite
    show match EStateM.bind (writeText (backupPath source) text)
      (fun _ => Pure.pure (backupPath source)) before with
      | .ok backup after => _
      | .error _ after => _
    simp only [EStateM.bind]
    cases hrun : writeText (backupPath source) text before with
    | ok _ after =>
        rw [hrun] at hwrite
        exact ⟨rfl, hbefore.trans hwrite.1, hwrite.2⟩
    | error cause after =>
        rw [hrun] at hwrite
        exact ⟨hbefore.trans hwrite.1, hwrite.2⟩
  rw [backUp_eq h hown, if_neg (by simp [hplain]),
    bind_eq (show Storage.files files = .ok files files from rfl)]
  by_cases hfile : files.hasFile (backupPath source) = true
  · rw [if_pos hfile]
    rw [backupPath, hstanding.hasFile_child hup, Option.isSome_iff_exists] at hfile
    obtain ⟨content, hcontent⟩ := hfile
    rw [Files.contentAt?_eq_some] at hcontent
    have hread := readText_child hstanding hup
    rw [hcontent] at hread
    cases hdecoded : content.decoded with
    | error cause =>
        simp only [hdecoded] at hread
        rw [bind_error (show readText (backupPath source) files = .error (.undecodable cause) files from hread)]
        exact ⟨.refl .., .unreadable hcontent hdecoded⟩
    | ok kept =>
        simp only [hdecoded] at hread
        rw [bind_eq (show readText (backupPath source) files = .ok kept files from hread)]
        by_cases hkept : kept = text
        · rw [if_pos hkept]
          subst hkept
          exact ⟨rfl, .refl .., (readText_eq_ok.1 hread).2⟩
        · rw [if_neg hkept]
          obtain ⟨k, hne, hfree, hmoved⟩ := moveAside_eq h hstanding hcontent now
          rw [bind_eq (show Storage.files files = .ok files files from rfl), bind_eq hmoved]
          have hplace : source.parent.place files.current ++ [source.backupName] ≠ [] := by simp
          have hplace' : source.parent.place files.current ++ [datedName source now k] ≠ [] := by simp
          have hchanges : Files.Changes (backupPlaces source files.current) ∅ files
              ((files.remove (source.parent.place files.current ++ [source.backupName])).put
                (source.parent.place files.current ++ [datedName source now k]) (.file content)) := by
            refine (Files.move_changes hcontent (by simp [hfree])).mono ?_ (Set.Subset.refl ∅)
            rintro location (rfl | rfl)
            · exact ⟨_, Path.underscored_backupName source, rfl⟩
            · exact ⟨_, underscored_datedName source now k, rfl⟩
          apply hwritten _ hchanges
          have hdiff : source.parent.place files.current ++ [source.backupName] ≠
              source.parent.place files.current ++ [datedName source now k] := by
            simpa using hne.symm
          unfold Files.contentAt?
          rw [Files.entry?_put _ hplace', if_neg hdiff, Files.entry?_remove _ hplace, if_pos rfl]
  · rw [if_neg hfile]
    apply hwritten _ (.refl ..)
    rw [backupPath, hstanding.hasFile_child hup] at hfile
    simpa using hfile

end Outcome

end ScriptSplit.Storage
