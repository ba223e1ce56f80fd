import ScriptSplit.Proofs.Files.Place

/-!
# What operations on files change

No operation removes a directory. A file can only change at the places that an operation names, and
whatever else is new is a directory, at a place that the operation makes directories at.
-/

namespace ScriptSplit

namespace Files

/-- From one state to another, only files at `touched` places change, and new directories stand at
places in `made`. -/
structure Changes (touched made : Set Location) (before after : Files) : Prop where
  current : after.current = before.current
  directory : ∀ location, before.entry? location = some .directory →
    after.entry? location = some .directory
  kept : ∀ location, location ∉ touched →
    after.entry? location = before.entry? location ∨
      before.entry? location = none ∧ after.entry? location = some .directory ∧ location ∈ made
  fresh : ∀ location, after.entry? location = some .directory →
    before.entry? location = some .directory ∨ location ∈ made

namespace Changes

variable {touched touched' made made' : Set Location} {f g h : Files}

@[refl] theorem refl (touched made : Set Location) (f : Files) : Changes touched made f f where
  current := rfl
  directory _ hentry := hentry
  kept _ _ := Or.inl rfl
  fresh _ hentry := Or.inl hentry

theorem trans (hfg : Changes touched made f g) (hgh : Changes touched made g h) :
    Changes touched made f h where
  current := hgh.current.trans hfg.current
  directory location hentry := hgh.directory location (hfg.directory location hentry)
  kept location hlocation := by
    rcases hfg.kept location hlocation with hsame | ⟨hnone, hnew, hmade⟩
    · rw [← hsame]
      exact hgh.kept location hlocation
    · exact Or.inr ⟨hnone, hgh.directory location hnew, hmade⟩
  fresh location hentry := by
    rcases hgh.fresh location hentry with hbetween | hmade
    · exact hfg.fresh location hbetween
    · exact Or.inr hmade

theorem mono (htouched : touched ⊆ touched') (hmade : made ⊆ made')
    (hfg : Changes touched made f g) : Changes touched' made' f g where
  current := hfg.current
  directory := hfg.directory
  kept location hlocation := by
    rcases hfg.kept location (fun hmem => hlocation (htouched hmem)) with
      hsame | ⟨hnone, hnew, hmem⟩
    · exact Or.inl hsame
    · exact Or.inr ⟨hnone, hnew, hmade hmem⟩
  fresh location hentry := (hfg.fresh location hentry).imp_right fun hmem => hmade hmem

theorem congr {g' : Files} (hfg : Changes touched made f g) (hcurrent : g'.current = g.current)
    (hentry : ∀ location, g'.entry? location = g.entry? location) : Changes touched made f g' where
  current := hcurrent.trans hfg.current
  directory location hdirectory := by
    rw [hentry]
    exact hfg.directory location hdirectory
  kept location hlocation := by
    rw [hentry]
    exact hfg.kept location hlocation
  fresh location hdirectory := by
    rw [hentry] at hdirectory
    exact hfg.fresh location hdirectory

theorem entry?_eq_some {location : Location} {entry : Entry} (hfg : Changes touched made f g)
    (hlocation : location ∉ touched) (hentry : f.entry? location = some entry) :
    g.entry? location = some entry := by
  rcases hfg.kept location hlocation with hsame | ⟨hnone, -, -⟩
  · rw [hsame, hentry]
  · rw [hnone] at hentry
    cases hentry

theorem entry?_eq {location : Location} (hfg : Changes touched made f g)
    (htouched : location ∉ touched) (hmade : location ∉ made) :
    g.entry? location = f.entry? location := by
  rcases hfg.kept location htouched with hsame | ⟨-, -, hmem⟩
  · exact hsame
  · exact absurd hmem hmade

theorem walk_eq_ok (hfg : Changes touched made f g) {parts : List String} {start location : Location}
    (hwalk : f.walk start parts = .ok location) : g.walk start parts = .ok location := by
  induction parts generalizing start with
  | nil => exact hwalk
  | cons part parts ih =>
      simp only [walk] at hwalk ⊢
      cases hentry : f.entry? start with
      | none => simp [hentry] at hwalk
      | some entry =>
          cases entry with
          | file content => simp [hentry] at hwalk
          | directory =>
              rw [hfg.directory _ hentry]
              rw [hentry] at hwalk
              exact ih hwalk

theorem locate_eq_ok {path : Path} {location : Location} (hfg : Changes touched made f g)
    (hlocate : f.locate path = .ok location) : g.locate path = .ok location := by
  unfold locate at hlocate ⊢
  rw [hfg.current]
  exact hfg.walk_eq_ok hlocate

theorem standing {path : Path} (hfg : Changes touched made f g) (h : f.Standing path) :
    g.Standing path := by
  apply at?_eq_some.2
  rw [hfg.current]
  exact ⟨hfg.locate_eq_ok h.locate, hfg.directory _ h.entry?⟩

theorem at?_eq_some {path : Path} {entry : Entry} (hfg : Changes touched made f g)
    (hpath : path.place f.current ∉ touched) (hat : f.at? path = some entry) :
    g.at? path = some entry := by
  obtain ⟨hlocate, hentry⟩ := Files.at?_eq_some.1 hat
  apply Files.at?_eq_some.2
  rw [hfg.current]
  exact ⟨hfg.locate_eq_ok hlocate, hfg.entry?_eq_some hpath hentry⟩

end Changes

variable {files : Files} {path : Path} {location : Location}

theorem put_file_changes (hentry : files.entry? location ≠ some .directory) (content : Content) :
    Changes {location} ∅ files (files.put location (.file content)) := by
  have hne : location ≠ [] := by
    rintro rfl
    exact hentry rfl
  constructor
  · rfl
  · intro other hother
    have hdiff : other ≠ location := by
      rintro rfl
      exact hentry hother
    rw [entry?_put files hne, if_neg hdiff, hother]
  · intro other hother
    left
    rw [entry?_put files hne, if_neg (by simpa using hother)]
  · intro other hother
    left
    rw [entry?_put files hne] at hother
    split at hother
    · simp at hother
    · exact hother

theorem put_directory_changes (hentry : files.entry? location = none) :
    Changes ∅ {location} files (files.put location .directory) := by
  have hne : location ≠ [] := by
    rintro rfl
    simp at hentry
  constructor
  · rfl
  · intro other hother
    rw [entry?_put files hne, hother, ite_self]
  · intro other _
    rw [entry?_put files hne]
    by_cases hdiff : other = location
    · subst hdiff
      right
      simp [hentry]
    · left
      rw [if_neg hdiff]
  · intro other hother
    rw [entry?_put files hne] at hother
    split at hother
    · next heq => exact Or.inr heq
    · exact Or.inl hother

theorem remove_changes (hentry : files.entry? location ≠ some .directory) :
    Changes {location} ∅ files (files.remove location) := by
  have hne : location ≠ [] := by
    rintro rfl
    exact hentry rfl
  constructor
  · rfl
  · intro other hother
    have hdiff : other ≠ location := by
      rintro rfl
      exact hentry hother
    rw [entry?_remove files hne, if_neg hdiff, hother]
  · intro other hother
    left
    rw [entry?_remove files hne, if_neg (by simpa using hother)]
  · intro other hother
    left
    rw [entry?_remove files hne] at hother
    split at hother
    · cases hother
    · exact hother

theorem write_eq_ok {content : Content} {after : Files} (hwrite : files.write path content = .ok after) :
    Changes {path.place files.current} ∅ files after ∧
      after.entry? (path.place files.current) = some (.file content) := by
  unfold write at hwrite
  cases hlocate : files.locate path with
  | error kind => simp [hlocate] at hwrite
  | ok location =>
      obtain rfl := locate_eq_ok hlocate
      simp only [hlocate] at hwrite
      have hentry : files.entry? (path.place files.current) ≠ some .directory := by
        intro hdirectory
        simp [hdirectory] at hwrite
      have hne : path.place files.current ≠ [] := by
        intro hroot
        rw [hroot] at hentry
        exact hentry (entry?_root files)
      have hafter : after = files.put (path.place files.current) (.file content) := by
        split at hwrite
        · cases hwrite
        · exact (Except.ok.inj hwrite).symm
        · split at hwrite
          · exact (Except.ok.inj hwrite).symm
          all_goals cases hwrite
      subst hafter
      exact ⟨put_file_changes hentry content, by rw [entry?_put files hne, if_pos rfl]⟩

/-! ## Directories -/

theorem makeDirectory_eq_ok {after : Files} (hmake : files.makeDirectory path = .ok after) :
    Changes ∅ {path.place files.current} files after ∧ after.Standing path := by
  unfold makeDirectory at hmake
  cases hlocate : files.locate path with
  | error kind => simp [hlocate] at hmake
  | ok location =>
      have hplace := locate_eq_ok hlocate
      subst hplace
      simp only [hlocate] at hmake
      cases hentry : files.entry? (path.place files.current) with
      | some entry => simp [hentry] at hmake
      | none =>
          simp only [hentry, Except.ok.injEq] at hmake
          subst hmake
          have hchanges := put_directory_changes hentry
          have hne : path.place files.current ≠ [] := by
            intro hroot
            rw [hroot] at hentry
            simp at hentry
          refine ⟨hchanges, at?_eq_some.2 ⟨hchanges.locate_eq_ok hlocate, ?_⟩⟩
          rw [current_put, entry?_put files hne, if_pos rfl]

theorem makeDirectories_standing (h : files.Standing path) (depth : Nat) :
    files.makeDirectories path (depth + 1) = (.ok (), files) := by
  have hdirectory : files.hasDirectory path = true := hasDirectory_iff_standing.2 h
  simp [makeDirectories, makeDirectory, h.locate, h.entry?, hdirectory]

theorem makeDirectories_changes (files : Files) (path : Path) (depth : Nat) :
    Changes ∅ (path.way files.current) files (files.makeDirectories path depth).2 := by
  induction depth generalizing path with
  | zero => exact .refl ..
  | succ depth ih =>
      have hmade : ∀ {before after : Files}, before.current = files.current →
          before.makeDirectory path = .ok after →
          Changes ∅ (path.way files.current) before after := by
        intro before after hcurrent hmake
        refine (makeDirectory_eq_ok hmake).1.mono (Set.Subset.refl _) ?_
        rw [hcurrent, Set.singleton_subset_iff]
        exact path.place_mem_way _
      unfold makeDirectories
      split
      · next hmake => exact hmade rfl hmake
      · split
        · have hparent := (ih path.parent).mono (Set.Subset.refl _)
            (path.way_parent_subset files.current)
          split
          · next hmake => rw [hmake] at hparent; exact hparent
          · next made hmake =>
              rw [hmake] at hparent
              split
              · next hlast => exact hparent.trans (hmade hparent.current hlast)
              · split <;> exact hparent
        · split <;> exact .refl ..

theorem makeDirectories_eq_ok {depth : Nat} {after : Files}
    (hmake : files.makeDirectories path depth = (.ok (), after)) : after.Standing path := by
  cases depth with
  | zero => simp [makeDirectories] at hmake
  | succ depth =>
      unfold makeDirectories at hmake
      split at hmake
      · next hfirst =>
          cases hmake
          exact (makeDirectory_eq_ok hfirst).2
      · split at hmake
        · split at hmake
          · cases hmake
          · split at hmake
            · next hlast =>
                cases hmake
                exact (makeDirectory_eq_ok hlast).2
            · split at hmake
              · next hdirectory =>
                  cases hmake
                  exact hasDirectory_iff_standing.1 hdirectory
              · cases hmake
        · split at hmake
          · next hdirectory =>
              cases hmake
              exact hasDirectory_iff_standing.1 hdirectory
          · cases hmake

/-! ## Directories below one that stands -/

variable {top : Path} {name : String}

theorem makeDirectory_child (h : files.Standing top) (hname : name ≠ "..") :
    files.makeDirectory (top.child name) =
      match files.entry? (top.place files.current ++ [name]) with
      | some _ => .error { kind := .exists, path := top.child name }
      | none => .ok (files.put (top.place files.current ++ [name]) .directory) := by
  have hat : files.locate (top.child name) = .ok (top.place files.current ++ [name]) := by
    rw [h.locate_child, Path.place_child hname]
  cases hentry : files.entry? (top.place files.current ++ [name]) <;>
    simp only [makeDirectory, hat, hentry]

theorem makeDirectories_child (h : files.Standing top) (hname : name ≠ "..") (depth : Nat) :
    files.makeDirectories (top.child name) (depth + 1) =
      match files.entry? (top.place files.current ++ [name]) with
      | some .directory => (.ok (), files)
      | some (.file _) => (.error { kind := .exists, path := top.child name }, files)
      | none => (.ok (), files.put (top.place files.current ++ [name]) .directory) := by
  have hat := h.at?_child hname
  rw [makeDirectories, makeDirectory_child h hname]
  cases hentry : files.entry? (top.place files.current ++ [name]) with
  | none => rfl
  | some entry =>
      rw [hentry] at hat
      cases entry <;> simp [hasDirectory, hat]

/-- A directory two levels down: a file on the first level stops the way there, and so does one in the
place of the directory itself. -/
theorem makeDirectories_grandchild {group : String} (h : files.Standing top) (hname : name ≠ "..")
    (hgroup : group ≠ "..") (depth : Nat) :
    let path := (top.child name).child group
    let upper := top.place files.current ++ [name]
    let lower := top.place files.current ++ [name] ++ [group]
    files.makeDirectories path (depth + 2) =
      match files.entry? upper with
      | some (.file _) => (.error { kind := .notDirectory, path }, files)
      | some .directory =>
        match files.entry? lower with
        | some .directory => (.ok (), files)
        | some (.file _) => (.error { kind := .exists, path }, files)
        | none => (.ok (), files.put lower .directory)
      | none =>
        match files.entry? lower with
        | some .directory => (.ok (), files.put upper .directory)
        | some (.file _) => (.error { kind := .exists, path }, files.put upper .directory)
        | none => (.ok (), (files.put upper .directory).put lower .directory) := by
  intro path upper lower
  have hplace : (top.child name).place files.current = upper := Path.place_child hname _
  have hat := h.at?_child hname
  have hlocate : files.locate path =
      match files.entry? upper with
      | some .directory => .ok lower
      | some (.file _) => .error .notDirectory
      | none => .error .notFound := by
    have hwalk : files.walk ((top.child name).start files.current) (top.child name).parts =
        .ok upper := hplace ▸ h.locate_child name
    show files.walk ((top.child name).start files.current) ((top.child name).parts ++ [group]) = _
    rw [walk_append, hwalk]
    simp only [walk, if_neg hgroup]
    rfl
  cases hupper : files.entry? upper with
  | some entry =>
      cases entry with
      | directory =>
          have hstanding : files.Standing (top.child name) := hat.trans hupper
          have hmake := makeDirectories_child hstanding hgroup (depth + 1)
          rw [hplace] at hmake
          exact hmake
      | file content =>
          rw [hupper] at hlocate
          simp [makeDirectories, makeDirectory, hasDirectory, at?, hlocate]
  | none =>
      rw [hupper] at hlocate
      have hne : upper ≠ [] := by simp [upper]
      have hmade : Files.entry? (files.put upper .directory) upper = some .directory := by
        rw [entry?_put files hne, if_pos rfl]
      have hstanding : (files.put upper .directory).Standing (top.child name) := by
        have hchanges := put_directory_changes hupper
        exact ((hchanges.standing h).at?_child hname).trans hmade
      have hlower : Files.entry? (files.put upper .directory) lower = files.entry? lower := by
        rw [entry?_put files hne, if_neg (by simp [lower, upper])]
      have hlast := makeDirectory_child hstanding hgroup
      have hatLast := hstanding.at?_child hgroup
      rw [current_put, hplace] at hlast hatLast
      rw [show upper ++ [group] = lower from rfl, hlower] at hlast hatLast
      have hfirst := makeDirectories_child h hname depth
      rw [show files.entry? (top.place files.current ++ [name]) = none from hupper] at hfirst
      rw [makeDirectories, makeDirectory, hlocate]
      simp only [path, Path.child_parent, hfirst]
      rw [hlast]
      cases hentry : files.entry? lower with
      | none => simp [upper]
      | some entry =>
          rw [hentry] at hatLast
          cases entry <;> simp [hasDirectory, hatLast, upper]

end Files

end ScriptSplit
