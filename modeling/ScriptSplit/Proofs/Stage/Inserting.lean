import ScriptSplit.Proofs.Link.Settled
import ScriptSplit.Proofs.Stage.Rerun

/-!
# Inserting imports into files

Every module that needs imports gets them in its own file, once, and no other file changes. Where no module misses
an import, nothing is inserted and every file stays as it is.
-/

namespace ScriptSplit

open Storage (touchedBy)

/-! ## What is needed -/

/-- Whether every module stands once among those that need names, takes imports, and needs nothing but names
that modules declare. -/
structure NeededNames.Fits (needed : NeededNames) (layout : Layout) : Prop where
  keys : (needed.map (·.1)).Nodup
  within : needed.Within layout.slugs
  accepts : ∀ entry ∈ needed, layout.acceptsImports entry.1 = true
  declared : ∀ entry ∈ needed, ∀ name ∈ entry.2, (layout.moduleOfName.get? name).isSome = true

namespace NeededNames.Fits

variable {needed : NeededNames} {layout : Layout} {slug name : String}

theorem none (layout : Layout) : Fits [] layout := by
  constructor <;> simp [Within]

theorem add (h : needed.Fits layout) (hslug : slug ∈ layout.slugs)
    (haccepts : layout.acceptsImports slug = true)
    (hname : (layout.moduleOfName.get? name).isSome = true) : (needed.add slug name).Fits layout where
  keys := Table.nodup_keys_put h.keys _ _
  within := h.within.add hslug name
  accepts entry hentry := by
    rcases Table.mem_put hentry with rfl | hold
    · exact haccepts
    · exact h.accepts entry hold
  declared entry hentry other hother := by
    rcases Table.mem_put hentry with rfl | hold
    · rcases Names.mem_insert.1 hother with rfl | hother
      · exact hname
      · cases hget : needed.get? slug with
        | none => simp [hget] at hother
        | some names => exact h.declared _ (Table.mem_of_get? hget) other (by simpa [hget] using hother)
    · exact h.declared entry hold other hother

theorem names_sorted (h : needed.Fits layout) (slug : String) :
    needed.sorted.names slug = needed.names slug := by
  have hperm : needed.sorted.Perm needed := List.mergeSort_perm ..
  rw [NeededNames.names, NeededNames.names, Table.get?_perm h.keys hperm]

end NeededNames.Fits

namespace Layout

variable {layout : Layout} {files : Files}

theorem calledNames_fits (hclosed : layout.Closed) (hnamed : layout.Named) (calls : List CallEdge) :
    (layout.calledNames calls).Fits layout := by
  apply calledNames_rec fun needed => needed.Fits layout
  · exact .none layout
  · intro needed edge _ importer himporter hneeded
    obtain ⟨-, haccepts, -, hsome⟩ := (importerOf?_eq_some hnamed).1 himporter
    exact hneeded.add (hclosed.importerOf? himporter) haccepts hsome

theorem preview_fits (h : layout.OneLine) (hunambiguous : Unambiguous layout.moduleOfName) :
    (layout.preview files).needed.Fits layout := by
  apply ImportPreview.needed_rec fun needed => needed.Fits layout
  · exact .none layout
  · rintro needed ⟨slug, lines⟩ hentry line hline name hname hneeded
    obtain ⟨hslug, haccepts, hproposed⟩ := exists_mem_preview.1 ⟨lines, hentry, hline⟩
    refine hneeded.add hslug haccepts ?_
    cases htext : files.textAt? (layout.file slug) with
    | none => simp [proposed_eq_nil htext] at hproposed
    | some text =>
        rw [proposed_eq htext] at hproposed
        obtain ⟨other, target, hget, -, -, -, hother⟩ := (mem_mentionedLines hunambiguous).1 hproposed
        obtain ⟨hexportable, hbreak⟩ := h.names other target hget
        rw [ImportPreview.nameIn?_importLine hexportable hbreak hother, Option.some.injEq] at hname
        rw [← hname, hget]
        rfl

end Layout

/-! ## One file -/

theorem insertImports_of_count {text : Text} {wanted : List String}
    (hcount : (insertImports text wanted).2 = 0) : (insertImports text wanted).1 = text := by
  unfold insertImports at hcount ⊢
  by_cases hempty : (Insertion.missing text wanted).isEmpty = true
  · simp only [hempty, if_true]
  · simp only [hempty] at hcount
    exact absurd (List.isEmpty_iff.2 (List.length_eq_zero_iff.1 hcount)) hempty

theorem insertImports_of_missing {text : Text} {wanted : List String}
    (hmissing : Insertion.missing text wanted = []) : insertImports text wanted = (text, 0) := by
  unfold insertImports
  rw [hmissing]
  rfl

namespace Files.Changes

variable {touched made : Set Location} {before after : Files} {directory : Path} {name : String}

theorem at?_child_eq (h : Changes touched made before after) (hstanding : before.Standing directory)
    (hname : name ≠ "..") (htouched : directory.place before.current ++ [name] ∉ touched)
    (hmade : directory.place before.current ++ [name] ∉ made) :
    after.at? (directory.child name) = before.at? (directory.child name) := by
  rw [(h.standing hstanding).at?_child hname, hstanding.at?_child hname, h.current,
    h.entry?_eq htouched hmade]

end Files.Changes

namespace Run

variable {surroundings : Surroundings} {s s' : RunState} {layout : Layout} {directory : Path}
  {name slug : String} {files after : Files}

/-- What inserting lines into a file comes to. -/
theorem insertInto_changes (hstanding : files.Standing directory) (hname : name ≠ "..")
    {lines : List String} {count : Nat}
    (hrun : insertInto (directory.child name) lines files = .ok count after) :
    Files.Changes (touchedBy directory name files.current) ∅ files after ∧
      ∃ text, files.textAt? (directory.child name) = some text ∧
        after.textAt? (directory.child name) = some (insertImports text lines).1 := by
  unfold insertInto at hrun
  obtain ⟨text, read, hread, hinserted⟩ := Storage.bind_eq_ok.1 hrun
  obtain ⟨rfl, hbefore⟩ := Storage.readText_eq_ok.1 hread
  simp only at hinserted
  split at hinserted
  · next hcount =>
      cases hinserted
      exact ⟨.refl .., text, hbefore, by rw [hbefore, insertImports_of_count hcount]⟩
  · obtain ⟨_, written, hwritten, hlast⟩ := Storage.bind_eq_ok.1 hinserted
    have hwrite := Storage.writeText_standing_changes hstanding hname (insertImports text lines).1
    rw [hwritten] at hwrite
    cases hlast
    exact ⟨hwrite.1, text, hbefore, Files.textAt?_of_at? hwrite.2⟩

theorem insertInto_settled {path : Path} {text : Text} {lines : List String}
    (htext : files.textAt? path = some text) (hmissing : Insertion.missing text lines = []) :
    insertInto path lines files = .ok 0 files := by
  unfold insertInto
  rw [Storage.bind_eq (Storage.readText_eq_ok.2 ⟨rfl, htext⟩), insertImports_of_missing hmissing]
  rfl

/-! ## All files -/

theorem linesFor_eq_ok {names lines : List String} :
    linesFor layout slug names surroundings s = .ok lines s' ↔
      (∀ name ∈ names, (layout.importLine? slug name).isSome = true) ∧
        lines = layout.importLines slug names ∧ s' = s := by
  induction names generalizing lines s' with
  | nil =>
      constructor
      · rintro ⟨⟩
        exact ⟨by simp, rfl, rfl⟩
      · rintro ⟨-, rfl, rfl⟩
        rfl
  | cons name names ih =>
      unfold linesFor at ih ⊢
      rw [List.mapM_cons, List.forall_mem_cons, Layout.importLines, List.filterMap_cons]
      cases hline : layout.importLine? slug name with
      | none =>
          refine ⟨fun hrun => ?_, fun ⟨⟨hsome, _⟩, _⟩ => by cases hsome⟩
          cases hrun
      | some line =>
          rw [pure_bind, bind_eq_ok]
          constructor
          · rintro ⟨rest, s₁, hrest, hall⟩
            obtain ⟨hsome, rfl, rfl⟩ := ih.1 hrest
            cases hall
            exact ⟨⟨rfl, hsome⟩, rfl, rfl⟩
          · rintro ⟨⟨-, hsome⟩, rfl, rfl⟩
            exact ⟨_, s', ih.2 ⟨hsome, rfl, rfl⟩, rfl⟩

def insertEntry (layout : Layout) (inserted : Table Nat) (entry : String × List String) :
    Run (Table Nat) := do
  let path := layout.file entry.1
  if (← Run.files).has path then
    let lines ← linesFor layout entry.1 entry.2
    return inserted.put entry.1 (← storing (insertInto path lines))
  else return inserted

theorem insertNeeded_eq (layout : Layout) (needed : NeededNames) :
    insertNeeded layout needed = needed.sorted.foldlM (insertEntry layout) [] := by
  rfl

/-- Whether the file of a module, if there is one, has got the imports for some names. -/
structure Inserted (layout : Layout) (slug : String) (names : List String) (before after : Files) :
    Prop where
  has : after.has (layout.file slug) = before.has (layout.file slug)
  text : after.textAt? (layout.file slug) =
    (before.textAt? (layout.file slug)).map (layout.withImports slug names)

def filePlaces (layout : Layout) (current : Location) : Set Location :=
  { location | ∃ slug ∈ layout.slugs,
    location ∈ touchedBy layout.directory (moduleFile layout slug) current }

section Files

variable {r : Rerun} {known : Set Location} (h : ModulesKnown r known layout)
  (hready : r.Ready s.files)
  (hown : ∀ slug ∈ layout.slugs, layout.acceptsImports slug = true →
    moduleFile layout slug = slug ++ ".js")

theorem withImports_nil : layout.withImports slug [] = id := by
  funext text
  exact congrArg Prod.fst (insertImports_of_missing rfl)

theorem Inserted.of_at?_eq (hat : after.at? (layout.file slug) = files.at? (layout.file slug)) :
    Inserted layout slug [] files after where
  has := by rw [Files.has, Files.has, hat]
  text := by
    have htext : after.textAt? (layout.file slug) = files.textAt? (layout.file slug) := by
      simp only [Files.textAt?, hat]
    rw [htext, withImports_nil, Option.map_id, id]

theorem Inserted.trans {between : Files} {names more : List String}
    (h : Inserted layout slug names files between) (h' : Inserted layout slug more between after) :
    after.has (layout.file slug) = files.has (layout.file slug) ∧
      after.textAt? (layout.file slug) = (files.textAt? (layout.file slug)).map
        (layout.withImports slug more ∘ layout.withImports slug names) :=
  ⟨h'.has.trans h.has, by rw [h'.text, h.text, Option.map_map]⟩

include h hready

theorem insertEntry_changes {inserted inserted' : Table Nat} {names : List String}
    (hslug : slug ∈ layout.slugs)
    (hrun : insertEntry layout inserted (slug, names) surroundings s = .ok inserted' s') :
    Files.Changes (touchedBy layout.directory (moduleFile layout slug) r.current) ∅ s.files s'.files ∧
      Inserted layout slug names s.files s'.files ∧
      (s.files.has (layout.file slug) = true →
        (s.files.textAt? (layout.file slug)).isSome = true) := by
  unfold insertEntry at hrun
  rw [bind_files_eq] at hrun
  by_cases hhas : s.files.has (layout.file slug) = true
  · rw [if_pos hhas] at hrun
    obtain ⟨lines, s₁, hlines, hstore⟩ := bind_eq_ok.1 hrun
    obtain ⟨-, rfl, rfl⟩ := linesFor_eq_ok.1 hlines
    obtain ⟨count, s₂, hstored, hlast⟩ := bind_eq_ok.1 hstore
    obtain ⟨files, hinserted, rfl⟩ := storing_eq_ok.1 hstored
    cases hlast
    simp only [h.file slug hslug] at hinserted
    obtain ⟨hchanges, text, hbefore, hafter⟩ :=
      insertInto_changes (hready.standing _ h.standing) (h.isName slug hslug) hinserted
    rw [hready.current] at hchanges
    rw [← h.file slug hslug] at hbefore hafter
    refine ⟨hchanges, ⟨?_, ?_⟩, fun _ => by rw [hbefore]; rfl⟩
    · obtain ⟨content, hat, -⟩ := Files.exists_of_textAt? hafter
      rw [hhas, Files.has, hat]
      rfl
    · rw [hafter, hbefore]
      rfl
  · rw [if_neg hhas] at hrun
    cases hrun
    refine ⟨.refl .., ⟨rfl, ?_⟩, fun hfile => absurd hfile hhas⟩
    have hnone : s.files.at? (layout.file slug) = none := by simpa [Files.has] using hhas
    rw [Files.textAt?, hnone]
    rfl

include hown

/-- A module does not touch the file of another one. -/
theorem Inserted.of_other {first : String} (hfirst : first ∈ layout.slugs)
    (hfirstAccepts : layout.acceptsImports first = true) (hslug : slug ∈ layout.slugs)
    (haccepts : layout.acceptsImports slug = true) (hne : slug ≠ first)
    (hchanges : Files.Changes (touchedBy layout.directory (moduleFile layout first) r.current) ∅
      s.files after) : Inserted layout slug [] s.files after := by
  apply Inserted.of_at?_eq
  rw [h.file slug hslug]
  apply hchanges.at?_child_eq (hready.standing _ h.standing) (h.isName slug hslug) ?_
    (Set.notMem_empty _)
  rw [hready.current, hown slug hslug haccepts, hown first hfirst hfirstAccepts]
  apply Storage.not_mem_touchedBy
  · exact fun heq => hne ((String.append_left_inj _).1 heq)
  · exact append_ne_append (by decide) _ _

/-- Every module gets its imports, and no file but those of modules changes. -/
theorem insertEntries_changes {entries : NeededNames} {inserted inserted' : Table Nat}
    (hkeys : (entries.map (·.1)).Nodup)
    (hentries : ∀ entry ∈ entries, entry.1 ∈ layout.slugs ∧ layout.acceptsImports entry.1 = true)
    (hrun : entries.foldlM (insertEntry layout) inserted surroundings s = .ok inserted' s') :
    Files.Changes (filePlaces layout r.current) ∅ s.files s'.files ∧
      (∀ slug ∈ layout.slugs, layout.acceptsImports slug = true →
        Inserted layout slug (entries.names slug) s.files s'.files) ∧
      ∀ entry ∈ entries, s.files.has (layout.file entry.1) = true →
        (s.files.textAt? (layout.file entry.1)).isSome = true := by
  induction entries generalizing inserted s with
  | nil =>
      cases hrun
      exact ⟨.refl .., fun slug _ _ => .of_at?_eq rfl, by simp⟩
  | cons entry entries ih =>
      obtain ⟨first, names⟩ := entry
      rw [List.map_cons, List.nodup_cons] at hkeys
      obtain ⟨⟨hfirst, hfirstAccepts⟩, hrest⟩ := List.forall_mem_cons.1 hentries
      rw [List.foldlM_cons] at hrun
      obtain ⟨between, s₁, hone, hall⟩ := bind_eq_ok.1 hrun
      obtain ⟨hchanges, hinserted, hreadable⟩ := insertEntry_changes h hready hfirst hone
      obtain ⟨hchanges', hinserted', hreadable'⟩ := ih (hready.changes hchanges) hkeys.2 hrest hall
      have hplaces : touchedBy layout.directory (moduleFile layout first) r.current ⊆
          filePlaces layout r.current := fun location hmem => ⟨first, hfirst, hmem⟩
      have hothers : ∀ slug ∈ layout.slugs, layout.acceptsImports slug = true → slug ≠ first →
          Inserted layout slug [] s.files s₁.files := fun slug hslug haccepts hne =>
        Inserted.of_other h hready hown hfirst hfirstAccepts hslug haccepts hne hchanges
      refine ⟨(hchanges.mono hplaces (Set.Subset.refl _)).trans hchanges', ?_, ?_⟩
      · intro slug hslug haccepts
        have hlater := hinserted' slug hslug haccepts
        rw [NeededNames.names, Table.get?_cons]
        split
        · next heq =>
          obtain rfl : slug = first := heq
          have hnone : Table.get? entries slug = none := by
            cases hget : Table.get? entries slug with
            | none => rfl
            | some _ => exact absurd (List.mem_map_of_mem (Table.mem_of_get? hget)) hkeys.1
          rw [NeededNames.names, hnone] at hlater
          obtain ⟨hhas, htext⟩ := hinserted.trans hlater
          exact ⟨hhas, by rw [htext, Option.getD_none, withImports_nil]; rfl⟩
        · next hne =>
          obtain ⟨hhas, htext⟩ := (hothers slug hslug haccepts hne).trans hlater
          exact ⟨hhas, by rw [htext, withImports_nil]; rfl⟩
      · refine List.forall_mem_cons.2 ⟨hreadable, fun other hother hhas => ?_⟩
        have hne : other.1 ≠ first := fun heq =>
          hkeys.1 (List.mem_map.2 ⟨other, hother, heq⟩)
        have hsame := hothers other.1 (hrest other hother).1 (hrest other hother).2 hne
        have hsome := hreadable' other hother (hsame.has.trans hhas)
        rw [hsame.text, Option.isSome_map] at hsome
        exact hsome

theorem insertNeeded_changes {needed : NeededNames} {table : Table Nat} (hfits : needed.Fits layout)
    (hrun : insertNeeded layout needed surroundings s = .ok table s') :
    Files.Changes (filePlaces layout r.current) ∅ s.files s'.files ∧
      (∀ slug ∈ layout.slugs, layout.acceptsImports slug = true →
        Inserted layout slug (needed.names slug) s.files s'.files) ∧
      ∀ entry ∈ needed, s.files.has (layout.file entry.1) = true →
        (s.files.textAt? (layout.file entry.1)).isSome = true := by
  have hperm : needed.sorted.Perm needed := List.mergeSort_perm ..
  rw [insertNeeded_eq] at hrun
  obtain ⟨hchanges, hinserted, hreadable⟩ := insertEntries_changes h hready hown
    ((hperm.map _).nodup_iff.2 hfits.keys)
    (fun entry hentry => ⟨hfits.within _ (hperm.mem_iff.1 hentry),
      hfits.accepts _ (hperm.mem_iff.1 hentry)⟩) hrun
  refine ⟨hchanges, fun slug hslug haccepts => ?_, fun entry hentry => ?_⟩
  · rw [← hfits.names_sorted]
    exact hinserted slug hslug haccepts
  · exact hreadable entry (hperm.mem_iff.2 hentry)

end Files

/-! ## Nothing to insert -/

theorem insertedTotal_eq_zero {table : Table Nat} (hzero : ∀ entry ∈ table, entry.2 = 0) :
    insertedTotal table = 0 := by
  have hfold : ∀ table : Table Nat, (∀ entry ∈ table, entry.2 = 0) → ∀ total,
      table.foldl (fun total entry => total + entry.2) total = total := by
    intro table hzero
    induction table with
    | nil => exact fun _ => rfl
    | cons entry table ih =>
        intro total
        obtain ⟨hfirst, hrest⟩ := List.forall_mem_cons.1 hzero
        rw [List.foldl_cons, hfirst, Nat.add_zero, ih hrest]
  exact hfold table hzero 0

/-- Where no module misses an import, every file stays as it is. -/
theorem insertNeeded_settled {needed : NeededNames} (hfits : needed.Fits layout)
    (hmissing : ∀ entry ∈ needed, s.files.has (layout.file entry.1) = true →
      ∃ text, s.files.textAt? (layout.file entry.1) = some text ∧
        Insertion.missing text (layout.importLines entry.1 entry.2) = []) :
    ∃ table, insertNeeded layout needed surroundings s = .ok table s ∧ insertedTotal table = 0 := by
  have hall : ∀ entries : NeededNames, entries ⊆ needed → ∀ inserted : Table Nat,
      (∀ entry ∈ inserted, entry.2 = 0) →
        ∃ table, entries.foldlM (insertEntry layout) inserted surroundings s = .ok table s ∧
          ∀ entry ∈ table, entry.2 = 0 := by
    intro entries
    induction entries with
    | nil => exact fun _ inserted hzero => ⟨inserted, rfl, hzero⟩
    | cons entry entries ih =>
        obtain ⟨slug, names⟩ := entry
        intro hsubset inserted hzero
        rw [List.cons_subset] at hsubset
        have hstep : ∃ inserted', insertEntry layout inserted (slug, names) surroundings s =
            .ok inserted' s ∧ ∀ entry ∈ inserted', entry.2 = 0 := by
          unfold insertEntry
          rw [bind_files_eq]
          split
          · next hhas =>
            obtain ⟨text, htext, hnone⟩ := hmissing _ hsubset.1 hhas
            have hlines : linesFor layout slug names surroundings s =
                .ok (layout.importLines slug names) s := by
              refine linesFor_eq_ok.2 ⟨fun name hname => ?_, rfl, rfl⟩
              rw [Layout.importLine?, Option.isSome_map]
              exact hfits.declared _ hsubset.1 name hname
            refine ⟨inserted.put slug 0, ?_, fun entry hentry => ?_⟩
            · rw [bind_eq hlines, bind_eq (storing_eq (insertInto_settled htext hnone))]
              rfl
            · rcases Table.mem_put hentry with rfl | hold
              · rfl
              · exact hzero entry hold
          · exact ⟨inserted, rfl, hzero⟩
        obtain ⟨inserted', hone, hzero'⟩ := hstep
        obtain ⟨table, hrest, hresult⟩ := ih hsubset.2 inserted' hzero'
        exact ⟨table, by rw [List.foldlM_cons, bind_eq hone, hrest], hresult⟩
  obtain ⟨table, hrun, hzero⟩ := hall needed.sorted
    (fun entry hentry => List.mem_mergeSort.1 hentry) [] (by simp)
  exact ⟨table, hrun, insertedTotal_eq_zero hzero⟩

end Run

end ScriptSplit
