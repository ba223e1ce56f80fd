import ScriptSplit.Proofs.Stage.Inserting
import ScriptSplit.Proofs.Stage.Spared

/-!
# Linking a second time

Linking again right away finds the same imports, and every module has them by now: nothing is inserted, and every
file stays as it is. The imports are found in texts that the first run has changed, so that this is true of texts
only where the statements bring no names of their own.
-/

namespace ScriptSplit

open Storage (touchedBy)

theorem Storage.storable_of_readPlan {directory : Path} {files : Files} {plan : Plan}
    (hrun : readPlan directory files = .ok plan files) : plan.Storable := by
  unfold readPlan at hrun
  obtain ⟨doc, -, hread⟩ := (readDocument_readOnly _ _).bind_eq_ok hrun
  cases hfound : Plan.ofDoc doc with
  | error cause =>
      rw [hfound] at hread
      cases hread
  | ok found =>
      rw [hfound] at hread
      cases hread
      exact Plan.storable_of_ofDoc hfound

namespace Layout

variable {layout : Layout} {before after : Files} {plan : Plan} {facts : Facts}

/-- With the imports of a preview, the texts of the modules have the same preview. -/
theorem preview_of_inserted (hquiet : layout.Quiet) (hunambiguous : Unambiguous layout.moduleOfName)
    (hfeeds : ∀ slug ∈ layout.slugs, layout.acceptsImports slug = true → ∀ text,
      before.textAt? (layout.file slug) = some text → text.BrokenByFeeds)
    (hinserted : ∀ slug ∈ layout.slugs, layout.acceptsImports slug = true →
      Run.Inserted layout slug ((layout.preview before).needed.names slug) before after) :
    layout.preview after = layout.preview before := by
  have hproposed : ∀ slug ∈ layout.slugs, layout.acceptsImports slug = true →
      layout.proposed after slug = layout.proposed before slug := by
    intro slug hslug haccepts
    rw [proposed, proposed, (hinserted slug hslug haccepts).text, Option.map_map]
    cases htext : before.textAt? (layout.file slug) with
    | none => rfl
    | some text =>
        have hneeds : layout.Needs slug text ((layout.preview before).needed.names slug) := by
          intro name
          rw [mem_needed_preview hunambiguous hquiet.names]
          simp only [hslug, haccepts, htext, true_and, Option.some.injEq, exists_eq_left']
          exact and_left_comm
        simp only [Option.map_some, Option.getD_some, Function.comp_apply]
        exact hquiet.mentionedLines_withImports hunambiguous hslug
          (hfeeds slug hslug haccepts text htext) hneeds
  unfold preview
  apply List.foldl_ext
  intro preview slug hslug
  obtain ⟨hslug, haccepts⟩ := List.mem_filter.1 hslug
  rw [extendPreview, extendPreview, hproposed slug hslug haccepts]

/-- Imports stand on one line where slugs, names and the basename have no line break in them. -/
theorem oneLine_ofPlan {directory : Path} {basename : String}
    (hslugs : ∀ m ∈ plan.modules, isSlug m.slug = true ∧ '\n' ∉ m.slug.toList)
    (hnames : ∀ f ∈ facts.functions, '\n' ∉ f.name.toList)
    (hbasename : '/' ∉ basename.toList ∧ Text.Unbroken basename.toList) :
    (ofPlan plan facts directory basename).OneLine where
  closed := ofPlan_closed ..
  names name target hget := by
    obtain ⟨hexportable, f, hf, rfl⟩ := exists_function_of_moduleOfName hget
    exact ⟨hexportable, hnames f hf⟩
  slugs slug hslug := by
    rw [ofPlan_slugs] at hslug
    obtain ⟨m, hm, rfl⟩ := List.mem_map.1 hslug
    exact hslugs m hm
  basename := by
    rw [ofPlan_basename]
    exact hbasename

/-- Where no function is called `from`, and the basename has no quotes, imports mention what they import. -/
theorem quiet_ofPlan {directory : Path} {basename : String}
    (honeLine : (ofPlan plan facts directory basename).OneLine)
    (hfrom : ∀ f ∈ facts.functions, f.name ≠ "from") (hquote : '\'' ∉ basename.toList) :
    (ofPlan plan facts directory basename).Quiet where
  toOneLine := honeLine
  noFrom := by
    rw [Option.eq_none_iff_forall_ne_some]
    intro target hget
    obtain ⟨-, f, hf, hname⟩ := exists_function_of_moduleOfName hget
    exact hfrom f hf hname
  noQuote := by
    rw [ofPlan_basename]
    exact hquote

end Layout

namespace Run

variable {config : Config} {surroundings : Surroundings} {s s' : RunState} {facts : Facts}
  {layout : Layout} {plans : Path} {found : ImportPlan × List Warning}

theorem findImports_eq_ok (hadviser : config.adviser.enabled = false) :
    findImports config plans facts layout surroundings s = .ok found s' ↔
      facts.calls ≠ [] ∧ found = (.ofCalls layout facts.calls, []) ∧ s' = s ∨
      facts.calls = [] ∧ layout.Readable s.files ∧
        found = (.ofPreview (layout.preview s.files), []) ∧
        storing (Storage.writeDocument (plans / "imports.preview.json")
          (layout.preview s.files).toDoc) surroundings s = .ok () s' := by
  unfold findImports
  split
  · next hcalls =>
    have hsome : facts.calls ≠ [] := by simpa using hcalls
    constructor
    · rintro ⟨⟩
      exact Or.inl ⟨hsome, rfl, rfl⟩
    · rintro (⟨-, rfl, rfl⟩ | ⟨hnil, -⟩)
      · rfl
      · exact absurd hnil hsome
  · next hcalls =>
    have hnil : facts.calls = [] := by simpa using hcalls
    simp only [hadviser, Bool.not_false, Bool.or_true, if_true]
    rw [bind_eq_ok]
    constructor
    · rintro ⟨preview, s₁, hpreview, hrest⟩
      obtain ⟨hreadable, rfl, rfl⟩ := previewImports_eq_ok.1 hpreview
      obtain ⟨_, s₂, hwritten, hlast⟩ := bind_eq_ok.1 hrest
      cases hlast
      exact Or.inr ⟨hnil, hreadable, rfl, hwritten⟩
    · rintro (⟨hsome, -⟩ | ⟨-, hreadable, rfl, hwritten⟩)
      · exact absurd hnil hsome
      · exact ⟨_, s, previewImports_eq_ok.2 ⟨hreadable, rfl, rfl⟩, bind_eq_ok.2 ⟨_, _, hwritten, rfl⟩⟩

theorem gather_inserted {source : Path} {text : Text} {imports : ImportPlan}
    {importWarnings : List Warning} {inserted : Nat} {p : Prepared}
    (hrun : gather config plans source text facts layout imports importWarnings inserted surroundings s =
      .ok p s') (other : Nat) :
    gather config plans source text facts layout imports importWarnings other surroundings s =
      .ok { p with inserted := other } s' := by
  have hmap : gather config plans source text facts layout imports importWarnings other =
      (fun p => { p with inserted := other }) <$>
        gather config plans source text facts layout imports importWarnings inserted := by
    simp only [gather, map_bind, map_pure]
  rw [hmap, map_eq_pure_bind, bind_eq hrun]
  rfl

theorem Inserted.of_at?_eq_of_at?_eq {slug : String} {names : List String}
    {before before' after after' : Files} (h : Inserted layout slug names before after)
    (hbefore : before.at? (layout.file slug) = before'.at? (layout.file slug))
    (hafter : after'.at? (layout.file slug) = after.at? (layout.file slug)) :
    Inserted layout slug names before' after' where
  has := by rw [Files.has, hafter, ← Files.has, h.has, Files.has, hbefore, Files.has]
  text := by
    have htext := h.text
    rw [Files.textAt?, ← hafter, ← Files.textAt?] at htext
    rw [htext]
    simp only [Files.textAt?, hbefore]

theorem findImports_fits (hadviser : config.adviser.enabled = false) (h : layout.OneLine)
    (hnamed : layout.Named) (hunambiguous : Layout.Unambiguous layout.moduleOfName)
    (hrun : findImports config plans facts layout surroundings s = .ok found s') :
    found.1.needed.Fits layout := by
  rcases (findImports_eq_ok hadviser).1 hrun with ⟨-, rfl, -⟩ | ⟨-, -, rfl, -⟩
  · exact Layout.calledNames_fits h.closed hnamed facts.calls
  · exact Layout.preview_fits h hunambiguous

theorem findImports_changes (hadviser : config.adviser.enabled = false)
    (hstanding : s.files.Standing plans)
    (hrun : findImports config plans facts layout surroundings s = .ok found s') :
    Files.Changes (touchedBy plans "imports.preview.json" s.files.current) ∅ s.files s'.files := by
  rcases (findImports_eq_ok hadviser).1 hrun with ⟨-, -, rfl⟩ | ⟨-, -, -, hwritten⟩
  · exact .refl ..
  · rw [Path.div_name _ ⟨by decide, by decide, by decide, by decide⟩] at hwritten
    obtain ⟨files, hwrite, rfl⟩ := storing_eq_ok.1 hwritten
    have hname : ("imports.preview.json" : String) ≠ ".." := by decide
    have hchanges := Storage.writeText_standing_changes hstanding hname
      ((layout.preview s.files).toDoc.pretty.toList ++ ['\n'])
    rw [← Storage.writeDocument, hwrite] at hchanges
    exact hchanges.1

theorem foreign_of_mem_linkDocuments {name : String} (hname : name ∈ Config.linkDocuments) :
    Foreign name := by
  have hall : ∀ document ∈ Config.linkDocuments, ∀ ending ∈ [".js", ".cjs", ".tmp"],
      ¬ document.toList <:+ ending.toList ∧ ¬ ending.toList <:+ document.toList := by decide
  exact foreign_of_name (hall name hname)

/-- The files of modules are not where a document is written. -/
theorem not_mem_touchedBy_of_filePlaces {directory : Path} {name : String} {current location : Location}
    (hforeign : Foreign name)
    (hlocation : location ∈ filePlaces layout current) : location ∉ touchedBy directory name current := by
  obtain ⟨slug, -, hmem⟩ := hlocation
  obtain ⟨front, hfile⟩ := moduleFileName_eq slug layout.basename ".js"
  have hmodule : moduleFile layout slug = front ++ ".js" := hfile
  rw [hmodule] at hmem
  rcases hmem with rfl | rfl
  · exact Storage.not_mem_touchedBy (hforeign front ".js" (by simp)).symm
      (append_ne_append (by decide) _ _)
  · refine Storage.not_mem_touchedBy (hforeign _ ".tmp" (by simp)).symm fun heq => ?_
    exact hforeign front ".js" (by simp) ((String.append_left_inj _).1 heq).symm

theorem insertNeeded_again_nothing (honeLine : layout.OneLine) {needed : NeededNames}
    (hfits : needed.Fits layout) {before : Files} {t : RunState}
    (hinserted : ∀ slug ∈ layout.slugs, layout.acceptsImports slug = true →
      Inserted layout slug (needed.names slug) before t.files)
    (hreadable : ∀ entry ∈ needed, before.has (layout.file entry.1) = true →
      (before.textAt? (layout.file entry.1)).isSome = true) :
    ∀ surroundings, ∃ table, insertNeeded layout needed surroundings t = .ok table t ∧
      insertedTotal table = 0 := by
  intro surroundings
  apply insertNeeded_settled hfits
  rintro ⟨slug, names⟩ hentry hhas
  have hslug := hfits.within _ hentry
  have hgot := hinserted slug hslug (hfits.accepts _ hentry)
  have hnames : needed.names slug = names := by
    rw [NeededNames.names, Table.get?_of_mem hfits.keys hentry, Option.getD_some]
  rw [hnames] at hgot
  obtain ⟨text, htext⟩ := Option.isSome_iff_exists.1 (hreadable _ hentry (hgot.has ▸ hhas))
  exact ⟨_, by rw [hgot.text, htext]; rfl, honeLine.missing_withImports hslug names text⟩

section Linked

variable {r : Rerun} {environment : Table String} {source : Path} {plan : Plan} {t : RunState}
  (hlayout : layout = Layout.ofPlan plan facts (config.moduleDirectory source) source.basename)
  (h : Placed config environment source layout r)
  (hplans : config.plansPath environment ∈ r.standing)

include hlayout h

theorem Placed.linked_modules : ModulesKnown r (modulePlaces config source plan r.current) layout := by
  subst hlayout
  exact h.modulesKnown h.modulePlaces_written.1

theorem Placed.module_kept {touched made : Set Location} {before after : Files}
    (hready : r.Ready before) (hchanges : Files.Changes touched made before after)
    (haway : ∀ location ∈ modulePlaces config source plan r.current,
      location ∉ touched ∧ location ∉ made) :
    ∀ slug ∈ layout.slugs, after.at? (layout.file slug) = before.at? (layout.file slug) := by
  intro slug hslug
  have hknown := h.linked_modules hlayout
  obtain ⟨htouched, hmade⟩ := haway _ (hknown.known slug hslug)
  rw [← hready.current] at htouched hmade
  rw [hknown.file slug hslug]
  exact hchanges.at?_child_eq (hready.standing _ hknown.standing) (hknown.isName slug hslug) htouched
    hmade

/-- Neither what linking does once the modules have their imports nor what it does to the source is done to
the files of modules. -/
theorem Placed.later_away : ∀ location ∈ modulePlaces config source plan r.current,
    location ∉ (config.laterReach environment source plan r.current).touched ∪
        Storage.heldPlaces source r.current ∧
      location ∉ config.madePlaces source r.current := by
  subst hlayout
  intro location hlocation
  have hwritten := h.modulePlaces_written.2 hlocation
  refine ⟨?_, fun hmade => Config.made_not_written h.named location hmade hwritten⟩
  rintro (hlater | hheld)
  · exact hlater.2 hlocation
  · exact h.clear.held_not_written h.named location hheld hwritten

theorem Placed.filePlaces_bounds : modulePlaces config source plan r.current ⊆ filePlaces layout r.current ∧
    filePlaces layout r.current ⊆ config.writtenPlaces environment source r.current := by
  subst hlayout
  constructor
  · rintro location ⟨m, hm, rfl⟩
    refine ⟨m.slug, ?_, Or.inl ?_⟩
    · rw [Layout.ofPlan_slugs]
      exact List.mem_map_of_mem hm
    · rw [h.directory, moduleFile, h.basename]
      rfl
  · rintro location ⟨slug, hslug, hmem⟩
    rw [h.directory, moduleFile, h.basename] at hmem
    exact (Config.Writes.moduleFile (h.slugs slug hslug)).touched_subset hmem

include hplans

omit hlayout in
theorem Placed.importDocument : ∀ name ∈ importDocuments,
    r.Writable (config.reach environment source r.current (Storage.heldPlaces source r.current))
      (config.plansPath environment) name := fun _ hname =>
  (Config.Writes.document (List.mem_cons_of_mem _ hname)).writable (h.covers _) h.named hplans

theorem Placed.gathers (text : Text) (imports : ImportPlan) (importWarnings : List Warning)
    (inserted : Nat) :
    Again r (config.reach environment source r.current (Storage.heldPlaces source r.current))
      (modulePlaces config source plan r.current) (modulePlaces config source plan r.current)
      (gather config (config.plansPath environment) source text facts layout imports importWarnings
        inserted) :=
  gather_again (h.linked_modules hlayout) h.failures (h.importDocument hplans) ..

/-- Imports are found again where every module has got those that were found for it. -/
theorem Placed.findImports_settled {s₁ : RunState} {last : Files}
    (hadviser : config.adviser.enabled = false)
    (hquiet : facts.calls = [] → layout.Quiet ∧ ∀ slug ∈ layout.slugs, ∀ text,
      s.files.textAt? (layout.file slug) = some text → text.BrokenByFeeds)
    (hready : r.Ready s.files)
    (hrun : findImports config (config.plansPath environment) facts layout r.first s = .ok found s₁)
    (hinserted : ∀ slug ∈ layout.slugs, layout.acceptsImports slug = true →
      Inserted layout slug (found.1.needed.names slug) s.files t.files)
    (hfollows : Files.Follows r.touched ∅ last s.files t.files)
    (hrest : Files.Changes (config.changedPlaces environment source r.current)
      (config.madePlaces source r.current) s₁.files last) :
    ∃ t₁, findImports config (config.plansPath environment) facts layout r.again t = .ok found t₁ ∧
      Files.Follows r.touched ∅ last s₁.files t₁.files := by
  rcases (findImports_eq_ok hadviser).1 hrun with ⟨hcalls, rfl, rfl⟩ | ⟨hnil, hreadable, rfl, hwritten⟩
  · exact ⟨t, (findImports_eq_ok hadviser).2 (Or.inl ⟨hcalls, rfl, rfl⟩), hfollows⟩
  obtain ⟨hquiet, hfeeds⟩ := hquiet hnil
  have hunambiguous : Layout.Unambiguous layout.moduleOfName := by
    rw [hlayout]
    exact Layout.moduleOfName_unambiguous plan facts _ _
  have hpreview := Layout.preview_of_inserted hquiet hunambiguous
    (fun slug hslug _ => hfeeds slug hslug) hinserted
  have hreadable' : layout.Readable t.files := by
    intro slug hslug haccepts hhas
    have hsame := hinserted slug hslug haccepts
    rw [hsame.text, Option.isSome_map]
    exact hreadable slug hslug haccepts (hsame.has ▸ hhas)
  have hdocument : ∀ doc, Again r (config.reach environment source r.current
      (Storage.heldPlaces source r.current)) ∅ ∅
        (storing (Storage.writeDocument (config.plansPath environment / "imports.preview.json") doc)) :=
    writeDocument_again ⟨by decide, by decide, by decide, by decide⟩
      (h.importDocument hplans _ (List.mem_cons_self ..))
  obtain ⟨t₁, hwritten', hfollows'⟩ := (hdocument _).ok hwritten hready hfollows hrest
  rw [← hpreview] at hwritten'
  exact ⟨t₁, (findImports_eq_ok hadviser).2 (Or.inr ⟨hnil, hreadable', by rw [hpreview], hwritten'⟩),
    hfollows'⟩

omit hplans in
theorem Placed.moduleFile_eq (hstorable : plan.Storable) : ∀ slug ∈ layout.slugs,
    layout.acceptsImports slug = true → moduleFile layout slug = slug ++ ".js" := by
  subst hlayout
  intro slug hslug haccepts
  rw [Layout.ofPlan_slugs] at hslug
  obtain ⟨m, hm, rfl⟩ := List.mem_map.1 hslug
  rw [Layout.acceptsImports_eq hstorable _ _ _ hm, Bool.not_eq_true'] at haccepts
  exact if_neg (by simpa [ModuleSpec.isOriginal] using haccepts)

/-- The modules are prepared again, and nothing is inserted any more. -/
theorem Placed.prepare_settled {text : Text} {p : Prepared} {s₁ : RunState}
    (hadviser : config.adviser.enabled = false) (hstorable : plan.Storable) (honeLine : layout.OneLine)
    (hquiet : facts.calls = [] → layout.Quiet ∧ ∀ slug ∈ layout.slugs, ∀ text,
      s.files.textAt? (layout.file slug) = some text → text.BrokenByFeeds)
    (hready : r.Ready s.files)
    (hrun : prepare config (config.plansPath environment) source text facts layout r.first s = .ok p s₁)
    (hrest : Files.Changes ((config.laterReach environment source plan r.current).touched ∪
      Storage.heldPlaces source r.current) (config.madePlaces source r.current) s₁.files t.files) :
    ∃ t₁, prepare config (config.plansPath environment) source text facts layout r.again t =
        .ok { p with inserted := 0 } t₁ ∧
      Files.Follows r.touched (modulePlaces config source plan r.current) t.files s₁.files t₁.files := by
  have hnamed : layout.Named := hlayout ▸ Layout.ofPlan_named plan facts _ _
  have hunambiguous : Layout.Unambiguous layout.moduleOfName :=
    hlayout ▸ Layout.moduleOfName_unambiguous plan facts _ _
  have hknown := h.linked_modules hlayout
  have hapart : ∀ location ∈ filePlaces layout r.current,
      location ∉ touchedBy (config.plansPath environment) "imports.preview.json" r.current :=
    fun location => not_mem_touchedBy_of_filePlaces
      (foreign_of_mem_linkDocuments (List.mem_cons_of_mem _ (List.mem_cons_self ..)))
  -- what the first run finds, inserts and gathers
  rw [prepare_eq] at hrun
  obtain ⟨found, sa, hfind, hrun⟩ := bind_eq_ok.1 hrun
  obtain ⟨table, sb, hinsert, hgather⟩ := bind_eq_ok.1 hrun
  obtain ⟨hfaultFind, hfind⟩ := step_eq_ok.1 hfind
  obtain ⟨hfaultInsert, hinsert⟩ := step_eq_ok.1 hinsert
  have hfits := findImports_fits hadviser honeLine hnamed hunambiguous hfind
  have hfound := findImports_changes hadviser (hready.standing _ hplans) hfind
  rw [hready.current] at hfound
  have hreadyA := hready.changes hfound
  obtain ⟨hfilled, hinserted, hreadable⟩ :=
    insertNeeded_changes hknown hreadyA (h.moduleFile_eq hlayout hstorable) hfits hinsert
  have hreadyB := hreadyA.changes hfilled
  have hgathered : Files.Changes (config.laterReach environment source plan r.current).touched
      (config.madePlaces source r.current) sb.files s₁.files := by
    subst hlayout
    exact (h.gather_later hplans (Set.Subset.refl _) text found.1 found.2 _).changes_ok hgather hreadyB
  have hends := (hgathered.mono Set.subset_union_left (Set.Subset.refl _)).trans hrest
  have hlater := h.later_away hlayout
  have hwritten : (config.laterReach environment source plan r.current).touched ∪
      Storage.heldPlaces source r.current ⊆ config.changedPlaces environment source r.current :=
    Set.union_subset_union_left _ Config.laterReach_subset
  obtain ⟨hmodules, hplaces⟩ := h.filePlaces_bounds hlayout
  -- the second run finds the same
  have hbefore := h.module_kept hlayout hready hfound fun location hlocation =>
    ⟨hapart location (hmodules hlocation), Set.notMem_empty _⟩
  have hafter := h.module_kept hlayout hreadyB hends hlater
  have hgot : ∀ slug ∈ layout.slugs, layout.acceptsImports slug = true →
      Inserted layout slug (found.1.needed.names slug) s.files t.files := fun slug hslug haccepts =>
    (hinserted slug hslug haccepts).of_at?_eq_of_at?_eq (hbefore slug hslug) (hafter slug hslug)
  obtain ⟨ta, hfind', hfollows⟩ := h.findImports_settled hlayout hplans hadviser hquiet hready hfind hgot
    (.start _ (by simp)) ((hfilled.mono (hplaces.trans Set.subset_union_left) (Set.empty_subset _)).trans
      (hends.mono hwritten (Set.Subset.refl _)))
  have hreadyT := hreadyB.changes hends
  have hfound' := findImports_changes hadviser (hreadyT.standing _ hplans) hfind'
  rw [hreadyT.current] at hfound'
  -- and nothing is missing any more
  have hkept := h.module_kept hlayout hreadyT hfound' fun location hlocation =>
    ⟨hapart location (hmodules hlocation), Set.notMem_empty _⟩
  obtain ⟨table', hinsert', hzero⟩ := insertNeeded_again_nothing honeLine hfits
    (fun slug hslug haccepts => (hinserted slug hslug haccepts).of_at?_eq_of_at?_eq rfl
      ((hkept slug hslug).trans (hafter slug hslug))) hreadable r.again
  have hadvanced : Files.Follows r.touched (modulePlaces config source plan r.current) t.files
      sb.files ta.files := by
    apply hfollows.advance
    · intro location
      by_cases hlocation : location ∈ filePlaces layout r.current
      · exact Or.inr (hfound'.entry?_eq (hapart location hlocation) (Set.notMem_empty _))
      · exact Or.inl (hfilled.entry?_eq hlocation (Set.notMem_empty _))
    · intro location hlocation
      rw [hfound'.entry?_eq (hapart location (hmodules hlocation)) (Set.notMem_empty _),
        hends.entry?_eq (hlater location hlocation).1 (hlater location hlocation).2]
  obtain ⟨t₁, hgather', hfollows'⟩ : ∃ t₁, gather config (config.plansPath environment) source text facts
      layout found.1 found.2 (insertedTotal table) r.again ta = .ok p t₁ ∧
        Files.Follows r.touched (modulePlaces config source plan r.current) t.files s₁.files t₁.files := by
    exact (h.gathers hlayout hplans ..).ok hgather hreadyB hadvanced
      (hrest.mono hwritten (Set.Subset.refl _))
  refine ⟨t₁, ?_, hfollows'⟩
  rw [prepare_eq, bind_eq (step_eq_ok.2 ⟨r.faults ▸ hfaultFind, hfind'⟩),
    bind_eq (step_eq_ok.2 ⟨r.faults ▸ hfaultInsert, hinsert'⟩), hzero]
  exact gather_inserted hgather' 0

omit hplans in
theorem Placed.feeds {files : Files} (hfeeds : ∀ m ∈ plan.modules, ∀ text,
    files.textAt? (moduleTarget config source m.slug) = some text → text.BrokenByFeeds) :
    ∀ slug ∈ layout.slugs, ∀ text, files.textAt? (layout.file slug) = some text → text.BrokenByFeeds := by
  intro slug hslug
  rw [(h.linked_modules hlayout).file slug hslug, h.directory, moduleFile, h.basename]
  rw [hlayout, Layout.ofPlan_slugs] at hslug
  obtain ⟨m, hm, rfl⟩ := List.mem_map.1 hslug
  exact hfeeds m hm

theorem Placed.rest_later {text : Text} {path : Path} {exports : ModuleExports} {mapping : Table String}
    {surrounded : Linking.Surrounded} {s₁ s₂ : RunState} {doc : Json}
    (hold : ∀ m ∈ plan.modules, m.slug ≠ source.basename ++ "_old") (hready : r.Ready s₁.files)
    (hread : Storage.readOriginal source s₁.files = .ok (text, path) s₁.files)
    (hsurrounded : (linkingOf config source text facts plan exports mapping).surround r.first s₁ =
      .ok surrounded s₂)
    (hreport : Completes (step .report (pure doc) >>=
      writeLinkDocument (config.plansPath environment / "report.json")) r.first s₂ s') :
    Files.Changes ((config.laterReach environment source plan r.current).touched ∪
      Storage.heldPlaces source r.current) (config.madePlaces source r.current) s₁.files s'.files := by
  subst hlayout
  have hsecond := Placed.surround_later (l := linkingOf config source text facts plan exports mapping) h
    hold hready hread hsurrounded
  obtain ⟨_, hreport⟩ := hreport
  have hreports : Again r (config.laterReach environment source plan r.current) ∅ ∅ _ :=
    h.report_later hplans doc
  have hthird := hreports.changes_ok hreport (hready.changes hsecond)
  exact hsecond.trans (hthird.mono Set.subset_union_left (Set.Subset.refl _))

end Linked

/-- Once linking has run to the end, linking again inserts nothing and leaves every place as it is: by calls
wherever each import stands on one line, and by texts where nothing that a statement consists of is taken for a
name besides. -/
theorem second_link_inserts_nothing {source : Path} {plan : Plan} {first again : Surroundings}
    {t : RunState} (hroot : config.root.isAbsolute = true ∧ config.root.Clean)
    (hsource : config.sourcePath? = some source)
    (hclear : config.Clear first.environment s.files.current source)
    (hadviser : config.adviser.enabled = false)
    (hfacts : Storage.readFacts (config.factsPath first.environment) s.files = .ok facts s.files)
    (hindex : ∀ index, Storage.readIndex (config.factsPath first.environment) s.files =
      .ok index s.files → index.Standard)
    (hplan : Storage.readPlan (config.plansPath first.environment) s.files = .ok plan s.files)
    (hold : ∀ m ∈ plan.modules, m.slug ≠ source.basename ++ "_old")
    (hmodules : s.files.Standing (config.moduleDirectory source))
    (hlines : (∀ m ∈ plan.modules, '\n' ∉ m.slug.toList) ∧
      (∀ f ∈ facts.functions, '\n' ∉ f.name.toList) ∧ Text.Unbroken source.basename.toList)
    (hquiet : facts.calls = [] → (∀ f ∈ facts.functions, f.name ≠ "from") ∧
      '\'' ∉ source.basename.toList ∧ ∀ m ∈ plan.modules, ∀ text,
        s.files.textAt? (moduleTarget config source m.slug) = some text → text.BrokenByFeeds)
    (hlink : Completes (link config) first s s') (henvironment : again.environment = first.environment)
    (hfaults : again.faults = first.faults) (hfiles : t.files = s'.files) :
    ∃ report t', link config again t = .ok report t' ∧ report.inserted = 0 ∧
      ∀ location, t'.files.entry? location = s'.files.entry? location := by
  have hstocked : Stocked config first.environment s.files :=
    ⟨(Storage.readFacts_stored hfacts hindex).standing, Storage.standing_of_readPlan hplan⟩
  -- what the first run reads and does
  obtain ⟨text, facts', plan', hreads, hfaultFacts, hfaultPlan, p, s₁, s₂, hprepared,
    ⟨surrounded, hsurrounded⟩, hreport⟩ := (completes_link hstocked hsource).1 hlink
  obtain rfl : facts = facts' := (EStateM.Result.ok.inj (hfacts.symm.trans hreads.facts)).1
  obtain rfl : plan = plan' := (EStateM.Result.ok.inj (hplan.symm.trans hreads.plan)).1
  obtain ⟨hnamed, habsolute, hparent⟩ := hreads.located hroot hsource
  obtain ⟨path, horiginal⟩ := hreads.original
  have hdirectory := hmodules
  rw [Path.moduleDirectory_eq _ hnamed] at hdirectory
  have hplaced : Placed config first.environment source
      (Layout.ofPlan plan facts (config.moduleDirectory source) source.basename)
      (repeating config source henvironment hfaults s.files True) :=
    repeating_placed henvironment hfaults hnamed habsolute hroot.2 hclear hreads.slugs hparent
      hdirectory
  have hready : (repeating config source henvironment hfaults s.files True).Ready s.files :=
    ⟨rfl, fun _ hpath => hpath⟩
  have hplans := hstocked.plans
  obtain ⟨hchanges, backup, hsecured⟩ := hplaced.links_secures hplans hadviser hready horiginal
    ⟨p, s₁, s₂, hprepared, ⟨surrounded, hsurrounded⟩, hreport⟩
  obtain ⟨exports, mapping, hlinking⟩ := prepare_linking hprepared
  rw [hlinking] at hsurrounded
  have hready₁ := hready.changes (hplaced.prepare_changes hplans hadviser hready hprepared)
  have hread₁ := hplaced.readOriginal_changes hready horiginal
    (hplaced.prepare_changes hplans hadviser hready hprepared)
  -- none of it is done to the files of modules once they have their imports
  have hrest := hplaced.rest_later rfl hplans hold hready₁ hread₁ hsurrounded hreport
  -- the second run
  have honeLine : (Layout.ofPlan plan facts (config.moduleDirectory source) source.basename).OneLine :=
    Layout.oneLine_ofPlan (fun m hm => ⟨hreads.slugs m hm, hlines.1 m hm⟩) hlines.2.1
      ⟨hnamed.noSlash.1, hlines.2.2⟩
  obtain ⟨t₁, hprepared', hfollows⟩ := hplaced.prepare_settled rfl hplans hadviser
    (Storage.storable_of_readPlan hplan) honeLine
    (fun hcalls => ⟨Layout.quiet_ofPlan honeLine (hquiet hcalls).1 (hquiet hcalls).2.1,
      hplaced.feeds rfl (hquiet hcalls).2.2⟩)
    hready hprepared (hfiles ▸ hrest)
  rw [hfiles] at hfollows
  obtain ⟨-, hends⟩ := hplaced.ends_again hplans hready₁ hread₁ hsurrounded hreport
  obtain ⟨surrounded', t₂, t', hsurrounded', hreport', hsame⟩ := hends t₁ hfollows
  have hreads' := hreads.later hclear hnamed hfacts hindex
    (Storage.readFacts_after (.refl ∅ ∅ _) (by simp) hfacts hfacts hindex).2 hchanges
    hsecured.readOriginal
  have hstocked' := hstocked.changes hchanges
  rw [← henvironment, ← hfiles] at hreads' hstocked'
  obtain ⟨report, hrun, hinserted⟩ := exists_link hstocked' hsource hreads' (hfaults ▸ hfaultFacts)
    (hfaults ▸ hfaultPlan) (henvironment ▸ hprepared') ⟨surrounded', by rw [hlinking]; exact hsurrounded'⟩
    (henvironment ▸ hreport')
  exact ⟨report, t', hrun, hinserted, hsame⟩

/-! ## Two modules linked twice -/

def mentionedFacts : Facts where
  source := ""
  functions := [
    { id := "f0", name := "await", start := 0, stop := 34 }, { id := "f1", name := "b", start := 35, stop := 50 }]

def mentionedPlan : Plan where
  modules := [
    { name := "a", slug := "a", functions := ["f0"] }, { name := "b", slug := "b", functions := ["f1"] }]

/-- Two modules that are written already, the first of which mentions the name of the other. -/
def mentionedStart : RunState where
  files :=
    { current := ["work"]
      entries :=
        [["work"], ["work", "out"], ["work", "out", "app.atomized"], ["work", "facts"],
          ["work", "facts", "facts.d"], ["work", "plans"]].map (·, .directory) ++
        [(["work", "app.js"], ["function await() \x7b return b(); \x7d\n", "function b() \x7b\x7d\n"]),
          (["work", "out", "app.atomized", "a.js"], ["function await() \x7b return b(); \x7d\n"]),
          (["work", "out", "app.atomized", "b.js"], ["function b() \x7b\x7d\n", "\n",
            "export \x7b b \x7d;\n"]),
          (["work", "facts", "facts.index.json"], ["\x7b\"source\": \"\", ", "\"shards\": ["] ++
            soloStart.shard "functions" ++ [", "] ++ soloStart.shard "calls" ++ [", "] ++
              soloStart.shard "imports" ++ ["]\x7d"]),
          (["work", "facts", "facts.d", "functions.ndjson"],
            record "f0" "await" "0" "34" ++ ["\n"] ++ record "f1" "b" "35" "50"),
          (["work", "plans", "plan.json"],
            ["["] ++ module "a" "f0" ++ [", "] ++ module "b" "f1" ++ ["]"])].map
          fun (place, pieces) => (place, .file (contentOf pieces)) }
where
  record (id name start stop : String) : List String :=
    ["\x7b\"id\": \"", id, "\", \"name\": \"", name, "\", \"span\": \x7b\"start\": ", start,
      ", \"end\": ", stop, "\x7d\x7d"]
  module (slug id : String) : List String :=
    ["\x7b\"slug\": \"", slug, "\", \"functions\": [\"", id, "\"]\x7d"]

theorem mentionedStart_feeds : ∀ m ∈ mentionedPlan.modules, ∀ text,
    mentionedStart.files.textAt?
      (moduleTarget workspaceConfig ((Path.ofString "/work").child "app.js") m.slug) = some text →
        text.BrokenByFeeds := by
  have hfeeds : ∀ m ∈ mentionedPlan.modules, (mentionedStart.files.textAt?
      (moduleTarget workspaceConfig ((Path.ofString "/work").child "app.js") m.slug)).all
        fun text => decide text.BrokenByFeeds := by decide +kernel
  intro m hm text htext
  have hfeeds := hfeeds m hm
  rw [htext] at hfeeds
  exact of_decide_eq_true hfeeds

def insertedBy (surroundings : Surroundings) (s : RunState) : Nat :=
  match link workspaceConfig surroundings s with
  | .ok report _ => report.inserted
  | .error _ _ => 0

theorem second_link_of_mentioned : ∃ s' report t', insertedBy morning mentionedStart = 1 ∧
    Completes (link workspaceConfig) morning mentionedStart s' ∧
    link workspaceConfig nextMorning { s' with log := [] } = .ok report t' ∧ report.inserted = 0 ∧
    ∀ location, t'.files.entry? location = s'.files.entry? location := by
  have hsource : workspaceConfig.sourcePath? = some ((Path.ofString "/work").child "app.js") := by
    decide +kernel
  have hclear : workspaceConfig.Clear morning.environment mentionedStart.files.current
      ((Path.ofString "/work").child "app.js") :=
    { output := by decide +kernel
      mirror := fun mirror hmirror => by
        obtain rfl : mirror = (Path.ofString "/work").child "out_cjs" :=
          Option.some.inj (hmirror.symm.trans (by decide +kernel))
        decide +kernel
      facts := by decide +kernel
      plans := by decide +kernel
      copies := fun hcopies => absurd hcopies (by decide)
      backups := by decide +kernel
      pattern := by decide +kernel }
  have hmodules : mentionedStart.files.Standing
      (workspaceConfig.moduleDirectory ((Path.ofString "/work").child "app.js")) := by
    unfold Files.Standing
    decide +kernel
  have hfacts : Storage.readFacts (workspaceConfig.factsPath morning.environment)
      mentionedStart.files = .ok mentionedFacts mentionedStart.files :=
    (Storage.readFacts_readOnly _).eq_ok (by decide +kernel)
  have hplan : Storage.readPlan (workspaceConfig.plansPath morning.environment)
      mentionedStart.files = .ok mentionedPlan mentionedStart.files :=
    (Storage.readPlan_readOnly _).eq_ok (by decide +kernel)
  obtain ⟨index, hindex, hstandard⟩ := (Storage.readIndex_readOnly
    (workspaceConfig.factsPath morning.environment)).exists_ok mentionedStart.files
    (fun index => decide index.Standard) (by decide +kernel)
  have hunbroken : Text.Unbroken ((Path.ofString "/work").child "app.js").basename.toList := by
    have hbasename : ((Path.ofString "/work").child "app.js").basename = "app" := by decide +kernel
    rw [hbasename]
    simp [Text.Unbroken]
    decide
  have hlink : endsWell (link workspaceConfig) morning mentionedStart = true := by decide +kernel
  obtain ⟨s', hlinked⟩ : ∃ s', Completes (link workspaceConfig) morning mentionedStart s' :=
    ⟨_, completes_stateAfter hlink⟩
  obtain ⟨report, t', hrun, hinserted, hsame⟩ := second_link_inserts_nothing
    ⟨by decide, Path.ofString_clean _⟩ hsource hclear rfl hfacts
    (fun other hother => by
      rw [(EStateM.Result.ok.inj (hother.symm.trans hindex)).1]
      exact of_decide_eq_true hstandard)
    hplan (by decide +kernel) hmodules
    ⟨by decide +kernel, by decide +kernel, hunbroken⟩
    (fun _ => ⟨by decide +kernel, by decide +kernel, mentionedStart_feeds⟩)
    hlinked (rfl : nextMorning.environment = morning.environment) rfl
    (rfl : ({ s' with log := [] } : RunState).files = s'.files)
  exact ⟨s', report, t', by decide +kernel, hlinked, hrun, hinserted, hsame⟩

end Run

end ScriptSplit
