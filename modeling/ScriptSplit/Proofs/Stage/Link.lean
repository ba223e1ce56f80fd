import ScriptSplit.Proofs.Link.Layout
import ScriptSplit.Proofs.Run.Places
import ScriptSplit.Proofs.Run.Stored

/-!
# What the steps of linking keep

Every step of linking writes to places that are known in advance, so that it keeps every property of the
files that does not depend on them.
-/

namespace ScriptSplit

namespace Run

open Storage (Stable)

variable {α : Type} {surroundings : Surroundings} {current : Location} {property : Files → Prop}
  {config : Config} {plans : Path} {layout : Layout}

theorem Meets.reading {task : Storage α} (h : Storage.ReadOnly task) :
    Meets surroundings property (Run.storing task) (fun _ => property) property :=
  Meets.storing (h.meets property)

theorem writeDocument_meets {directory : Path} {name : String} (hname : Path.IsName name)
    (h : Stable current (Storage.touchedBy directory name current) property) (doc : Json) :
    Meets surroundings property (storing (Storage.writeDocument (directory / name) doc))
      (fun _ files => property files ∧
        files.textAt? (directory.child name) = some (doc.pretty.toList ++ ['\n'])) property := by
  rw [Path.div_name _ hname]
  apply Meets.storing
  apply (Storage.writeText_keeps hname.notUp h _).consequence (fun _ hfiles => hfiles) _
    fun _ hfiles => hfiles
  exact fun _ _ hfiles => ⟨hfiles.1, Files.textAt?_of_at? hfiles.2⟩

theorem writeDocument_keeps {directory : Path} {name : String} (hname : Path.IsName name)
    (h : Stable current (Storage.touchedBy directory name current) property) (doc : Json) :
    Meets surroundings property (storing (Storage.writeDocument (directory / name) doc))
      (fun _ => property) property :=
  (writeDocument_meets hname h doc).consequence (fun _ hfiles => hfiles)
    (fun _ _ hfiles => hfiles.1) fun _ hfiles => hfiles

theorem writeLinkDocument_keeps {directory : Path} {name : String} (hname : Path.IsName name)
    (h : Stable current (Storage.touchedBy directory name current) property) (doc : Json) :
    Meets surroundings property (writeLinkDocument (directory / name) doc)
      (fun _ => property) property :=
  (writeDocument_keeps hname h doc).step fun _ hfiles => hfiles

/-! ## Imports -/

theorem previewImports_meets :
    Meets surroundings property (previewImports layout)
      (fun preview files => (∀ entry ∈ preview, entry.1 ∈ layout.slugs) ∧ property files)
      property := by
  unfold previewImports
  refine (Meets.foldlM (fun (preview : ImportPreview) files =>
    (∀ entry ∈ preview, entry.1 ∈ layout.slugs) ∧ property files) ?_).starting
      fun _ hfiles => ⟨by simp, hfiles⟩
  · intro preview slug hslug
    apply Meets.assume
    intro hpreview
    have hmem : slug ∈ layout.slugs := (List.mem_filter.1 hslug).1
    apply Meets.bind_anyFiles
    intro found
    split
    · apply Meets.bind (Meets.reading (Storage.readText_readOnly _))
      intro text
      refine Meets.pure fun files hfiles => ⟨?_, hfiles⟩
      split
      · exact hpreview
      · intro entry hentry
        rcases Table.mem_put hentry with rfl | hold
        · exact hmem
        · exact hpreview entry hold
    · exact .pure fun _ hfiles => ⟨hpreview, hfiles⟩

theorem reviewPreview_keeps
    (h : Stable current (Storage.touchedBy plans "imports.preview.raw.json" current) property)
    (preview : ImportPreview) :
    Meets surroundings property (reviewPreview config plans preview) (fun _ => property)
      property := by
  unfold reviewPreview
  apply Meets.bind_read
  split
  · exact .pure fun _ hfiles => hfiles
  · apply Meets.bind_get
    intro s
    apply Meets.bind (Meets.orFail _ _)
    intro line
    apply Meets.assume
    rintro -
    simp only
    apply Meets.bind_modify
    · intro _
      rfl
    split
    · exact .pure fun _ hfiles => hfiles
    · apply Meets.bind (writeDocument_keeps ⟨by decide, by decide, by decide, by decide⟩ h _)
      intro _
      exact .pure fun _ hfiles => hfiles

def previewDocuments : List String :=
  ["imports.preview.json", "imports.preview.raw.json"]

theorem findImports_meets
    (h : ∀ name ∈ previewDocuments,
      Stable current (Storage.touchedBy plans name current) property)
    (hlayout : layout.Closed) (facts : Facts) :
    Meets surroundings property (findImports config plans facts layout)
      (fun found files => found.1.needed.Within layout.slugs ∧ property files) property := by
  unfold findImports
  split
  · exact .pure fun _ hfiles => ⟨hlayout.calledNames _, hfiles⟩
  · apply Meets.bind previewImports_meets
    intro preview
    apply Meets.assume
    intro hpreview
    have hneeded := ImportPreview.needed_within hpreview
    apply Meets.bind (writeDocument_keeps ⟨by decide, by decide, by decide, by decide⟩
      (h _ (by simp [previewDocuments])) _)
    intro _
    split
    · exact .pure fun _ hfiles => ⟨hneeded, hfiles⟩
    · apply Meets.bind (reviewPreview_keeps (h _ (by simp [previewDocuments])) preview)
      intro outcome
      split
      · exact .pure fun _ hfiles => ⟨hneeded, hfiles⟩
      · exact Meets.bind_warn (.pure fun _ hfiles => ⟨hneeded, hfiles⟩)

theorem layout_file_eq {slug : String} (hslug : isSlug slug = true)
    (hbasename : '/' ∉ layout.basename.toList) :
    layout.file slug = layout.directory.child (moduleFileName slug layout.basename ".js") :=
  Path.div_name _ (moduleFileName_isName (c := 'j') hslug hbasename ".js" (by decide) (by decide)
    (by decide))

/-- Whether writing any text to a file keeps a property. -/
def WriteKeeps (property : Files → Prop) (path : Path) : Prop :=
  ∀ text, Storage.Meets property (Storage.writeText path text) (fun _ => property) property

theorem writeKeeps_child {directory : Path} {name : String} (hname : name ≠ "..")
    (h : Stable current (Storage.touchedBy directory name current) property) :
    WriteKeeps property (directory.child name) :=
  fun text => (Storage.writeText_keeps hname h text).consequence (fun _ hfiles => hfiles)
    (fun _ _ hfiles => hfiles.1) fun _ hfiles => hfiles

theorem insertInto_keeps {path : Path} (h : WriteKeeps property path) (lines : List String) :
    Storage.Meets property (insertInto path lines) (fun _ => property) property := by
  unfold insertInto
  apply Storage.Meets.bind ((Storage.readText_readOnly _).meets property)
  intro text
  simp only
  split
  · exact .pure fun _ hfiles => hfiles
  · apply Storage.Meets.bind (h _)
    intro _
    exact .pure fun _ hfiles => hfiles

theorem linesFor_keeps (slug : String) (names : List String) :
    Meets surroundings property (linesFor layout slug names) (fun _ => property) property := by
  apply Meets.mapM
  intro name _
  split
  · exact .pure fun _ hfiles => hfiles
  · exact .throw fun _ hfiles => hfiles

theorem insertNeeded_keeps {needed : NeededNames} (hneeded : needed.Within layout.slugs)
    (h : ∀ slug ∈ layout.slugs, WriteKeeps property (layout.file slug)) :
    Meets surroundings property (insertNeeded layout needed) (fun _ => property) property := by
  unfold insertNeeded
  apply Meets.foldlM fun _ => property
  rintro inserted ⟨slug, names⟩ hentry
  apply Meets.bind_anyFiles
  intro found
  split
  · apply Meets.bind (linesFor_keeps slug names)
    intro lines
    apply Meets.bind (Meets.storing (insertInto_keeps (h slug (hneeded.sorted _ hentry)) lines))
    intro count
    exact .pure fun _ hfiles => hfiles
  · exact .pure fun _ hfiles => hfiles

/-! ## Preparing -/

def exportNamesFile : String := "export-names.json"

def preparedDocuments : List String :=
  "imports.source.json" :: exportNamesFile :: previewDocuments

/-- What is known of a source once its modules have their imports: the names that they export are those
of the files `found` then. -/
def preparedLinking (config : Config) (source : Path) (text : Text) (facts : Facts) (layout : Layout)
    (found : Files) : Linking where
  config
  source
  text
  facts
  layout
  exports := moduleExports layout found
  mapping := publicNames (moduleExports layout found)

/-- Preparing keeps what the documents and the files of the modules do not touch. Without a warning, the
public names are on record. -/
theorem prepare_meets
    (hdocuments : ∀ name ∈ preparedDocuments,
      Stable current (Storage.touchedBy plans name current) property)
    (hlayout : layout.Closed)
    (hmodules : ∀ slug ∈ layout.slugs, WriteKeeps property (layout.file slug)) (source : Path)
    (text : Text) (facts : Facts) :
    Meets surroundings property (prepare config plans source text facts layout)
      (fun p files => (∃ found, property found ∧
          p.linking = preparedLinking config source text facts layout found) ∧ property files ∧
        (p.warnings = [] → files.textAt? (plans.child exportNamesFile) =
          some ((exportNamesDoc p.linking.mapping).pretty.toList ++ ['\n']))) property := by
  unfold prepare
  apply Meets.bind ((findImports_meets (fun name hname => hdocuments name
    (by simp [preparedDocuments, hname])) hlayout facts).step fun _ hfiles => hfiles)
  rintro ⟨imports, importWarnings⟩
  apply Meets.assume
  intro hneeded
  apply Meets.bind ((insertNeeded_keeps hneeded hmodules).step fun _ hfiles => hfiles)
  intro insertedBySlug
  apply Meets.bind (writeLinkDocument_keeps ⟨by decide, by decide, by decide, by decide⟩
    (hdocuments _ (by simp [preparedDocuments])) _)
  intro _
  apply Meets.seq (fun exports files =>
    (∃ found, property found ∧ exports = moduleExports layout found) ∧ property files)
  · apply Meets.step _ fun _ hfiles => hfiles
    apply Meets.bind_files
    intro found
    exact .pure fun files hfiles => ⟨⟨files, hfiles.2, by rw [hfiles.1]⟩, hfiles.2⟩
  intro exports
  apply Meets.assume
  rintro ⟨found, hfound, rfl⟩
  apply Meets.bind (Meets.step_pure _ property)
  intro mapping
  apply Meets.assume
  rintro rfl
  have hrecord : Meets surroundings property
      (writeLinkDocument (plans / exportNamesFile)
        (exportNamesDoc (publicNames (moduleExports layout found))))
      (fun _ files => property files ∧ files.textAt? (plans.child exportNamesFile) =
        some ((exportNamesDoc (publicNames (moduleExports layout found))).pretty.toList ++ ['\n']))
      property :=
    (writeDocument_meets ⟨by decide, by decide, by decide, by decide⟩
      (hdocuments exportNamesFile (by simp [preparedDocuments])) _).step fun _ hfiles => hfiles
  apply Meets.bind (hrecord.bestEffort_quiet (fun _ _ hfiles => hfiles.1) fun _ hfiles => hfiles)
  rintro ⟨recorded, namesWarnings⟩
  refine .pure fun files hfiles => ⟨⟨found, hfound, rfl⟩, hfiles.1, fun hquiet => ?_⟩
  obtain ⟨_, -, -, htext⟩ := hfiles.2 (List.append_eq_nil_iff.1 hquiet).2
  exact htext

/-! ## Bridges -/

def bridgePath (source : Path) : Path :=
  source.parent.child source.bridgeName

namespace Linking

variable {l : Linking}

def bridgeText (l : Linking) : Text :=
  renderBridge l.config.banner (bySpecifier l.source l.layout.file l.exports) l.mapping
    (headerLines l.text (firstStart l.facts))

def fallbackText (l : Linking) (from_ : Path) : Text :=
  renderFallbackBridge l.config.banner (Path.specifierFrom l.source.parent from_)

theorem writeBridge_meets (hnamed : l.source.Named)
    (h : Stable current (Storage.touchedBy l.source.parent l.source.bridgeName current) property) :
    Meets surroundings property l.writeBridge
      (fun path files => path = bridgePath l.source ∧ property files ∧
        files.at? (bridgePath l.source) = some (.file (.text l.bridgeText))) property := by
  apply Meets.step _ fun _ hfiles => hfiles
  rw [hnamed.bridge?_eq, storing_require_some, pure_bind]
  apply Meets.bind (Meets.step_pure _ property)
  intro header
  apply Meets.assume
  rintro rfl
  apply Meets.bind (Meets.step_pure _ property)
  intro text
  apply Meets.assume
  rintro rfl
  apply Meets.bind (Meets.storing (Storage.writeText_keeps hnamed.isName_bridgeName.notUp h _))
  intro _
  exact .pure fun _ hfiles => ⟨rfl, hfiles⟩

theorem writeFallback_meets (hnamed : l.source.Named) (backup : Option Path)
    (h : Stable current (Storage.touchedBy l.source.parent l.source.bridgeName current) property) :
    Meets surroundings property (l.writeFallback backup)
      (fun path files => path = bridgePath l.source ∧ property files ∧
        files.at? (bridgePath l.source) =
          some (.file (.text (l.fallbackText (backup.getD l.source))))) property := by
  apply Meets.step _ fun _ hfiles => hfiles
  rw [hnamed.bridge?_eq, storing_require_some, pure_bind]
  apply Meets.bind (Meets.step_pure _ property)
  intro text
  apply Meets.assume
  rintro rfl
  apply Meets.bind (Meets.storing (Storage.writeText_keeps hnamed.isName_bridgeName.notUp h _))
  intro _
  exact .pure fun _ hfiles => ⟨rfl, hfiles⟩

/-! ## The CommonJS mirror -/

theorem writeMirrorModule_keeps {directory : Path} {slug : String} (hslug : isSlug slug = true)
    (hbasename : '/' ∉ l.layout.basename.toList)
    (h : Stable current (Storage.touchedBy directory
      (moduleFileName slug l.layout.basename ".cjs") current) property)
    (written : List Path) :
    Meets surroundings property
      (l.writeMirrorModule (fun slug => directory / moduleFileName slug l.layout.basename ".cjs")
        written slug)
      (fun _ => property) property := by
  have hname := moduleFileName_isName (c := 'j') hslug hbasename ".cjs" (by decide)
    (by decide) (by decide)
  unfold writeMirrorModule
  apply Meets.bind_anyFiles
  intro found
  split
  · apply Meets.bind (Meets.reading (Storage.readText_readOnly _))
    intro text
    apply Meets.bind (Meets.step_pure _ property)
    rintro ⟨converted, count⟩
    apply Meets.assume
    intro _
    simp only [Path.div_name _ hname]
    apply Meets.bind (Meets.storing (Storage.writeText_keeps hname.notUp h _))
    intro _
    exact .pure fun _ hfiles => hfiles.1
  · exact .pure fun _ hfiles => hfiles

theorem writeMirror_keeps (hnamed : l.source.Named)
    (hslugs : ∀ slug ∈ l.layout.slugs, isSlug slug = true)
    (hbasename : '/' ∉ l.layout.basename.toList)
    (hmirror : ∀ mirror, l.config.mirrorRoot? = some mirror → ∀ slug ∈ l.layout.slugs,
      Stable current (Storage.touchedBy (mirror.child l.source.groupName)
        (moduleFileName slug l.layout.basename ".cjs") current) property)
    (hbridge : Stable current
      (Storage.touchedBy l.source.parent l.source.requireBridgeName current) property) :
    Meets surroundings property l.writeMirror (fun _ => property) property := by
  apply Meets.step _ fun _ hfiles => hfiles
  rw [Path.mirrorDirectory?_eq _ hnamed]
  cases hroot : l.config.mirrorRoot? with
  | none =>
      rw [Option.map_none]
      exact Meets.bind_require_none fun _ hfiles => hfiles
  | some mirror =>
      rw [Option.map_some, storing_require_some, pure_bind]
      refine Meets.bind (Meets.foldlM (fun _ => property) ?_) ?_
      · intro written slug hslug
        exact writeMirrorModule_keeps (hslugs slug hslug) hbasename
          (hmirror mirror hroot slug hslug) written
      · intro written
        rw [hnamed.requireBridge?_eq, storing_require_some, pure_bind]
        apply Meets.bind (Meets.step_pure _ property)
        intro text
        apply Meets.assume
        rintro rfl
        apply Meets.bind (Meets.storing (Storage.writeText_keeps
          hnamed.isName_requireBridgeName.notUp hbridge _))
        intro _
        exact .pure fun _ hfiles => hfiles.1

/-! ## The shim -/

def shimText (l : Linking) : Text :=
  renderShim l.config.banner l.source.bridgeName

theorem writeShim_meets (written : Files → Prop) (hnamed : l.source.Named)
    (haside : Stable current {Storage.asideOf l.source.parent l.source.name current} property)
    (hwritten : ∀ before after, Files.Changes
      (Storage.touchedBy l.source.parent l.source.name current) Set.univ before after →
        property before → after.at? l.source = some (.file (.text l.shimText)) → written after) :
    Meets surroundings property l.writeShim
      (fun _ files => property files ∧ files.textAt? l.source = some l.shimText ∨ written files)
      property := by
  apply Meets.step _ fun _ hfiles => hfiles
  rw [hnamed.bridge?_eq, storing_require_some, pure_bind, Path.child_name]
  apply Meets.bind (Meets.step_pure _ property)
  intro text
  apply Meets.assume
  rintro rfl
  apply Meets.bind (Meets.storing (Storage.readText_meets l.source property))
  intro found
  split
  · apply Meets.storing
    conv in Storage.writeText _ _ => rw [← hnamed.parent_child]
    apply (Storage.writeText_meets written hnamed.isName.notUp haside ?_).consequence
    · exact fun _ hfiles => hfiles.1
    · exact fun _ _ hfiles => Or.inr hfiles
    · exact fun _ hfiles => hfiles
    · rw [hnamed.parent_child]
      exact hwritten
  · next hsame =>
      have hfound : found = l.shimText := not_not.1 hsame
      exact .pure fun _ hfiles => Or.inl ⟨hfiles.1, hfound ▸ hfiles.2⟩

theorem copyBackup_keeps (hnamed : l.source.Named)
    (h : Stable current (Storage.touchedBy (l.config.outputRoot.child l.source.groupName)
      l.source.backupName current) property)
    (backup : Path) :
    Meets surroundings property (l.copyBackup backup) (fun _ => property) property := by
  have hbackup := hnamed.isName_backupName
  apply Meets.step _ fun _ hfiles => hfiles
  rw [hnamed.backup?_eq, storing_require_some, pure_bind, Path.child_name,
    Path.moduleDirectory_eq _ hnamed, Path.div_name _ hbackup]
  apply Meets.bind (Meets.reading (Storage.readText_readOnly _))
  intro text
  apply Meets.bind (Meets.storing (Storage.writeText_keeps hbackup.notUp h _))
  intro _
  exact .pure fun _ hfiles => hfiles.1

end Linking

end Run

end ScriptSplit
