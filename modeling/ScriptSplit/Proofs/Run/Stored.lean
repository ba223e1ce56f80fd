import ScriptSplit.Proofs.Json.RoundTrip
import ScriptSplit.Proofs.Path.Basic
import ScriptSplit.Proofs.Plan.Reading
import ScriptSplit.Proofs.Run.Storage

/-!
# Tasks that only read

Facts, plans, originals and backups are looked up without any change.
-/

namespace ScriptSplit.Storage

variable {α : Type}

theorem artifact_readOnly (cause : ArtifactError) : ReadOnly (artifact cause : Storage α) :=
  .throw _

theorem orArtifact_readOnly (outcome : Except ArtifactError α) : ReadOnly (orArtifact outcome) := by
  cases outcome with
  | ok a => exact .pure a
  | error cause => exact artifact_readOnly cause

theorem shaped_readOnly (what : String) (read : Except ShapeFault α) :
    ReadOnly (shaped what read) := by
  cases read with
  | ok a => exact .pure a
  | error fault => exact artifact_readOnly _

theorem require_readOnly (path : Path) (beside : Option Path) : ReadOnly (require path beside) := by
  cases beside with
  | some found => exact .pure found
  | none => exact .throw _

theorem readDocument_readOnly (path : Path) (writer : Stage) :
    ReadOnly (readDocument path writer) := by
  unfold readDocument
  apply ReadOnly.bind (readText_readOnly path).attempt
  intro outcome
  split
  · split
    · exact .pure _
    · exact artifact_readOnly _
  · split
    · exact artifact_readOnly _
    · exact artifact_readOnly _
  · exact artifact_readOnly _
  · exact .throw _

theorem readDocument_eq {directory : Path} {name : String} {files : Files} {doc : Json}
    (hname : Path.IsName name) (hreadable : doc.Readable)
    (htext : files.textAt? (directory.child name) = some (doc.pretty.toList ++ ['\n']))
    {writer : Stage} : readDocument (directory / name) writer files = .ok doc files := by
  have hread := readText_eq_ok.2 ⟨rfl, htext⟩
  rw [Path.div_name _ hname, readDocument, bind_eq (attempt_eq_ok hread)]
  simp only [Json.readDocument_pretty hreadable]
  rfl

theorem readRecords_readOnly (path : Path) (what : String) (ofDoc : Json → Except ShapeFault α) :
    ReadOnly (readRecords path what ofDoc) := by
  unfold readRecords
  apply ReadOnly.bind (readText_readOnly path).attempt
  intro outcome
  split
  · exact orArtifact_readOnly _
  · split
    · exact .pure _
    · exact artifact_readOnly _
  · exact .throw _

theorem readIndex_readOnly (directory : Path) : ReadOnly (readIndex directory) :=
  (readDocument_readOnly _ _).bind fun _ => shaped_readOnly _ _

theorem shardPath_readOnly (directory : Path) (index : FactsIndex) (kind : String) :
    ReadOnly (shardPath directory index kind) := by
  unfold shardPath
  split
  · split
    · exact .throw _
    · exact .pure _
  · exact artifact_readOnly _

theorem readTopLevel_readOnly (directory : Path) : ReadOnly (readTopLevel directory) := by
  unfold readTopLevel
  apply ReadOnly.bind .files
  intro files
  split
  · apply (readDocument_readOnly _ _).bind
    intro doc
    split
    · exact shaped_readOnly _ _
    · exact .pure _
  · exact .pure _

theorem readFacts_readOnly (directory : Path) : ReadOnly (readFacts directory) := by
  have hrest : ∀ index functions, ReadOnly (do
      let calls ← readRecords (← shardPath directory index "calls") CallEdge.docName CallEdge.ofDoc
      let imports ← readRecords (← shardPath directory index "imports")
        ImportRecord.docName ImportRecord.ofDoc
      let topLevel ← readTopLevel directory
      return ({ source := index.source, functions, calls, imports, topLevel } : Facts)) := by
    intro index functions
    apply (shardPath_readOnly _ _ _).bind
    intro path
    apply (readRecords_readOnly _ _ _).bind
    intro calls
    apply (shardPath_readOnly _ _ _).bind
    intro path
    apply (readRecords_readOnly _ _ _).bind
    intro imports
    apply (readTopLevel_readOnly _).bind
    intro topLevel
    exact .pure _
  unfold readFacts
  apply (readIndex_readOnly _).bind
  intro index
  apply (shardPath_readOnly _ _ _).bind
  intro path
  apply (readRecords_readOnly _ _ _).bind
  intro functions
  split
  · exact (artifact_readOnly _).bind fun _ => hrest index functions
  · exact hrest index functions

theorem readPlan_readOnly (directory : Path) : ReadOnly (readPlan directory) := by
  unfold readPlan
  apply (readDocument_readOnly _ _).bind
  intro doc
  split
  · exact .pure _
  · exact .throw _

theorem readPlan_meets (directory : Path) (before : Files → Prop) :
    Meets before (readPlan directory)
      (fun plan files => (∀ m ∈ plan.modules, isSlug m.slug = true) ∧ before files) before := by
  unfold readPlan
  apply Meets.bind ((readDocument_readOnly _ _).meets before)
  intro doc
  split
  · next plan hplan =>
      exact .pure fun files hfiles => ⟨fun m hm => Plan.isSlug_of_ofDoc hplan hm, hfiles⟩
  · exact .throw fun _ hfiles => hfiles

theorem firstUsable_readOnly (paths : List Path) : ReadOnly (firstUsable paths) := by
  induction paths with
  | nil => exact .pure _
  | cons path paths ih =>
      unfold firstUsable
      apply ReadOnly.bind .files
      intro files
      split
      · apply (readText_readOnly path).bind
        intro text
        split
        · exact ih
        · exact .pure _
      · exact ih

theorem findBackup_readOnly (source : Path) : ReadOnly (findBackup source) := by
  unfold findBackup
  apply (require_readOnly _ _).bind
  intro plain
  have hsearch : ReadOnly (do firstUsable (plain :: datedBackups source (← files))) :=
    ReadOnly.bind .files fun _ => firstUsable_readOnly _
  split
  · exact (ReadOnly.throw _).bind fun _ => hsearch
  · exact hsearch

theorem readOriginal_readOnly (source : Path) : ReadOnly (readOriginal source) := by
  unfold readOriginal
  apply ReadOnly.bind (readText_readOnly source).attempt
  intro outcome
  split
  · exact .throw _
  · exact .throw _
  · exact .throw _
  · split
    · apply (findBackup_readOnly source).bind
      intro found
      split
      · exact (readText_readOnly _).bind fun _ => .pure _
      · exact .throw _
    · exact .pure _

end ScriptSplit.Storage
