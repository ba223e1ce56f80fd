import ScriptSplit.Bridge.Header
import ScriptSplit.Bridge.Render
import ScriptSplit.CommonJs
import ScriptSplit.Link.Imports
import ScriptSplit.Link.Insertion
import ScriptSplit.Plan.Report
import ScriptSplit.Run.StoredPlan
import ScriptSplit.Stage.Analyze

/-!
# Linking

The last stage: modules get the imports that they need, a bridge gathers their exports, and a shim takes
the place of the source. Only the insertion of imports must succeed. Any other step may fail, which leaves
a warning; the source is replaced only once a backup and a bridge are there.
-/

namespace ScriptSplit

structure LinkReport where
  imports : ImportPlan
  inserted : Nat
  files : List Path
  messages : List String
  warnings : List Warning

namespace Run

def linkWarning (message : String) : Warning where
  stage := .link
  kind := .linkBestEffortFailure
  message

/-- Runs a step that may fail. Then there is no value, and a warning. -/
def bestEffort {α : Type} (name : String) (task : Run α) : Run (Option α × List Warning) := do
  match (← attempt task) with
  | .ok a => return (some a, [])
  | .error cause =>
    let warning := linkWarning (name ++ " failed: " ++ cause.message)
    warn "linker.runner" warning
    return (none, [warning])

def previewImports (layout : Layout) : Run ImportPreview :=
  (layout.slugs.filter layout.acceptsImports).foldlM (fun preview slug => do
    let path := layout.file slug
    if (← files).has path then
      let lines := layout.mentionedLines slug (← storing (Storage.readText path))
      return if lines.isEmpty then preview else preview.put slug lines
    else return preview) []

def previewInstructions : String :=
  "You are a small code assistant. Given candidate import statements per module, " ++
  "reply with a JSON object \x7bvalid:[...], invalid:[...]\x7d naming which imports look " ++
  "necessary based on token usage. Reply only JSON."

def previewRequest (config : Config) (preview : ImportPreview) : ChatRequest where
  model := config.adviser.model
  maxTokens := config.adviser.maxTokens
  temperature := .float (.zero false)
  system := previewInstructions
  messages := [{ role := .user, content := (Json.object [("preview", preview.toDoc)]).compact }]

def reviewPreview (config : Config) (plansDirectory : Path) (preview : ImportPreview) :
    Run (Except ChatError Unit) := do
  let surroundings ← read
  match apiKey surroundings.environment config.adviser.provider "linker" with
  | .error cause => return .error cause
  | .ok key =>
    let client : ChatClient :=
      { provider := config.adviser.provider, key, timeout := config.adviser.timeout
        url := config.adviser.url }
    let line ← orFail .injected ((← get).line.connect client)
    let (reply, line) := line.send client "linker" (previewRequest config preview)
    modify fun s => { s with line }
    match reply with
    | .error cause => return .error cause
    | .ok body =>
      storing (Storage.writeDocument (plansDirectory / "imports.preview.raw.json")
        (.object [("timestamp", .string surroundings.now.written), ("body", .string body)]))
      return .ok ()

/-- The imports that the modules need: by the calls, or, where no calls are known, by what the texts of
the modules mention. The adviser's view of the latter is recorded and has no other effect. -/
def findImports (config : Config) (plansDirectory : Path) (facts : Facts) (layout : Layout) :
    Run (ImportPlan × List Warning) := do
  if !facts.calls.isEmpty then return (.ofCalls layout facts.calls, [])
  let preview ← previewImports layout
  storing (Storage.writeDocument (plansDirectory / "imports.preview.json") preview.toDoc)
  if preview.isEmpty || !config.adviser.enabled then return (.ofPreview preview, [])
  match (← reviewPreview config plansDirectory preview) with
  | .ok () => return (.ofPreview preview, [])
  | .error cause =>
    let warning := linkWarning ("import preview validation skipped: " ++ cause.message)
    warn "linker.imports" warning
    return (.ofPreview preview, [warning])

def insertInto (path : Path) (lines : List String) : Storage Nat := do
  let (text, count) := insertImports (← Storage.readText path) lines
  if count = 0 then return 0
  Storage.writeText path text
  return count

def linesFor (layout : Layout) (slug : String) (names : List String) : Run (List String) :=
  names.mapM fun name =>
    match layout.importLine? slug name with
    | some line => pure line
    | none => throw (.undeclared name)

def insertNeeded (layout : Layout) (needed : NeededNames) : Run (Table Nat) :=
  needed.sorted.foldlM (fun inserted (slug, names) => do
    let path := layout.file slug
    if (← files).has path then
      let lines ← linesFor layout slug names
      return inserted.put slug (← storing (insertInto path lines))
    else return inserted) []

/-- The names that each written module exports; a name belongs to the first module that declares it. -/
def moduleExports (layout : Layout) (files : Files) : ModuleExports :=
  layout.slugs.filterMap fun slug =>
    let names := (layout.names slug).filter fun name =>
      layout.moduleOfName.get? name == some slug
    if files.has (layout.file slug) && !names.isEmpty then some (slug, names) else none

/-- Exports by the specifiers of the files that `file` gives for the slugs. -/
def bySpecifier (source : Path) (file : String → Path) (exports : ModuleExports) : ModuleExports :=
  exports.map fun (slug, names) => (Path.specifierFrom source.parent (file slug), names)

structure Linking where
  config : Config
  source : Path
  text : Text
  facts : Facts
  layout : Layout
  exports : ModuleExports
  mapping : Table String

namespace Linking

def firstStart (facts : Facts) : Option Nat :=
  ((facts.functions.map (·.start)).min?).map Int.toNat

def writeBridge (l : Linking) : Run Path := step .writeBridge do
  let target ← storing (Storage.require l.source l.source.bridge?)
  let header ← step .takeHeader (pure (headerLines l.text (firstStart l.facts)))
  let text ← step .renderBridge <| pure <|
    renderBridge l.config.banner (bySpecifier l.source l.layout.file l.exports) l.mapping header
  storing (Storage.writeText target text)
  return target

/-- Writes a bridge that exports all that the backup does, or the source where there is none. -/
def writeFallback (l : Linking) (backup : Option Path) : Run Path := step .writeFallback do
  let target ← storing (Storage.require l.source l.source.bridge?)
  let specifier := Path.specifierFrom l.source.parent (backup.getD l.source)
  let text ← step .renderFallback (pure (renderFallbackBridge l.config.banner specifier))
  storing (Storage.writeText target text)
  return target

def writeMirrorModule (l : Linking) (mirror : String → Path) (written : List Path) (slug : String) :
    Run (List Path) := do
  let path := l.layout.file slug
  if (← files).has path then
    let text ← storing (Storage.readText path)
    let (text, _) ← step .convertModule (pure (CommonJs.ofModule text))
    storing (Storage.writeText (mirror slug) text)
    return written ++ [mirror slug]
  else return written

def writeMirror (l : Linking) : Run (List Path) := step .writeMirror do
  let directory ← storing (Storage.require l.config.outputRoot (l.config.mirrorDirectory? l.source))
  let mirror (slug : String) : Path :=
    directory / moduleFileName slug l.layout.basename ".cjs"
  let written ← l.layout.slugs.foldlM (l.writeMirrorModule mirror) []
  let bridge ← storing (Storage.require l.source l.source.requireBridge?)
  let text ← step .renderRequireBridge <| pure <|
    renderRequireBridge l.config.banner (bySpecifier l.source mirror l.exports) l.mapping
  storing (Storage.writeText bridge text)
  return written ++ [bridge]

/-- Puts the shim in the place of the source, unless it is there. -/
def writeShim (l : Linking) : Run Unit := step .writeShim do
  let bridge ← storing (Storage.require l.source l.source.bridge?)
  let text ← step .renderShim (pure (renderShim l.config.banner bridge.name))
  if (← storing (Storage.readText l.source)) ≠ text then
    storing (Storage.writeText l.source text)

def copyBackup (l : Linking) (backup : Path) : Run Path := step .copyBackup do
  let plain ← storing (Storage.require l.source l.source.backup?)
  let target := l.config.moduleDirectory l.source / plain.name
  storing (Storage.writeText target (← storing (Storage.readText backup)))
  return target

/-- Writes the bridge or, if that fails, the one that exports all that the backup does. -/
def writeBridges (l : Linking) (backup : Option Path) : Run (Option Path × List Warning) := do
  let (bridge, bridgeWarnings) ← bestEffort "bridge" l.writeBridge
  match bridge with
  | some path => return (some path, bridgeWarnings)
  | none =>
    let (fallback, fallbackWarnings) ← bestEffort "fallback bridge" (l.writeFallback backup)
    return (fallback, bridgeWarnings ++ fallbackWarnings)

def replaceSource (l : Linking) (backup bridge : Path) :
    Run (List Path × List String × List Warning) := do
  let (shim, shimWarnings) ← bestEffort "shim" l.writeShim
  let (copied, copyWarnings) ← bestEffort "backup copy" (l.copyBackup backup)
  return ((if shim.isSome then [l.source] else []) ++ copied.toList,
    (if shim.isSome then
      ["link: " ++ l.source.name ++ " now re-exports " ++ bridge.name] else []),
    shimWarnings ++ copyWarnings)

structure Surrounded where
  backup : Option Path
  files : List Path
  messages : List String
  warnings : List Warning

/-- Backs the source up, writes the bridges and the mirror and, where there is a backup and a bridge,
replaces the source. -/
def surround (l : Linking) : Run Surrounded := do
  let now := (← read).now
  let (backup, backupWarnings) ← bestEffort "backup" <|
    step .backUp (storing (Storage.backUp l.source now))
  let (bridge, bridgeWarnings) ← l.writeBridges backup
  let (mirrored, mirrorWarnings) ← bestEffort "CommonJS mirror" l.writeMirror
  let (replaced, replacedMessages, replacedWarnings) ←
    match backup, bridge with
    | some backup, some bridge => l.replaceSource backup bridge
    | _, _ => pure ([], ["link: " ++ l.source.name ++ " left unchanged"], [])
  return {
    backup
    files := bridge.toList ++ mirrored.getD [] ++ replaced
    messages := (backup.toList.map fun path => "link: backup at " ++ path.name) ++ replacedMessages
    warnings := backupWarnings ++ bridgeWarnings ++ mirrorWarnings ++ replacedWarnings }

end Linking

def writeLinkDocument (path : Path) (doc : Json) : Run Unit :=
  step .writeDocument (storing (Storage.writeDocument path doc))

def exportNamesDoc (mapping : Table String) : Json :=
  .object ((mapping.mergeSort fun a b => !decide (b.1 < a.1)).map fun (name, shown) =>
    (name, .string shown))

structure Prepared where
  linking : Linking
  imports : ImportPlan
  inserted : Nat
  warnings : List Warning

def prepare (config : Config) (plansDirectory source : Path) (text : Text) (facts : Facts)
    (layout : Layout) : Run Prepared := do
  let (imports, importWarnings) ←
    step .findImports (findImports config plansDirectory facts layout)
  let insertedBySlug ← step .insertImports (insertNeeded layout imports.needed)
  writeLinkDocument (plansDirectory / "imports.source.json") imports.audit
  let exports ← step .gatherExports do return moduleExports layout (← files)
  let mapping ← step .nameExports (pure (publicNames exports))
  let (_, namesWarnings) ← bestEffort "export names" <|
    writeLinkDocument (plansDirectory / "export-names.json") (exportNamesDoc mapping)
  return {
    linking := { config, source, text, facts, layout, exports, mapping }
    imports
    inserted := insertedBySlug.foldl (fun total entry => total + entry.2) 0
    warnings := importWarnings ++ namesWarnings }

def link (config : Config) : Run LinkReport := do
  let source ← sourcePath config
  let (text, usedFrom) ← storing (Storage.readOriginal source)
  let factsDirectory ← factsDirectory config
  let facts ← step .readFacts (storing (Storage.readFacts factsDirectory))
  let plansDirectory ← plansDirectory config
  let plan ← step .readPlan (storing (Storage.readPlan plansDirectory))
  let layout := Layout.ofPlan plan facts (config.moduleDirectory source) source.basename
  let p ← prepare config plansDirectory source text facts layout
  let surrounded ← p.linking.surround
  let report ← step .report (pure (plan.report facts))
  writeLinkDocument (plansDirectory / "report.json") report
  return {
    imports := p.imports
    inserted := p.inserted
    files := surrounded.files
    messages := backupMessage .link source usedFrom "using" ++
      ["link: " ++ toString p.inserted ++ " import line(s) inserted (" ++
        p.imports.source.name ++ ")"] ++ surrounded.messages
    warnings := p.warnings ++ surrounded.warnings }

end Run

end ScriptSplit
