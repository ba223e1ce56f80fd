import ScriptSplit.Link.Layout
import ScriptSplit.Link.Reference

/-!
# Imports between modules

Which names a module needs from others: those that its functions call, or, where no calls are known,
those that its text mentions.
-/

namespace ScriptSplit

/-- The names that each module needs, by its slug, as sets. -/
abbrev NeededNames := Table (List String)

abbrev ImportPreview := Table (List String)

namespace NeededNames

def add (needed : NeededNames) (slug name : String) : NeededNames :=
  needed.put slug (Names.insert name ((needed.get? slug).getD []))

def total (needed : NeededNames) : Nat :=
  (needed.flatMap (·.2)).length

def sorted (needed : NeededNames) : NeededNames :=
  needed.mergeSort fun a b => !decide (b.1 < a.1)

end NeededNames

namespace Layout

/-- The module that a call edge makes need a name, if it leads from one module into another. -/
def importerOf? (layout : Layout) (edge : CallEdge) : Option String := do
  let importer ← layout.moduleOfId.get? edge.caller
  let target ← layout.moduleOfName.get? edge.callee
  if importer = target || !layout.acceptsImports importer ||
      (layout.names importer).contains edge.callee then none
  else return importer

def calledNames (layout : Layout) (calls : List CallEdge) : NeededNames :=
  calls.foldl (fun needed edge =>
    match layout.importerOf? edge with
    | some importer => needed.add importer edge.callee
    | none => needed) []

/-- The import lines for the names of other modules that the text of a module mentions. -/
def mentionedLines (layout : Layout) (slug : String) (text : Text) : List String :=
  let names := layout.moduleOfName.mergeSort fun a b => !decide (b.1 < a.1)
  (names.filterMap fun (name, target) =>
    if target = slug || (layout.names slug).contains name || (firstReference? text name).isNone
    then none
    else layout.importLine? slug name).eraseDups

def importLines (layout : Layout) (slug : String) (names : List String) : List String :=
  names.filterMap (layout.importLine? slug)

end Layout

namespace ImportPreview

/-- Recognises the import of one name in braces. -/
def importedName : Text.Recogniser String := fun _ text => do
  let rest ← Text.afterWord? "import" text
  let '{' :: rest := Text.skipBlanks rest | none
  let (name, rest) ← Text.spanName? (Text.skipBlanks rest)
  let '}' :: after := Text.skipBlanks rest | none
  return (String.ofList name, text.length - after.length)

def nameIn? (line : String) : Option String :=
  ((Text.findAll importedName line.toList).head?).map (·.value)

def needed (preview : ImportPreview) : NeededNames :=
  preview.foldl (fun needed (slug, lines) =>
    (lines.filterMap nameIn?).foldl (fun needed name => needed.add slug name) needed) []

def toDoc (preview : ImportPreview) : Json :=
  .object (preview.map fun (slug, lines) => (slug, .ofStrings lines))

end ImportPreview

inductive ImportSource where
  | callGraph
  | heuristic
  | none
  deriving DecidableEq, Repr

def ImportSource.name : ImportSource → String
  | .callGraph => "callgraph"
  | .heuristic => "heuristic"
  | .none => "none"

structure ImportPlan where
  needed : NeededNames
  source : ImportSource
  preview : ImportPreview := []

namespace ImportPlan

def ofCalls (layout : Layout) (calls : List CallEdge) : ImportPlan :=
  let needed := layout.calledNames calls
  { needed, source := if needed.isEmpty then .none else .callGraph }

def ofPreview (preview : ImportPreview) : ImportPlan :=
  let needed := preview.needed
  { needed, source := if needed.isEmpty then .none else .heuristic, preview }

def audit (plan : ImportPlan) : Json :=
  .object [("source", .string plan.source.name), ("total", .ofNat plan.needed.total),
    ("modules", .object (plan.needed.sorted.map fun (slug, names) => (slug, .ofNat names.length)))]

end ImportPlan

end ScriptSplit
