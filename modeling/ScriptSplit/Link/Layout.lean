import ScriptSplit.Emit.Exports
import ScriptSplit.Facts.Index
import ScriptSplit.Path.Names
import ScriptSplit.Plan.Basic

/-!
# Layout of modules

Where each module of a plan lives and which names it declares.
-/

namespace ScriptSplit

/-- The modules of a plan as files in one directory. -/
structure Layout where
  directory : Path
  basename : String
  /-- The slug of the module of each function id; the last module that lists an id has it. -/
  moduleOfId : Table String := []
  /-- The slug of the module of each name; the first module that declares a name has it. -/
  moduleOfName : Table String := []
  /-- The names that each module declares, in the order of the plan. -/
  namesIn : Table (List String) := []
  slugs : List String := []
  originalSlug? : Option String := none

namespace Layout

def addFunction (facts : Facts) (slug : String) (layout : Layout) (id : String) : Layout :=
  let layout := { layout with moduleOfId := layout.moduleOfId.put id slug }
  match facts.function? id with
  | some f =>
    if isExportable f.name then
      let names := (layout.namesIn.get? slug).getD []
      { layout with
        namesIn :=
          layout.namesIn.put slug (if names.contains f.name then names else names ++ [f.name])
        moduleOfName := layout.moduleOfName.putNew f.name slug }
    else layout
  | none => layout

def addModule (facts : Facts) (layout : Layout) (m : ModuleSpec) : Layout :=
  m.functions.foldl (addFunction facts m.slug)
    { layout with
      slugs := layout.slugs ++ [m.slug]
      originalSlug? := if m.isOriginal then some m.slug else layout.originalSlug?
      namesIn := layout.namesIn.putNew m.slug [] }

def ofPlan (plan : Plan) (facts : Facts) (directory : Path) (basename : String) : Layout :=
  plan.modules.foldl (addModule facts) { directory, basename }

def names (layout : Layout) (slug : String) : List String :=
  (layout.namesIn.get? slug).getD []

def file (layout : Layout) (slug : String) : Path :=
  layout.directory / moduleFileName slug layout.basename ".js"

/-- Whether imports are added to a module. The one that keeps the source has every name already. -/
def acceptsImports (layout : Layout) (slug : String) : Bool :=
  layout.originalSlug? != some slug

/-- The line that imports a name into a module, if a module declares the name. -/
def importLine? (layout : Layout) (importer name : String) : Option String :=
  (layout.moduleOfName.get? name).map fun target =>
    "import \x7b " ++ name ++ " \x7d from '" ++
      Path.specifierFrom (layout.file importer).parent (layout.file target) ++ "';"

end Layout

end ScriptSplit
