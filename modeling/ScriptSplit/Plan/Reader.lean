import ScriptSplit.Plan.Basic

/-!
# Reading and checking plans

A plan is read from an array of modules or from an object that holds one. Whether a plan fits the
functions of a script is a separate question.
-/

namespace ScriptSplit.Plan

structure Taken where
  /-- Slugs in lower case. -/
  slugs : List String := []
  ids : List String := []

def optionalText (doc : Json) (key : String) (error : PlanError) :
    Except PlanError (Option String) :=
  match doc.member? key with
  | none => .ok none
  | some .null => .ok none
  | some (.string value) => .ok (some value)
  | some _ => .error error

def firstNonempty (texts : List String) (last : String) : String :=
  (texts.find? (· != "")).getD last

/-- Notes ids as taken, or names the first that already was. -/
def takeIds (taken : List String) : List String → Except PlanError (List String)
  | [] => .ok taken
  | id :: rest =>
    if taken.contains id then .error (.assignedTwice id) else takeIds (id :: taken) rest

def moduleOfDoc (n : Nat) (taken : Taken) (doc : Json) : Except PlanError (ModuleSpec × Taken) := do
  match doc with
  | .object _ => pure ()
  | _ => throw (.moduleNotAnObject n)
  let functions ←
    match doc.member? "functions" with
    | some (.array items) =>
      match Json.strings? items with
      | some ids => pure ids
      | none => throw (.functionsNotStrings n)
    | _ => throw (.functionsNotStrings n)
  let slug ← optionalText doc "slug" (.slugNotText n)
  let name ← optionalText doc "name" (.nameNotText n)
  let slug := firstNonempty [slug.getD "", slugify (name.getD "")] ("mod" ++ toString n)
  if !isSlug slug then throw (.invalidSlug n slug)
  if taken.slugs.contains (Text.lower slug) then throw (.duplicateSlug slug)
  let ids ← takeIds taken.ids functions
  return ({ name := firstNonempty [name.getD ""] slug, slug, functions },
    { slugs := Text.lower slug :: taken.slugs, ids })

def modulesOfDocs (n : Nat) (taken : Taken) : List Json → Except PlanError (List ModuleSpec)
  | [] => .ok []
  | doc :: rest => do
    let (m, taken) ← moduleOfDoc n taken doc
    let more ← modulesOfDocs (n + 1) taken rest
    return m :: more

def ofDoc (doc : Json) : Except PlanError Plan := do
  let list ←
    match doc with
    | .object members =>
      match members.lookup "modules" with
      | some list => pure list
      | none => throw .noModules
    | doc => pure doc
  match list with
  | .array docs => return { modules := ← modulesOfDocs 1 {} docs }
  | _ => throw .notAList

def hasRepeated : List String → Bool
  | [] => false
  | id :: rest => rest.contains id || hasRepeated rest

/-- Checks a plan against the functions it is for; the first fault is named. `basename` is the name
of the file that the module with the whole source takes. -/
def validate (plan : Plan) (functions : List FunctionRecord) (maxFiles : Int)
    (basename : Option String) : Except PlanError Unit := do
  let known := Names.ofList (functions.map (·.id))
  let assigned := Names.ofList plan.assigned
  let unknown := Names.diff assigned known
  if !unknown.isEmpty then throw (.unknownFunctions unknown)
  if hasRepeated plan.assigned then throw .repeatedFunction
  let missing := Names.diff known assigned
  if !missing.isEmpty then throw (.unassignedFunctions missing)
  if maxFiles < plan.modules.length then throw (.tooManyModules plan.modules.length maxFiles)
  let fixed := Names.ofList ((functions.filter (!·.moveable)).map (·.id))
  match plan.original? with
  | none => if !fixed.isEmpty then throw .noOriginal
  | some original =>
    if Names.ofList original.functions != fixed then throw .wrongOriginal
    match basename with
    | none => pure ()
    | some basename =>
      if basename != "" then
        match plan.modules.find? fun m =>
            !m.isOriginal && Text.lower m.slug == Text.lower basename with
        | some m => throw (.collidingSlug m.slug)
        | none => pure ()

end ScriptSplit.Plan
