import ScriptSplit.Facts.Record
import ScriptSplit.Text.Case
import ScriptSplit.Text.Lines

/-!
# Plans

A plan says which functions go into which module. The module with the slug `original` is special:
it keeps the whole source and holds every function that cannot be moved.
-/

namespace ScriptSplit

/-- One module of a plan: the ids of its functions, a name to show and a slug for its file. -/
structure ModuleSpec where
  name : String
  slug : String
  functions : List String
  deriving DecidableEq, Repr

structure Plan where
  modules : List ModuleSpec
  deriving DecidableEq, Repr

def originalSlug : String := "original"

/-- A name as a slug: lower case, every run of other characters than ASCII letters and digits a
hyphen, no hyphens at the ends. -/
def slugify (name : String) : String :=
  String.ofList (trimHyphens (collapse false (Text.lower name).toList))
where
  /-- Keeps letters and digits; of each run of other characters one hyphen is left. -/
  collapse (afterHyphen : Bool) : List Char → List Char
    | [] => []
    | c :: rest =>
      if Text.isAsciiLower c || Text.isAsciiDigit c then c :: collapse false rest
      else if afterHyphen then collapse true rest
      else '-' :: collapse true rest
  trimHyphens (text : List Char) : List Char :=
    ((text.dropWhile (· == '-')).reverse.dropWhile (· == '-')).reverse

def isSlugStart (c : Char) : Bool :=
  Text.isAsciiLetter c || Text.isAsciiDigit c || c == '_' || c == '$'

def isSlugPart (c : Char) : Bool :=
  isSlugStart c || c == '.' || c == '-'

/-- Whether a slug can be a file name: no separators, no leading point. One line feed at the end
passes. -/
def isSlug (slug : String) : Bool :=
  match Text.dropFinalNewline slug.toList with
  | [] => false
  | c :: rest => isSlugStart c && rest.all isSlugPart

namespace ModuleSpec

def isOriginal (m : ModuleSpec) : Bool :=
  Text.lower m.slug == originalSlug

def toDoc (m : ModuleSpec) : Json :=
  .object [("name", .string m.name), ("slug", .string m.slug),
    ("functions", .ofStrings m.functions)]

end ModuleSpec

namespace Plan

def toDoc (plan : Plan) : Json :=
  .object [("modules", .array (plan.modules.map ModuleSpec.toDoc))]

def assigned (plan : Plan) : List String :=
  plan.modules.flatMap (·.functions)

/-- The slug of the module that a function is in; of several the last. -/
def moduleOf? (plan : Plan) (id : String) : Option String :=
  (plan.modules.reverse.find? (·.functions.contains id)).map (·.slug)

def original? (plan : Plan) : Option ModuleSpec :=
  plan.modules.find? (·.isOriginal)

end Plan

inductive PlanError where
  | noModules
  | notAList
  | moduleNotAnObject (n : Nat)
  | functionsNotStrings (n : Nat)
  | slugNotText (n : Nat)
  | nameNotText (n : Nat)
  | invalidSlug (n : Nat) (slug : String)
  | duplicateSlug (slug : String)
  | assignedTwice (id : String)
  | unknownFunctions (ids : List String)
  | repeatedFunction
  | unassignedFunctions (ids : List String)
  | tooManyModules (count : Nat) (limit : Int)
  | noOriginal
  | wrongOriginal
  | collidingSlug (slug : String)
  | replyNotJson (reason : String)
  | unavailablePacks (kinds : List String)
  | stillAsking (rounds : Nat)
  deriving DecidableEq, Repr

def PlanError.message : PlanError → String
  | .noModules => "plan object has no 'modules' array"
  | .notAList => "plan must be an array or an object with a 'modules' array"
  | .moduleNotAnObject n => "module #" ++ toString n ++ " is not an object"
  | .functionsNotStrings n =>
    "module #" ++ toString n ++ ": 'functions' must be a list of id strings"
  | .slugNotText n => "module #" ++ toString n ++ ": 'slug' must be a string"
  | .nameNotText n => "module #" ++ toString n ++ ": 'name' must be a string"
  | .invalidSlug n slug =>
    "module #" ++ toString n ++ ": slug " ++ Text.quoted slug ++ " is not a valid file name"
  | .duplicateSlug slug => "duplicate module slug " ++ Text.quoted slug
  | .assignedTwice id => "function " ++ id ++ " assigned to more than one module"
  | .unknownFunctions ids => "plan references unknown function ids: " ++ firstTen ids
  | .repeatedFunction => "plan assigns a function to more than one module"
  | .unassignedFunctions ids => "plan leaves functions unassigned: " ++ firstTen ids
  | .tooManyModules count limit =>
    "plan has " ++ toString count ++ " modules; max_files is " ++ toString limit
  | .noOriginal => "non-moveable functions present but no 'original' module"
  | .wrongOriginal => "'original' module must hold exactly the non-moveable functions"
  | .collidingSlug slug =>
    "module slug " ++ Text.quoted slug ++ " collides with the original module file"
  | .replyNotJson reason => "LLM reply is not valid JSON: " ++ reason
  | .unavailablePacks kinds =>
    "LLM requested unavailable feature packs: " ++ Text.quotedList kinds
  | .stillAsking rounds =>
    "LLM still requesting feature packs after " ++ toString rounds ++ " round(s)"
where
  firstTen (ids : List String) : String := ", ".intercalate (ids.take 10)

end ScriptSplit
