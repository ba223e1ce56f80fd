import ScriptSplit.Bridge.PublicNames
import ScriptSplit.Path.Names

/-!
# Texts of bridges and shims

A bridge gathers the exports of all modules under their public names. A shim takes the place of the
source and exports all that the bridge does.
-/

namespace ScriptSplit

def bridgeComment : String := "// re-exports generated by atomizer"

def fallbackComment : String := "// Fallback bridge generated by atomizer"

def importClause (names : List String) (mapping : Table String) : String :=
  let part (name : String) : String :=
    let shown := publicName mapping name
    if shown = name then name else name ++ " as " ++ shown
  "\x7b " ++ ", ".intercalate (names.map part) ++ " \x7d"

/-- The header of a source without a first line that repeats the banner and without blank lines before
the rest. -/
def keptHeader (banner : Text) (header : List Text) : List Text :=
  let header :=
    match header with
    | first :: rest => if first.strip == banner.strip then rest else first :: rest
    | [] => []
  header.dropWhile Text.isBlankText

def renderBridge (banner : Text) (imports : ModuleExports) (mapping : Table String)
    (header : List Text) : Text :=
  let importLines := (imports.filter (!·.2.isEmpty)).map fun (specifier, names) =>
    ("import " ++ importClause names mapping ++ " from '" ++ specifier ++ "';").toList
  let header := keptHeader banner header
  let publics := Names.ofList (imports.flatMap fun (_, names) => names.map (publicName mapping))
  Text.unlines <|
    [banner, []] ++ importLines ++ [[]] ++ (if header.isEmpty then [] else header ++ [[]]) ++
      [bridgeComment.toList, ("export \x7b " ++ ", ".intercalate publics ++ " \x7d;").toList]

def renderRequireBridge (banner : Text) (requires : ModuleExports) (mapping : Table String) : Text :=
  let requireLines := (requires.filter (!·.2.isEmpty)).map fun (specifier, names) =>
    ("const \x7b " ++ ", ".intercalate names ++ " \x7d = require('" ++ specifier ++ "');").toList
  let entries := (mapping.mergeSort fun a b => !decide (b.2 < a.2)).map fun (name, shown) =>
    if shown = name then name else shown ++ ": " ++ name
  Text.unlines <|
    [banner, []] ++ requireLines ++
      [[], ("module.exports = \x7b " ++ ", ".intercalate entries ++ " \x7d;").toList]

def renderShim (banner : Text) (bridgeName : String) : Text :=
  Text.unlines [banner, [], shimMarker, ("export * from './" ++ bridgeName ++ "';").toList]

/-- The bridge used when the full one cannot be built: it exports all that another file does. -/
def renderFallbackBridge (banner : Text) (specifier : String) : Text :=
  Text.unlines [banner, [], fallbackComment, ("export * from '" ++ specifier ++ "';").toList]

end ScriptSplit
