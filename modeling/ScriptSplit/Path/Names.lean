import ScriptSplit.Path.Basic
import ScriptSplit.Plan.Basic

/-!
# Names of generated files

Which files belong to a source file: its modules, the bridges and shims that stand beside it, and
the backups of its text.
-/

namespace ScriptSplit

def shimMarker : String := "// Shim re-exporting atomized bridge generated by atomizer"

/-- The length from which on a text is too long for a shim without the marker. -/
def shimLimit : Nat := 400

def Text.contains (text needle : Text) : Bool :=
  (text.find? needle).isSome

/-- Whether a text is a shim that an earlier run left behind. -/
def looksLikeShim (text : Text) : Bool :=
  text.contains shimMarker ||
    text.contains ".atomized.js" && text.contains "export * from" && text.length < shimLimit

/-- The name of the file that a module is written to. The module that keeps the source is named after
the source. -/
def moduleFileName (slug basename : String) (ending : String) : String :=
  if Text.lower slug == originalSlug then basename ++ ending else slug ++ ending

namespace Path

def basename (source : Path) : String :=
  if source.stem == "" then "source" else source.stem

/-- The name of the directory that groups the modules of a source. -/
def groupName (source : Path) : String :=
  source.basename ++ ".atomized"

def bridge? (source : Path) : Option Path :=
  source.sibling? (source.name ++ ".atomized.js")

/-- The bridge for `require` beside a source, which never takes the name of the source itself. -/
def requireBridge? (source : Path) : Option Path := do
  let path ← source.sibling? (source.basename ++ ".cjs")
  if path = source then source.sibling? (source.name ++ ".atomized.cjs") else return path

def backup? (source : Path) : Option Path :=
  source.sibling? (source.basename ++ "_old" ++ source.suffix)

def datedPattern (source : Path) : String :=
  source.basename ++ "_old_*" ++ source.suffix

end Path

end ScriptSplit
