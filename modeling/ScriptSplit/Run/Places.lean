import ScriptSplit.Run.Basic

/-!
# Places of a run

Where the source, the artifacts and the output of a run are. A directory that the environment names wins
over a configured one; directories of artifacts are made when they are asked for.
-/

namespace ScriptSplit

namespace Config

def outputRoot (config : Config) : Path :=
  config.root / config.output

def moduleDirectory (config : Config) (source : Path) : Path :=
  config.outputRoot / source.groupName

/-- The directory of the modules of a source in their CommonJS form, beside the output directory. -/
def mirrorDirectory? (config : Config) (source : Path) : Option Path :=
  let output := config.outputRoot
  (output.sibling? (output.name ++ "_cjs")).map (· / source.groupName)

def debugDirectory (config : Config) : Path :=
  config.root / "output_debug"

end Config

namespace Run

/-- A directory of artifacts: from the environment, from the configuration, or its usual place. -/
def artifactDirectory (config : Config) (variable_ : String) (configured : Option String)
    (usual : String) : Run Path := do
  let named := ((← read).environment.get? variable_).filter (· != "")
  let path :=
    match named, configured with
    | some named, _ => Path.ofString named
    | none, some configured => config.root / configured
    | none, none => config.root / usual
  storing (Storage.makeDirectories path)
  return path

def factsDirectory (config : Config) : Run Path :=
  artifactDirectory config "ATOMIZER_FACTS_DIR" config.factsDirectory "facts"

def plansDirectory (config : Config) : Run Path :=
  artifactDirectory config "ATOMIZER_PLANS_DIR" config.plansDirectory "plans"

def sourcePath (config : Config) : Run Path := do
  match config.source with
  | none => throw (.analysis .sourceNotSet)
  | some source =>
    let path := (config.root / source).normal
    if (← files).hasFile path then return path
    else throw (.analysis (.sourceNotFound path.toString))

end Run

end ScriptSplit
