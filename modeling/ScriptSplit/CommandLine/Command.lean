import ScriptSplit.CommandLine.Arguments
import ScriptSplit.Stage.Pipeline

/-!
# The command

What the command prints and how it ends. Messages and the summary go to the standard output; the log and
errors go to the other one.
-/

namespace ScriptSplit.CommandLine

def usage : String :=
  "usage: atomizer [-h] [--source SOURCE] [--max-files MAX_FILES]\n" ++
  "                [--min-cluster-size MIN_CLUSTER_SIZE] [--llm] [-v]\n" ++
  "                \x7banalyze,plan,write,link,run\x7d\n"

def help : String :=
  usage ++
  "\nSplit a large JavaScript file into modules.\n" ++
  "\npositional arguments:\n" ++
  "  \x7banalyze,plan,write,link,run\x7d\n" ++
  "                        stage to run; 'run' runs all four\n" ++
  "\noptions:\n" ++
  "  -h, --help            show this help message and exit\n" ++
  "  --source SOURCE       script to split (overrides source_path)\n" ++
  "  --max-files MAX_FILES\n" ++
  "                        maximum number of modules\n" ++
  "  --min-cluster-size MIN_CLUSTER_SIZE\n" ++
  "                        minimum functions per module\n" ++
  "  --llm                 ask the configured LLM for the plan\n" ++
  "  -v, --verbose         debug logging\n"

structure Outcome where
  code : Nat
  output : String
  errors : String

def linesText (lines : List String) : String :=
  String.join (lines.map (· ++ "\n"))

def Arguments.overlay (arguments : Arguments) (settings : Settings) : Settings :=
  let settings :=
    match arguments.source with
    | some source => if source == "" then settings else { settings with source := .string source }
    | none => settings
  { settings with
    maxFiles := (arguments.maxFiles.map .int).getD settings.maxFiles
    minClusterSize := (arguments.minClusterSize.map .int).getD settings.minClusterSize
    adviser :=
      if arguments.adviser then { settings.adviser with enabled := .bool true }
      else settings.adviser }

def printedLog (verbose : Bool) (log : List LogLine) : List String :=
  (log.filter fun line => verbose || line.level != .debug).map LogLine.written

/-- Runs stages and prints what they say. A failure that is not one of the program's own errors ends the
run itself. -/
def runStages (root : Path) (stages : List Stage) (arguments : Arguments) : Run Outcome := do
  let settings ← Run.loadSettings root
  let config ← Run.configure (arguments.overlay settings) root
  modify fun s => { s with log := [] }
  let progress ← Run.pipeline config (stages.map Stage.name)
  let log := printedLog arguments.verbose (← get).log.reverse
  match progress.failure with
  | none =>
    return {
      code := 0
      output := linesText (progress.messages ++ progress.stats.summary)
      errors := linesText log }
  | some cause =>
    if cause.isOwn then
      return {
        code := 1
        output := linesText progress.messages
        errors := linesText (log ++ ["atomizer: " ++ cause.message]) }
    else throw cause

def run (root : Path) (arguments : List String) : Run Outcome :=
  match readArguments arguments with
  | .error .help => return { code := 0, output := help, errors := "" }
  | .error (.refused cause) =>
    return { code := 2, output := "", errors := usage ++ "atomizer: error: " ++ cause.message ++ "\n" }
  | .ok (stages, arguments) => runStages root stages arguments

end ScriptSplit.CommandLine
