import ScriptSplit.Analysis.Basic
import ScriptSplit.Files.Basic
import ScriptSplit.Plan.Basic

/-!
# Failures

Why a run ends early. The program's own errors say what the user can do; every other failure comes from
the system or from a value that nothing can be done with.
-/

namespace ScriptSplit

inductive ReadFault where
  | system (cause : OsError)
  | undecodable (cause : Utf8Error)
  | notJson (reason : String)
  deriving DecidableEq, Repr

def ReadFault.message : ReadFault → String
  | .system cause => cause.message
  | .undecodable cause => cause.message
  | .notJson reason => reason

inductive ArtifactError where
  | shape (cause : ShapeError)
  | noShard (kind : String)
  /-- A file that an earlier stage writes is not there. -/
  | notFound (name : String) (directory : Path) (writer : Stage)
  | unreadable (path : Path) (cause : ReadFault)
  | faultyLine (name : String) (line : Nat) (reason : String)
  | noFunctions (directory : Path)
  | shimWithoutBackup (source : Path)
  deriving DecidableEq, Repr

def ArtifactError.message : ArtifactError → String
  | .shape cause => cause.message
  | .noShard kind => FactsIndex.noShardMessage kind
  | .notFound name directory writer =>
    name ++ " not found in " ++ directory.toString ++ "; run " ++ writer.name ++ " first"
  | .unreadable path cause => "cannot read " ++ path.toString ++ ": " ++ cause.message
  | .faultyLine name line reason =>
    name ++ ":" ++ toString line ++ ": invalid JSON: " ++ reason
  | .noFunctions directory =>
    "no function records in " ++ directory.toString ++ "; run " ++ Stage.analyze.name ++ " first"
  | .shimWithoutBackup source => source.toString ++ " is a shim but no backup exists"

inductive NameFault where
  /-- A file beside a path without a name was asked for. -/
  | empty (path : Path)
  /-- No path holds a null character. -/
  | nullCharacter
  /-- Two stars in a row are no part of a pattern of names. -/
  | doubleStar
  deriving DecidableEq, Repr

def NameFault.message : NameFault → String
  | .empty path => "PosixPath(" ++ Text.quoted path.toString ++ ") has an empty name"
  | .nullCharacter => "embedded null byte"
  | .doubleStar => "Invalid pattern: '**' can only be an entire path component"

inductive Failure where
  | analysis (cause : AnalysisError)
  | artifact (cause : ArtifactError)
  | plan (cause : PlanError)
  | unknownStages (names : List String)
  | system (cause : OsError)
  | undecodable (cause : Utf8Error)
  | nameless (cause : NameFault)
  /-- No module declares a name that was to be imported. -/
  | undeclared (name : String)
  /-- A table of settings was expected where something else is written. -/
  | settingsNotATable
  /-- A setting has a type that nothing can be done with. -/
  | settingType
  /-- A step was made to fail, or no connection could be made. -/
  | injected (reason : String)
  deriving DecidableEq, Repr

namespace Failure

def message : Failure → String
  | .analysis cause => cause.message
  | .artifact cause => cause.message
  | .plan cause => cause.message
  | .unknownStages names => "unknown stage(s): " ++ ", ".intercalate names
  | .system cause => cause.message
  | .undecodable cause => cause.message
  | .nameless cause => cause.message
  | .undeclared name => Text.quoted name
  | .settingsNotATable => "settings are not a table"
  | .settingType => "setting has the wrong type"
  | .injected reason => reason

/-- Whether a failure is one of the program's own errors. -/
def isOwn : Failure → Bool
  | .analysis _ | .artifact _ | .plan _ | .unknownStages _ => true
  | _ => false

end Failure

end ScriptSplit
