import ScriptSplit.Json.Basic

/-!
# Warnings

A stage that can go on with a poorer result says so by a warning.
-/

namespace ScriptSplit

inductive Stage where
  | analyze
  | plan
  | write
  | link
  deriving DecidableEq, Repr

def Stage.name : Stage → String
  | .analyze => "analyze"
  | .plan => "plan"
  | .write => "write"
  | .link => "link"

inductive Warning.Kind where
  | parseDegradation
  | planningDegradation
  | sliceRepairFailure
  | linkBestEffortFailure
  deriving DecidableEq, Repr

def Warning.Kind.name : Warning.Kind → String
  | .parseDegradation => "ParseDegradation"
  | .planningDegradation => "PlanningDegradation"
  | .sliceRepairFailure => "SliceRepairFailure"
  | .linkBestEffortFailure => "LinkBestEffortFailure"

/-- A degradation that a stage recovered from. -/
structure Warning where
  stage : Stage
  kind : Warning.Kind
  message : String
  deriving DecidableEq, Repr

def Warning.toDoc (w : Warning) : Json :=
  .object [("stage", .string w.stage.name), ("kind", .string w.kind.name),
    ("message", .string w.message)]

end ScriptSplit
