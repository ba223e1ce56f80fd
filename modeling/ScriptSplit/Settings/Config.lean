import ScriptSplit.Path.Basic
import ScriptSplit.Settings.Basic

/-!
# Configuration

The settings in the form in which the stages use them: every value with the type that it must have.
-/

namespace ScriptSplit

structure AdviserConfig where
  enabled : Bool
  provider : String
  url : Option String
  model : String
  temperature : Json
  maxTokens : Json
  sendsSource : Bool
  maxRounds : Int
  timeout : Json

structure Config where
  /-- The directory that relative paths start from. -/
  root : Path
  source : Option String
  output : String
  banner : Text
  maxFiles : Int
  minClusterSize : Int
  debugCopies : Bool
  factsDirectory : Option String
  plansDirectory : Option String
  closureCalls : Bool
  adviser : AdviserConfig

namespace Settings

def text? : Json → Option String
  | .string value => some value
  | _ => none

/-- A text that may be missing; whatever does not count as true is missing. -/
def optionalText? (value : Json) : Option (Option String) :=
  if value.isTruthy then (text? value).map some else some none

/-- An integer; a truth value counts as one or zero. -/
def integer? : Json → Option Int
  | .int value => some value
  | .bool value => some value.toInt
  | _ => none

/-- The configuration that settings describe, if every value has a type that fits. -/
def config? (s : Settings) (root : Path) : Option Config := do
  return {
    root
    source := ← optionalText? s.source
    output := ← text? s.output
    banner := (← text? s.banner).toList
    maxFiles := ← integer? s.maxFiles
    minClusterSize := ← integer? s.minClusterSize
    debugCopies := s.debugCopies.isTruthy
    factsDirectory := ← optionalText? s.factsDirectory
    plansDirectory := ← optionalText? s.plansDirectory
    closureCalls := s.closureCalls.isTruthy
    adviser := {
      enabled := s.adviser.enabled.isTruthy
      provider := ← text? s.adviser.provider
      url := ← optionalText? s.adviser.url
      model := ← text? s.adviser.model
      temperature := s.adviser.temperature
      maxTokens := s.adviser.maxTokens
      sendsSource := s.adviser.sendsSource.isTruthy
      maxRounds := ← integer? s.adviser.maxRounds
      timeout := s.adviser.timeout } }

end Settings

end ScriptSplit
