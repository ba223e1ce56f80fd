import ScriptSplit.Chat.Exchange
import ScriptSplit.Run.Original
import ScriptSplit.Settings.Config

/-!
# Runs

A run works on files, talks to an adviser over a line and keeps a log. What it finds around it and cannot
change are the environment, the clock, what reads scripts and, in a trial, the steps that are made to fail.
-/

namespace ScriptSplit

/-- The steps of linking that a trial can make fail. -/
inductive LinkStep where
  | readFacts
  | readPlan
  | findImports
  | insertImports
  | writeDocument
  | gatherExports
  | nameExports
  | backUp
  | writeBridge
  | takeHeader
  | renderBridge
  | writeFallback
  | renderFallback
  | writeMirror
  | convertModule
  | renderRequireBridge
  | writeShim
  | renderShim
  | copyBackup
  | report
  deriving DecidableEq, Repr

structure Surroundings where
  environment : Table String
  now : Moment
  reader : Script.Reader := .ofGrammar
  /-- The steps that fail, each with the reason. -/
  faults : List (LinkStep × String) := []

inductive LogLevel where
  | debug
  | warning
  deriving DecidableEq, Repr

def LogLevel.name : LogLevel → String
  | .debug => "DEBUG"
  | .warning => "WARNING"

structure LogLine where
  level : LogLevel
  /-- The part of the program that wrote it. -/
  source : String
  text : String
  deriving DecidableEq, Repr

def LogLine.written (line : LogLine) : String :=
  line.level.name ++ " atomizer." ++ line.source ++ ": " ++ line.text

structure RunState where
  files : Files
  line : ChatLine := {}
  /-- The log, its last line first. -/
  log : List LogLine := []

/-- A piece of a run. What it did before it failed stays done. -/
abbrev Run := ReaderT Surroundings (EStateM Failure RunState)

namespace Run

def storing {α : Type} (task : Storage α) : Run α := fun _ s =>
  match task s.files with
  | .ok a files => .ok a { s with files }
  | .error cause files => .error cause { s with files }

def files : Run Files := do
  return (← get).files

def log (level : LogLevel) (source text : String) : Run Unit :=
  modify fun s => { s with log := { level, source, text } :: s.log }

def warn (source : String) (w : Warning) : Run Unit :=
  log .warning source (w.stage.name ++ ": " ++ w.message)

def attempt {α : Type} (task : Run α) : Run (Except Failure α) := fun surroundings s =>
  match task surroundings s with
  | .ok a s => .ok (.ok a) s
  | .error cause s => .ok (.error cause) s

/-- A step that fails where a trial wants it to. -/
def step {α : Type} (s : LinkStep) (task : Run α) : Run α := do
  match (← read).faults.lookup s with
  | some reason => throw (.injected reason)
  | none => task

def orFail {α ε : Type} (failure : ε → Failure) : Except ε α → Run α
  | .ok a => pure a
  | .error cause => throw (failure cause)

end Run

end ScriptSplit
