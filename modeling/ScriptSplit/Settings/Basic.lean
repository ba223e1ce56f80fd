import ScriptSplit.Json.Basic

/-!
# Settings

What a user can set, with the values that hold otherwise. A value is kept as it was written, whatever
its type is; unknown names are passed over.
-/

namespace ScriptSplit

structure AdviserSettings where
  enabled : Json := .bool false
  provider : Json := .string "ollama"
  /-- The address of a server to use instead of the provider's own. -/
  url : Json := .null
  model : Json := .string "llama3.1:8b"
  temperature : Json := .float (.ofDecimal false 2 (-1))
  maxTokens : Json := .int 2048
  /-- Whether the adviser may ask for the source text. -/
  sendsSource : Json := .bool false
  /-- How many requests one plan may take. -/
  maxRounds : Json := .int 2
  /-- How long a request may take, in seconds. -/
  timeout : Json := .float (.ofDecimal false 30 0)

namespace AdviserSettings

def set (s : AdviserSettings) (name : String) (value : Json) : AdviserSettings :=
  match name with
  | "enabled" => { s with enabled := value }
  | "provider" => { s with provider := value }
  | "endpoint_url" => { s with url := value }
  | "model_name" => { s with model := value }
  | "temperature" => { s with temperature := value }
  | "max_tokens" => { s with maxTokens := value }
  | "send_source_text" => { s with sendsSource := value }
  | "max_rounds" => { s with maxRounds := value }
  | "api_timeout" => { s with timeout := value }
  | _ => s

def toDoc (s : AdviserSettings) : Json :=
  .object [("enabled", s.enabled), ("provider", s.provider), ("endpoint_url", s.url),
    ("model_name", s.model), ("temperature", s.temperature), ("max_tokens", s.maxTokens),
    ("send_source_text", s.sendsSource), ("max_rounds", s.maxRounds), ("api_timeout", s.timeout)]

end AdviserSettings

structure Settings where
  /-- The script to split. -/
  source : Json := .null
  output : Json := .string "out"
  /-- The first line of every emitted file. -/
  banner : Json := .string "'use strict';"
  maxFiles : Json := .int 12
  minClusterSize : Json := .int 3
  /-- Whether emitted modules are copied to a directory of their own as well. -/
  debugCopies : Json := .bool false
  factsDirectory : Json := .null
  plansDirectory : Json := .null
  /-- Whether calls inside nested functions count for the function around them. -/
  closureCalls : Json := .bool false
  adviser : AdviserSettings := {}

namespace Settings

/-- The settings after one of them has been set by its name. A table for the adviser sets only what it
holds. -/
def set (s : Settings) (name : String) (value : Json) : Settings :=
  match name with
  | "source_path" => { s with source := value }
  | "output_directory" => { s with output := value }
  | "banner_text" => { s with banner := value }
  | "max_files" => { s with maxFiles := value }
  | "min_cluster_size" => { s with minClusterSize := value }
  | "debug_output_enabled" => { s with debugCopies := value }
  | "facts_dir" => { s with factsDirectory := value }
  | "plans_dir" => { s with plansDirectory := value }
  | "attribute_closure_calls" => { s with closureCalls := value }
  | "llm" =>
    match value with
    | .object members =>
      { s with adviser := members.foldl (fun a (name, value) => a.set name value) s.adviser }
    | _ => s
  | _ => s

def overlay (s : Settings) (members : Table Json) : Settings :=
  members.foldl (fun s (name, value) => s.set name value) s

def toDoc (s : Settings) : Json :=
  .object [("source_path", s.source), ("output_directory", s.output), ("banner_text", s.banner),
    ("max_files", s.maxFiles), ("min_cluster_size", s.minClusterSize),
    ("debug_output_enabled", s.debugCopies), ("facts_dir", s.factsDirectory),
    ("plans_dir", s.plansDirectory), ("attribute_closure_calls", s.closureCalls),
    ("llm", s.adviser.toDoc)]

end Settings

end ScriptSplit
