import ScriptSplit.Json.Display

/-!
# Chat providers

Where chat requests go: the key that a provider asks for, the address of its server and the settings
of a connection. A provider that is not known is taken to speak the common protocol at an address of
its own.
-/

namespace ScriptSplit

/-- Why a chat request has no answer. `caller` is the part of the program that asked. -/
inductive ChatError where
  | keyNotSet (caller keyVariable : String)
  | refused (caller provider reason : String)
  | failed (caller provider reason : String)
  | tooSlow (caller limit : String)
  deriving DecidableEq, Repr

/-- The provider that has a protocol of its own. -/
def messagesProvider : String := "anthropic"

def ChatError.message : ChatError → String
  | .keyNotSet caller name => caller ++ ": " ++ name ++ " is not set"
  | .refused caller provider reason =>
    caller ++ ": " ++ (if provider == messagesProvider then "Anthropic" else provider) ++
      " API error: " ++ reason
  | .failed caller provider reason =>
    caller ++ ": " ++ provider ++ " request failed: " ++ reason
  | .tooSlow caller limit => caller ++ ": API call exceeded " ++ limit ++ "s hard limit"

/-- The environment variable that holds the key of a provider. Local servers need no key. -/
def keyVariable? (provider : String) : Option String :=
  if provider == "ollama" || provider == "lmstudio" then none
  else if provider == messagesProvider then some "ANTHROPIC_API_KEY"
  else if provider == "moonshot" then some "MOONSHOT_API_KEY"
  else if provider == "deepseek" then some "DEEPSEEK_API_KEY"
  else some "OPENAI_API_KEY"

/-- The key for a provider. Where none is needed its name takes the place. -/
def apiKey (environment : Table String) (provider caller : String) : Except ChatError String :=
  match keyVariable? provider with
  | none => .ok provider
  | some name =>
    match environment.get? name with
    | some key => if key == "" then .error (.keyNotSet caller name) else .ok key
    | none => .error (.keyNotSet caller name)

def providerUrl? (provider : String) : Option String :=
  if provider == "ollama" then some "http://127.0.0.1:11434/v1"
  else if provider == "moonshot" then some "https://api.moonshot.ai/v1"
  else if provider == "deepseek" then some "https://api.deepseek.com/v1"
  else if provider == "lmstudio" then some "http://localhost:1234/v1"
  else none

structure ChatClient where
  provider : String
  key : String
  /-- In seconds; as it was configured. -/
  timeout : Json
  /-- The address to use instead of the provider's own. -/
  url : Option String

namespace ChatClient

def usesMessages (client : ChatClient) : Bool :=
  client.provider == messagesProvider

def address? (client : ChatClient) : Option String :=
  match client.url with
  | some url => if url == "" then providerUrl? client.provider else some url
  | none => providerUrl? client.provider

/-- The settings that the connection is made with. A failed request is not repeated. -/
def arguments (client : ChatClient) : Json :=
  .object <|
    [("api_key", .string client.key)] ++
      (if client.usesMessages then [] else [("base_url", .ofString? client.address?)]) ++
      [("timeout", client.timeout), ("max_retries", .int 0)]

/-- How long a request may take in all, in seconds: a little more than the server has. Nothing can be added to a
timeout that is no number; a truth value counts as one or zero. -/
def hardLimit (client : ChatClient) : Except String String :=
  match client.timeout with
  | .float seconds => .ok (Json.float (seconds.addInt 5)).display
  | .int seconds => .ok (Json.int (seconds + 5)).display
  | .bool value => .ok (Json.int (value.toInt + 5)).display
  | .string _ => .error "can only concatenate str (not \"int\") to str"
  | .array _ => .error "can only concatenate list (not \"int\") to list"
  | .null => .error "unsupported operand type(s) for +: 'NoneType' and 'int'"
  | .object _ => .error "unsupported operand type(s) for +: 'dict' and 'int'"

end ChatClient

end ScriptSplit
