import ScriptSplit.Chat.Provider

/-!
# Chat exchanges

One request and what comes back for it. The other side of the line is a list of replies, one for each
request; a line without replies left fails.
-/

namespace ScriptSplit

inductive ChatRole where
  | system
  | user
  | assistant
  deriving DecidableEq, Repr

def ChatRole.name : ChatRole → String
  | .system => "system"
  | .user => "user"
  | .assistant => "assistant"

structure ChatMessage where
  role : ChatRole
  content : String
  deriving DecidableEq, Repr

def ChatMessage.toDoc (m : ChatMessage) : Json :=
  .object [("role", .string m.role.name), ("content", .string m.content)]

structure ChatRequest where
  model : String
  maxTokens : Json
  temperature : Json
  system : String
  messages : List ChatMessage

/-- The settings that a request is sent with. The system text is a message of its own, except where the
protocol has a place for it. -/
def ChatRequest.arguments (request : ChatRequest) (provider : String) : Json :=
  let common : Table Json :=
    [("model", .string request.model), ("max_tokens", request.maxTokens),
      ("temperature", request.temperature)]
  if provider == messagesProvider then
    .object <| common ++ [("system", .string request.system),
      ("messages", .array (request.messages.map ChatMessage.toDoc))]
  else
    let messages := { role := .system, content := request.system : ChatMessage } :: request.messages
    .object <| common ++ [("messages", .array (messages.map ChatMessage.toDoc))] ++
      if provider == "moonshot" then
        [("extra_body", .object [("thinking", .object [("type", .string "disabled")])])]
      else []

/-- A piece of a reply. Only pieces of the kind `text` count. -/
structure ChatBlock where
  kind : Option String
  text : String

inductive ChatReply where
  /-- A text, or a reply with nothing in it. -/
  | text (content : Option String)
  | blocks (pieces : List ChatBlock)
  /-- A reply that offers no message. -/
  | noChoices
  /-- The server refuses the request. -/
  | refusal (reason : String)
  /-- The request does not get through. -/
  | failure (reason : String)
  /-- The reply comes too late. -/
  | late

def ChatReply.outcome (provider caller limit : String) : ChatReply → Except ChatError String
  | .text (some content) => .ok content
  | .text none => .ok ""
  | .blocks pieces =>
    .ok (String.join ((pieces.filter (·.kind == some "text")).map (·.text)))
  | .noChoices => .ok ""
  | .refusal reason => .error (.refused caller provider reason)
  | .failure reason => .error (.failed caller provider reason)
  | .late => .error (.tooSlow caller limit)

/-- The line to a provider: the replies still to come, and what has been sent so far. -/
structure ChatLine where
  replies : List ChatReply := []
  /-- What comes back when no reply is left. -/
  afterwards : ChatReply := .failure "Connection error."
  /-- Why a connection cannot be made, if it cannot. -/
  refusal? : ChatClient → Option String := fun _ => none
  /-- The connections made, the last one first. -/
  clients : List ChatClient := []
  /-- The settings of the requests sent, the last one first. -/
  sent : List Json := []

namespace ChatLine

def connect (line : ChatLine) (client : ChatClient) : Except String ChatLine :=
  match line.refusal? client with
  | some reason => .error reason
  | none => .ok { line with clients := client :: line.clients }

/-- Sends a request and takes the next reply. Without a limit for the request nothing is sent. -/
def send (line : ChatLine) (client : ChatClient) (caller : String) (request : ChatRequest) :
    Except ChatError String × ChatLine :=
  match client.hardLimit with
  | .error reason => (.error (.failed caller client.provider reason), line)
  | .ok limit =>
    let reply := line.replies.head?.getD line.afterwards
    (reply.outcome client.provider caller limit,
      { line with
        replies := line.replies.tail
        sent := request.arguments client.provider :: line.sent })

end ChatLine

end ScriptSplit
