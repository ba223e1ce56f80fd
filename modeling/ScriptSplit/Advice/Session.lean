import ScriptSplit.Advice.Reply
import ScriptSplit.Advice.Request
import ScriptSplit.Chat.Exchange
import ScriptSplit.Plan.Reader
import ScriptSplit.Settings.Config

/-!
# Advice

A conversation with an adviser that ends in a plan or in an error. The adviser may ask for feature
packs as long as rounds are left; anything else that it says must be a plan that fits the functions.
-/

namespace ScriptSplit

inductive AdviceError where
  | chat (cause : ChatError)
  | plan (cause : PlanError)
  deriving DecidableEq, Repr

def AdviceError.message : AdviceError → String
  | .chat cause => cause.message
  | .plan cause => cause.message

namespace Advice

/-- What an adviser is asked about. -/
structure Session where
  config : Config
  facts : Facts
  index : FactsIndex
  source : Option String := none
  basename : Option String := none

structure Round where
  request : String
  body : Option String

def Round.toDoc (round : Round) : Json :=
  .object <| ("request", .string round.request) ::
    match round.body with
    | some body => [("body", .string body)]
    | none => []

/-- What to do after a reply. -/
inductive Step where
  | accept (plan : Plan)
  | answer (content : String)

def instructions : String :=
  "You split one large JavaScript file into modules. Group functions by how they " ++
  "work together; strong caller/callee stickiness; avoid tiny modules. Reply with " ++
  "strict JSON only, no prose. You may reply with " ++
  "\x7b\"needs\": [\"functions\", \"calls\", \"imports\"]\x7d to request feature packs, or with " ++
  "\x7b\"modules\": [\x7b\"name\": \"...\", \"slug\": \"...\", \"functions\": [\"f0000\", ...]\x7d]\x7d " ++
  "for the final plan."

namespace Session

/-- How many requests a conversation may take: at least one. -/
def rounds (session : Session) : Nat :=
  max 1 session.config.adviser.maxRounds.toNat

def answer (session : Session) (packs : List Pack) : String :=
  (Json.object (packs.foldl (fun (members : Table Json) pack =>
    members.put pack.name (packDoc session.facts session.source pack)) [])).compact

/-- The available packs with the given names, or the names that no available pack has. -/
def resolve (session : Session) (names : List String) : Except PlanError (List Pack) :=
  let available := Pack.available session.config.adviser.sendsSource
  match names.filter fun name => !(available.map Pack.name).contains name with
  | [] => .ok (names.filterMap Pack.ofName?)
  | unknown => .error (.unavailablePacks unknown)

/-- What follows from a reply. After the last round no more packs can be asked for. -/
def judge (session : Session) (body : String) (last : Bool) : Except PlanError Step := do
  let doc ← readReply body
  match requestedPacks? doc with
  | none =>
    let plan ← Plan.ofDoc doc
    plan.validate session.facts.functions session.config.maxFiles session.basename
    return .accept plan
  | some names =>
    if last then throw (.stillAsking session.rounds)
    return .answer (session.answer (← session.resolve names))

end Session

end Advice

structure Advice where
  result : Except AdviceError Plan
  rounds : List Advice.Round
  line : ChatLine

namespace Advice.Session

def caller : String := "planner"

def client (session : Session) (key : String) : ChatClient where
  provider := session.config.adviser.provider
  key
  timeout := session.config.adviser.timeout
  url := session.config.adviser.url

/-- Goes on with a conversation for at most `left` rounds. `earlier` are the messages before the next
request. -/
def converse (session : Session) (client : ChatClient) (earlier : List ChatMessage)
    (request : String) (line : ChatLine) : Nat → Advice
  | 0 => { result := .error (.plan (.stillAsking session.rounds)), rounds := [], line }
  | left + 1 =>
    let messages := earlier ++ [{ role := .user, content := request : ChatMessage }]
    let (reply, line) := line.send client caller
      { model := session.config.adviser.model, maxTokens := session.config.adviser.maxTokens
        temperature := session.config.adviser.temperature, system := instructions, messages }
    match reply with
    | .error cause => { result := .error (.chat cause), rounds := [⟨request, none⟩], line }
    | .ok body =>
      match session.judge body (left == 0) with
      | .error cause => { result := .error (.plan cause), rounds := [⟨request, some body⟩], line }
      | .ok (.accept plan) => { result := .ok plan, rounds := [⟨request, some body⟩], line }
      | .ok (.answer content) =>
        let more := converse session client
          (messages ++ [{ role := .assistant, content := body : ChatMessage }]) content line left
        { more with rounds := ⟨request, some body⟩ :: more.rounds }

/-- Asks the adviser for a plan. There is no advice, but a reason, where no connection can be made. -/
def ask (session : Session) (environment : Table String) (line : ChatLine) : Except String Advice :=
  match apiKey environment session.config.adviser.provider caller with
  | .error cause => .ok { result := .error (.chat cause), rounds := [], line }
  | .ok key => do
    let client := session.client key
    let line ← line.connect client
    let request := firstRequest session.index session.facts session.config.maxFiles
      session.config.minClusterSize session.config.adviser.sendsSource
    return session.converse client [] request line session.rounds

end Advice.Session

namespace Advice

def calls (advice : Advice) : Nat :=
  advice.rounds.length

def record (time : String) (adviser : AdviserConfig) (status : String) (rounds : List Round)
    (error : Table Json) : Json :=
  .object <|
    [("timestamp", .string time), ("provider", .string adviser.provider),
      ("model", .string adviser.model), ("status", .string status),
      ("rounds", .array (rounds.map Round.toDoc))] ++ error ++
      [("llmCalls", .ofNat rounds.length)]

def audit (advice : Advice) (time : String) (adviser : AdviserConfig) : Json :=
  match advice.result with
  | .ok _ => record time adviser "ok" advice.rounds []
  | .error cause =>
    record time adviser "error" advice.rounds [("error", .string cause.message)]

def unconnected (time : String) (adviser : AdviserConfig) : Json :=
  record time adviser "error" [] []

end Advice

end ScriptSplit
