import Mathlib.Data.List.Basic
import ScriptSplit.Advice.Session
import ScriptSplit.Proofs.Table

/-!
# Conversations with an adviser

A conversation ends with a plan exactly if some reply within its rounds is a plan that fits and every reply
before it asks for packs that are available. Each round is one request.
-/

namespace ScriptSplit

/-! ## Replies -/

def Json.isNumber : Json → Bool
  | .bool _ | .int _ | .float _ => true
  | _ => false

theorem ChatClient.hardLimit_cases (client : ChatClient) :
    client.timeout.isNumber = true ∧ (∃ limit, client.hardLimit = .ok limit) ∨
      client.timeout.isNumber = false ∧ ∃ reason, client.hardLimit = .error reason := by
  unfold hardLimit
  cases client.timeout <;> simp [Json.isNumber]

namespace ChatLine

/-- What comes back for the `k`-th request from now on. -/
def reply (line : ChatLine) (k : Nat) : ChatReply :=
  line.replies[k]?.getD line.afterwards

def answer (line : ChatLine) (client : ChatClient) (caller : String) (k : Nat) :
    Except ChatError String :=
  match client.hardLimit with
  | .error reason => .error (.failed caller client.provider reason)
  | .ok limit => (line.reply k).outcome client.provider caller limit

/-- Between two states of a line some requests were made: all of them were sent if the timeout is a number, and
none if it is not. -/
def Sent (before after : ChatLine) (provider : String) (timeout : Json) (asked : List ChatRequest) :
    Prop :=
  after.sent =
    (if timeout.isNumber then (asked.map (·.arguments provider)).reverse else []) ++ before.sent

theorem Sent.refl (line : ChatLine) (provider : String) (timeout : Json) :
    line.Sent line provider timeout [] := by
  simp [Sent]

theorem Sent.trans {first second third : ChatLine} {provider : String} {timeout : Json}
    {asked more : List ChatRequest} (h : first.Sent second provider timeout asked)
    (hmore : second.Sent third provider timeout more) :
    first.Sent third provider timeout (asked ++ more) := by
  unfold Sent at *
  rw [hmore, h]
  split <;> simp

variable (line : ChatLine) (client : ChatClient) (caller : String) (request : ChatRequest)

theorem send_fst : (line.send client caller request).1 = line.answer client caller 0 := by
  unfold send answer
  cases client.hardLimit <;> simp [reply, List.head?_eq_getElem?]

theorem answer_send (k : Nat) :
    (line.send client caller request).2.answer client caller k = line.answer client caller (k + 1) := by
  unfold send answer
  cases client.hardLimit <;> simp [reply]

theorem sent_send : line.Sent (line.send client caller request).2 client.provider client.timeout
    [request] := by
  unfold Sent send
  rcases client.hardLimit_cases with ⟨hnumber, limit, hlimit⟩ | ⟨hnumber, reason, hreason⟩
  · simp [hnumber, hlimit]
  · simp [hnumber, hreason]

end ChatLine

namespace Advice.Session

variable {session : Session}

def Asks (session : Session) (body : String) : Prop :=
  ∃ doc names, readReply body = .ok doc ∧ requestedPacks? doc = some names ∧
    ∀ name ∈ names, name ∈ (Pack.available session.config.adviser.sendsSource).map Pack.name

def Offers (session : Session) (body : String) (plan : Plan) : Prop :=
  ∃ doc, readReply body = .ok doc ∧ Plan.ofDoc doc = .ok plan ∧
    plan.validate session.facts.functions session.config.maxFiles session.basename = .ok ()

def Gives (session : Session) (client : ChatClient) (line : ChatLine) (rounds : Nat)
    (plan : Plan) : Prop :=
  ∃ k < rounds, (∃ body, line.answer client caller k = .ok body ∧ session.Offers body plan) ∧
    ∀ j < k, ∃ body, line.answer client caller j = .ok body ∧ session.Asks body

/-! ## One reply -/

theorem ofDoc_of_requestedPacks {doc : Json} {names : List String}
    (h : requestedPacks? doc = some names) : Plan.ofDoc doc = .error .noModules := by
  unfold requestedPacks? at h
  split at h
  · next members =>
      split at h
      · next hnone _ =>
          have hlookup : members.lookup "modules" = none := hnone
          simp [Plan.ofDoc, hlookup, bind, Except.bind, throw, throwThe, MonadExceptOf.throw]
      · cases h
  · cases h

theorem resolve_eq_ok {names : List String} :
    (∃ packs, session.resolve names = .ok packs) ↔
      ∀ name ∈ names, name ∈ (Pack.available session.config.adviser.sendsSource).map Pack.name := by
  unfold resolve
  simp only
  split
  · next hnone =>
      simp only [Except.ok.injEq, exists_eq', true_iff]
      simpa [List.filter_eq_nil_iff] using hnone
  · next hsome =>
      simp only [reduceCtorEq, exists_false, false_iff]
      intro hall
      apply hsome
      simpa [List.filter_eq_nil_iff] using hall

theorem judge_accept {body : String} (last : Bool) {plan : Plan} :
    session.judge body last = .ok (.accept plan) ↔ session.Offers body plan := by
  unfold judge Offers
  cases hdoc : readReply body with
  | error cause => simp [bind, Except.bind]
  | ok doc =>
      simp only [bind, Except.bind, Except.ok.injEq, exists_eq_left']
      cases hpacks : requestedPacks? doc with
      | none =>
          simp only
          cases Plan.ofDoc doc with
          | error cause => simp
          | ok found =>
              simp only [Except.ok.injEq]
              constructor
              · intro h
                split at h
                · cases h
                · next hvalid =>
                    cases h
                    exact ⟨rfl, hvalid⟩
              · rintro ⟨rfl, hvalid⟩
                rw [hvalid]
                rfl
      | some names =>
          simp only [ofDoc_of_requestedPacks hpacks, reduceCtorEq, false_and, iff_false]
          cases last with
          | true => simp [throw, throwThe, MonadExceptOf.throw]
          | false =>
              cases session.resolve names <;> simp [pure, Except.pure]

theorem judge_answer {body : String} {last : Bool} :
    (∃ content, session.judge body last = .ok (.answer content)) ↔
      last = false ∧ session.Asks body := by
  unfold judge Asks
  cases hdoc : readReply body with
  | error cause => simp [bind, Except.bind]
  | ok doc =>
      simp only [bind, Except.bind, Except.ok.injEq, exists_and_left, exists_eq_left']
      cases hpacks : requestedPacks? doc with
      | none =>
          simp only [reduceCtorEq, false_and, exists_false, and_false, iff_false, not_exists]
          intro content h
          split at h
          · cases h
          · split at h <;> cases h
      | some names =>
          simp only [Option.some.injEq, exists_eq_left', ← resolve_eq_ok]
          cases last with
          | true => simp [throw, throwThe, MonadExceptOf.throw]
          | false => cases session.resolve names <;> simp [pure, Except.pure]

/-! ## Whole conversations -/

theorem gives_succ {client : ChatClient} {line next : ChatLine}
    (hnext : ∀ k, next.answer client caller k = line.answer client caller (k + 1)) {left : Nat} {plan : Plan} :
    session.Gives client line (left + 1) plan ↔
      ∃ body, line.answer client caller 0 = .ok body ∧
        (session.Offers body plan ∨ session.Asks body ∧ session.Gives client next left plan) := by
  constructor
  · rintro ⟨k, hk, ⟨body, hbody, hoffers⟩, hearlier⟩
    cases k with
    | zero => exact ⟨body, hbody, Or.inl hoffers⟩
    | succ k =>
        obtain ⟨first, hfirst, hasks⟩ := hearlier 0 (by omega)
        refine ⟨first, hfirst, Or.inr ⟨hasks, k, by omega, ⟨body, by rw [hnext]; exact hbody, hoffers⟩, ?_⟩⟩
        intro j hj
        rw [hnext]
        exact hearlier (j + 1) (by omega)
  · rintro ⟨first, hfirst, hoffers | ⟨hasks, k, hk, ⟨body, hbody, hoffers⟩, hearlier⟩⟩
    · exact ⟨0, by omega, ⟨first, hfirst, hoffers⟩, by simp⟩
    · rw [hnext] at hbody
      refine ⟨k + 1, by omega, ⟨body, hbody, hoffers⟩, ?_⟩
      intro j hj
      cases j with
      | zero => exact ⟨first, hfirst, hasks⟩
      | succ j =>
          have hj' := hearlier j (by omega)
          rw [hnext] at hj'
          exact hj'

/-- What a conversation comes to: the plan that the line gives, and a record of every request. -/
structure Converses (session : Session) (client : ChatClient) (line : ChatLine) (left : Nat)
    (advice : Advice) : Prop where
  plan : ∀ plan, advice.result = .ok plan ↔ session.Gives client line left plan
  few : advice.rounds.length ≤ left
  /-- Each round is recorded with the last message of the request that was made in it. -/
  sent : ∃ asked : List ChatRequest,
    line.Sent advice.line client.provider client.timeout asked ∧
      asked.map (fun request => request.messages.getLast?.map (·.content)) =
        advice.rounds.map (some ·.request)

theorem not_asks_of_offers {body : String} {plan : Plan} (h : session.Offers body plan) :
    ¬ session.Asks body := by
  rintro ⟨doc, names, hdoc, hpacks, -⟩
  obtain ⟨doc', hdoc', hplan, -⟩ := h
  obtain rfl : doc' = doc := Except.ok.inj (hdoc'.symm.trans hdoc)
  rw [ofDoc_of_requestedPacks hpacks] at hplan
  cases hplan

def roundRequest (session : Session) (earlier : List ChatMessage) (request : String) :
    ChatRequest where
  model := session.config.adviser.model
  maxTokens := session.config.adviser.maxTokens
  temperature := session.config.adviser.temperature
  system := instructions
  messages := earlier ++ [{ role := .user, content := request }]

theorem converse_succ (session : Session) (client : ChatClient) (earlier : List ChatMessage)
    (request : String) (line : ChatLine) (left : Nat) :
    session.converse client earlier request line (left + 1) =
      let next := (line.send client caller (session.roundRequest earlier request)).2
      match line.answer client caller 0 with
      | .error cause =>
        { result := .error (.chat cause), rounds := [⟨request, none⟩], line := next }
      | .ok body =>
        match session.judge body (left == 0) with
        | .error cause =>
          { result := .error (.plan cause), rounds := [⟨request, some body⟩], line := next }
        | .ok (.accept plan) =>
          { result := .ok plan, rounds := [⟨request, some body⟩], line := next }
        | .ok (.answer content) =>
          let more := session.converse client ((session.roundRequest earlier request).messages ++
            [{ role := .assistant, content := body }]) content next left
          { more with rounds := ⟨request, some body⟩ :: more.rounds } := by
  rw [converse, ← line.send_fst client caller (session.roundRequest earlier request)]
  rfl

theorem sent_once (session : Session) (client : ChatClient) (earlier : List ChatMessage)
    (request : String) (line : ChatLine) (body : Option String) :
    ∃ asked : List ChatRequest,
      line.Sent (line.send client caller (session.roundRequest earlier request)).2 client.provider
          client.timeout asked ∧
        asked.map (fun request => request.messages.getLast?.map (·.content)) =
          [(⟨request, body⟩ : Round)].map (some ·.request) :=
  ⟨[session.roundRequest earlier request], line.sent_send .., by simp [roundRequest]⟩

/-- The run lemma: by induction on the rounds that are left. -/
theorem converse_converses (client : ChatClient) (earlier : List ChatMessage) (request : String)
    (line : ChatLine) (left : Nat) :
    Converses session client line left (session.converse client earlier request line left) := by
  induction left generalizing earlier request line with
  | zero =>
      refine ⟨fun plan => ?_, Nat.le_refl _, [], .refl .., rfl⟩
      simp [converse, Gives]
  | succ left ih =>
      have hgives (plan : Plan) : session.Gives client line (left + 1) plan ↔ _ :=
        gives_succ (line.answer_send client caller (session.roundRequest earlier request))
      have hsent := session.sent_once client earlier request line
      rw [converse_succ]
      simp only
      cases hreply : line.answer client caller 0 with
      | error cause =>
          refine ⟨fun plan => ?_, by simp, hsent none⟩
          simp [hgives, hreply]
      | ok body =>
          simp only [hreply, Except.ok.injEq, exists_eq_left'] at hgives
          simp only
          cases hjudge : session.judge body (left == 0) with
          | error cause =>
              refine ⟨fun plan => ?_, by simp, hsent (some body)⟩
              rw [hgives, ← judge_accept (left == 0), hjudge]
              simp only [reduceCtorEq, false_or, false_iff]
              rintro ⟨hasks, hmore⟩
              have hlast : (left == 0) = false := by
                obtain ⟨k, hk, -⟩ := hmore
                simp
                omega
              obtain ⟨content, hcontent⟩ := judge_answer.2 ⟨hlast, hasks⟩
              rw [hjudge] at hcontent
              cases hcontent
          | ok step =>
              cases step with
              | accept plan =>
                  refine ⟨fun other => ?_, by simp, hsent (some body)⟩
                  have hoffers := (judge_accept _).1 hjudge
                  rw [hgives, ← judge_accept (left == 0), hjudge]
                  simp [not_asks_of_offers hoffers]
              | answer content =>
                  have hasks := (judge_answer.1 ⟨content, hjudge⟩).2
                  obtain ⟨hplan, hfew, asked, hline, hasked⟩ := ih
                    ((session.roundRequest earlier request).messages ++
                      [{ role := .assistant, content := body }]) content
                    (line.send client caller (session.roundRequest earlier request)).2
                  refine ⟨fun plan => ?_, by simpa using hfew,
                    session.roundRequest earlier request :: asked, ?_, ?_⟩
                  · have hnot : ¬ session.Offers body plan := fun h => not_asks_of_offers h hasks
                    simp [hgives, hplan, hasks, hnot]
                  · exact (line.sent_send ..).trans hline
                  · simp [hasked, roundRequest]

def Accepted (session : Session) (environment : Table String) (line : ChatLine) (plan : Plan) :
    Prop :=
  ∃ key, apiKey environment session.config.adviser.provider caller = .ok key ∧
    session.Gives (session.client key) line session.rounds plan

/-- What asking for advice comes to. -/
structure Answers (session : Session) (environment : Table String) (line : ChatLine)
    (advice : Advice) : Prop where
  plan : ∀ plan, advice.result = .ok plan ↔ session.Accepted environment line plan
  few : advice.rounds.length ≤ session.rounds
  sent : ∃ asked : List ChatRequest,
    line.Sent advice.line session.config.adviser.provider session.config.adviser.timeout asked ∧
      asked.map (fun request => request.messages.getLast?.map (·.content)) =
        advice.rounds.map (some ·.request)

theorem ask_answers {environment : Table String} {line : ChatLine} {advice : Advice}
    (hask : session.ask environment line = .ok advice) : session.Answers environment line advice := by
  unfold ask at hask
  cases hkey : apiKey environment session.config.adviser.provider caller with
  | error cause =>
      rw [hkey] at hask
      obtain rfl := Except.ok.inj hask
      refine ⟨fun plan => ?_, Nat.zero_le _, [], .refl .., rfl⟩
      simp [Accepted, hkey]
  | ok key =>
      simp only [hkey, ChatLine.connect] at hask
      split at hask
      · cases hask
      · obtain rfl := Except.ok.inj hask
        obtain ⟨hplan, hfew, hsent⟩ := session.converse_converses (session.client key) []
          (firstRequest session.index session.facts session.config.maxFiles
            session.config.minClusterSize session.config.adviser.sendsSource)
          { line with clients := session.client key :: line.clients } session.rounds
        refine ⟨fun plan => (hplan plan).trans ?_, hfew, hsent⟩
        unfold Accepted
        simp only [hkey, Except.ok.injEq, exists_eq_left']
        exact Iff.rfl

/-- What is expected of the outside: with the key that there is for an adviser, a connection to it can be made. -/
def Connects (session : Session) (environment : Table String) (line : ChatLine) : Prop :=
  ∀ key, apiKey environment session.config.adviser.provider caller = .ok key →
    line.refusal? (session.client key) = none

theorem Connects.exists_ask {environment : Table String} {line : ChatLine}
    (h : session.Connects environment line) : ∃ advice, session.ask environment line = .ok advice := by
  unfold ask
  cases hkey : apiKey environment session.config.adviser.provider caller with
  | error cause => exact ⟨_, rfl⟩
  | ok key =>
      simp only [ChatLine.connect, h key hkey]
      exact ⟨_, rfl⟩

theorem Accepted.offers {environment : Table String} {line : ChatLine} {plan : Plan}
    (h : session.Accepted environment line plan) : ∃ body, session.Offers body plan := by
  obtain ⟨key, -, k, -, ⟨body, -, hoffers⟩, -⟩ := h
  exact ⟨body, hoffers⟩

end Advice.Session

namespace Advice

/-! ## The record -/

end Advice

end ScriptSplit
