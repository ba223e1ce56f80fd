import ScriptSplit.Proofs.Advice.Conversation
import ScriptSplit.Proofs.Run.Places
import ScriptSplit.Stage.Plan

/-!
# The source is not told

Where the text of the source may not be sent, nothing that an adviser says gets it out: a conversation goes
the same way whatever the text is, and a request for the source ends it.
-/

namespace ScriptSplit.Advice.Session

variable {session : Session}

def about (session : Session) (text : Option String) : Session :=
  { session with source := text }

/-! ## Answers -/

theorem packDoc_eq {pack : Pack} (hpack : pack ≠ .source) (facts : Facts) (a b : Option String) :
    packDoc facts a pack = packDoc facts b pack := by
  cases pack with
  | source => exact absurd rfl hpack
  | _ => rfl

theorem answer_about {packs : List Pack} (hpacks : .source ∉ packs) (text : Option String) :
    (session.about text).answer packs = session.answer packs := by
  unfold answer
  congr 2
  refine List.foldl_ext _ _ _ fun members pack hpack => ?_
  have hne : pack ≠ .source := fun h => hpacks (h ▸ hpack)
  rw [packDoc_eq hne session.facts session.source text]
  rfl

/-- What an answer says of the facts: nothing but packs that are not the source. -/
def Harmless (facts : Facts) (members : Table Json) : Prop :=
  ∀ entry ∈ members, ∃ pack : Pack, pack ≠ .source ∧
    entry = (pack.name, packDoc facts none pack)

theorem answer_harmless {packs : List Pack} (hpacks : .source ∉ packs) :
    ∃ members, Harmless session.facts members ∧
      session.answer packs = (Json.object members).compact := by
  refine ⟨_, ?_, rfl⟩
  have hrun (done : Table Json) (hdone : Harmless session.facts done) : Harmless session.facts
      (packs.foldl (fun members pack =>
        members.put pack.name (packDoc session.facts session.source pack)) done) := by
    induction packs generalizing done with
    | nil => exact hdone
    | cons pack packs ih =>
        rw [List.mem_cons, not_or] at hpacks
        refine ih hpacks.2 _ fun entry hentry => ?_
        rcases Table.mem_put hentry with rfl | hold
        · exact ⟨pack, Ne.symm hpacks.1, by rw [packDoc_eq (Ne.symm hpacks.1) _ _ none]⟩
        · exact hdone entry hold
  exact hrun [] fun entry hentry => absurd hentry List.not_mem_nil

/-! ## Replies -/

def WantsSource (body : String) : Prop :=
  ∃ doc names, readReply body = .ok doc ∧ requestedPacks? doc = some names ∧
    Pack.source.name ∈ names

theorem name_ofName? {name : String} {pack : Pack} (h : Pack.ofName? name = some pack) :
    pack.name = name := by
  unfold Pack.ofName? at h
  simpa using List.find?_some h

variable (hkept : session.config.adviser.sendsSource = false)

include hkept

theorem source_unavailable :
    Pack.source.name ∉ (Pack.available session.config.adviser.sendsSource).map Pack.name := by
  rw [hkept]
  decide

theorem source_not_mem_resolve {names : List String} {packs : List Pack}
    (h : session.resolve names = .ok packs) : .source ∉ packs := by
  intro hsource
  have hall := resolve_eq_ok.1 ⟨packs, h⟩
  have hpacks : packs = names.filterMap Pack.ofName? := by
    unfold resolve at h
    simp only at h
    split at h
    · exact (Except.ok.inj h).symm
    · cases h
  rw [hpacks, List.mem_filterMap] at hsource
  obtain ⟨name, hname, hpack⟩ := hsource
  have havailable := hall name hname
  rw [← name_ofName? hpack] at havailable
  exact source_unavailable hkept havailable

theorem judge_about (text : Option String) (body : String) (last : Bool) :
    (session.about text).judge body last = session.judge body last := by
  unfold judge
  cases readReply body with
  | error cause => rfl
  | ok doc =>
      simp only [bind, Except.bind]
      cases requestedPacks? doc with
      | none => rfl
      | some names =>
          have hresolve : (session.about text).resolve names = session.resolve names := rfl
          simp only [hresolve]
          cases hpacks : session.resolve names with
          | error cause => rfl
          | ok packs =>
              simp only [answer_about (source_not_mem_resolve hkept hpacks) text]
              rfl

theorem judge_wantsSource {body : String} (hwants : WantsSource body) (last : Bool) :
    ∃ cause, session.judge body last = .error cause := by
  obtain ⟨doc, names, hdoc, hnames, hsource⟩ := hwants
  cases hjudge : session.judge body last with
  | error cause => exact ⟨cause, rfl⟩
  | ok step =>
      exfalso
      cases step with
      | accept plan =>
          obtain ⟨doc', hdoc', hplan, -⟩ := (judge_accept last).1 hjudge
          obtain rfl := Except.ok.inj (hdoc'.symm.trans hdoc)
          rw [ofDoc_of_requestedPacks hnames] at hplan
          cases hplan
      | answer content =>
          obtain ⟨-, doc', names', hdoc', hnames', hall⟩ := judge_answer.1 ⟨content, hjudge⟩
          obtain rfl := Except.ok.inj (hdoc'.symm.trans hdoc)
          obtain rfl := Option.some.inj (hnames'.symm.trans hnames)
          exact source_unavailable hkept (hall _ hsource)

theorem judge_answer_harmless {body content : String} {last : Bool}
    (h : session.judge body last = .ok (.answer content)) :
    ∃ members, Harmless session.facts members ∧ content = (Json.object members).compact := by
  unfold judge at h
  cases hdoc : readReply body with
  | error cause => rw [hdoc] at h; cases h
  | ok doc =>
      rw [hdoc] at h
      simp only [bind, Except.bind] at h
      cases hnames : requestedPacks? doc with
      | none =>
          simp only [hnames] at h
          split at h
          · cases h
          · split at h <;> cases h
      | some names =>
          simp only [hnames] at h
          split at h
          · cases h
          · split at h
            · cases h
            · next packs hpacks =>
                cases h
                exact answer_harmless (source_not_mem_resolve hkept hpacks)

/-! ## Two conversations -/

theorem converse_about (text : Option String) (client : ChatClient) (earlier : List ChatMessage)
    (request : String) (line : ChatLine) (left : Nat) :
    (session.about text).converse client earlier request line left =
      session.converse client earlier request line left := by
  induction left generalizing earlier request line with
  | zero => rfl
  | succ left ih =>
      have hround : (session.about text).roundRequest earlier request =
          session.roundRequest earlier request := rfl
      rw [converse_succ, converse_succ, hround]
      simp only [judge_about hkept text, ih]

theorem ask_about (text : Option String) (environment : Table String) (line : ChatLine) :
    (session.about text).ask environment line = session.ask environment line := by
  unfold ask
  simp only [converse_about hkept text]
  rfl

omit hkept

/-! ## What is said -/

/-- What a conversation may say if the source is not sent: how it opens, what it has heard, and packs that
are not the source. -/
inductive Sayable (session : Session) (heard : Set String) : ChatMessage → Prop where
  | opening : Sayable session heard ⟨.user, firstRequest session.index session.facts
      session.config.maxFiles session.config.minClusterSize false⟩
  | reply {body : String} (hbody : body ∈ heard) : Sayable session heard ⟨.assistant, body⟩
  | packs {members : Table Json} (hmembers : Harmless session.facts members) :
      Sayable session heard ⟨.user, (Json.object members).compact⟩

def Heard (session : Session) (line : ChatLine) (k : Nat) (body : String) : Prop :=
  ∃ key, line.answer (session.client key) caller k = .ok body

theorem Heard.answer {line : ChatLine} {k : Nat} {body : String} (h : session.Heard line k body)
    (key : String) : line.answer (session.client key) caller k = .ok body := by
  obtain ⟨other, hother⟩ := h
  exact hother

/-- What a conversation leaves if nothing of the source gets out. -/
structure Discreet (session : Session) (line : ChatLine) (heard : Set String) (advice : Advice) :
    Prop where
  sent : ∃ asked : List ChatRequest,
    line.Sent advice.line session.config.adviser.provider session.config.adviser.timeout asked ∧
      asked.length = advice.calls ∧ ∀ request ∈ asked, request.system = instructions ∧
        ∀ message ∈ request.messages, session.Sayable heard message
  /-- A reply that asks for the source is the last one, and there is no plan. -/
  refused : ∀ k body, session.Heard line k body → WantsSource body → k < advice.calls →
    advice.calls = k + 1 ∧ ∃ cause, advice.result = .error (.plan cause)

theorem roundRequest_sayable {heard : Set String} {earlier : List ChatMessage} {request : String}
    (hearlier : ∀ message ∈ earlier, session.Sayable heard message)
    (hrequest : session.Sayable heard ⟨.user, request⟩) :
    ∀ message ∈ (session.roundRequest earlier request).messages,
      session.Sayable heard message := by
  intro message hmessage
  rcases List.mem_append.1 hmessage with hold | hnew
  · exact hearlier message hold
  · rw [List.mem_singleton.1 hnew]
    exact hrequest

theorem Discreet.last {heard : Set String} {earlier : List ChatMessage} {request : String}
    (hsayable : ∀ message ∈ (session.roundRequest earlier request).messages,
      session.Sayable heard message)
    {key : String} {line : ChatLine} {body : Option String} {result : Except AdviceError Plan}
    (hrefused : ∀ body, session.Heard line 0 body → WantsSource body →
      ∃ cause, result = .error (.plan cause)) :
    Discreet session line heard
      { result, rounds := [⟨request, body⟩]
        line := (line.send (session.client key) caller (session.roundRequest earlier request)).2 } where
  sent := by
    refine ⟨[session.roundRequest earlier request], line.sent_send .., rfl, ?_⟩
    intro asked hasked
    rw [List.mem_singleton.1 hasked]
    exact ⟨rfl, hsayable⟩
  refused := by
    intro k body hbody hwants hk
    obtain rfl : k = 0 := Nat.lt_one_iff.1 hk
    exact ⟨rfl, hrefused body hbody hwants⟩

/-- The run lemma: by induction on the rounds that are left, the messages so far being sayable. -/
theorem converse_discreet (hkept : session.config.adviser.sendsSource = false)
    {key : String} {heard : Set String} {earlier : List ChatMessage} {request : String} {line : ChatLine}
    (hearlier : ∀ message ∈ earlier, session.Sayable heard message)
    (hrequest : session.Sayable heard ⟨.user, request⟩)
    (hheard : ∀ k body, session.Heard line k body → body ∈ heard) (left : Nat) :
    Discreet session line heard (session.converse (session.client key) earlier request line left) := by
  induction left generalizing earlier request line with
  | zero => exact ⟨⟨[], .refl .., rfl, by simp⟩, fun k _ _ _ hk => absurd hk (Nat.not_lt_zero k)⟩
  | succ left ih =>
      have hsayable := roundRequest_sayable hearlier hrequest
      set next := (line.send (session.client key) caller (session.roundRequest earlier request)).2
        with hline
      have hnext (k : Nat) (body : String) :
          session.Heard next k body ↔ session.Heard line (k + 1) body := by
        constructor
        · intro h
          have hanswer := h.answer key
          rw [hline, ChatLine.answer_send] at hanswer
          exact ⟨key, hanswer⟩
        · intro h
          refine ⟨key, ?_⟩
          rw [hline, ChatLine.answer_send]
          exact h.answer key
      rw [converse_succ]
      simp only
      cases hreply : line.answer (session.client key) caller 0 with
      | error cause =>
          refine .last hsayable fun body hbody _ => ?_
          rw [hbody.answer key] at hreply
          cases hreply
      | ok body =>
          have hbody (other : String) (hother : session.Heard line 0 other) : other = body :=
            Except.ok.inj ((hother.answer key).symm.trans hreply)
          simp only
          cases hjudge : session.judge body (left == 0) with
          | error cause => exact .last hsayable fun _ _ _ => ⟨cause, rfl⟩
          | ok step =>
              have hnot : ¬ WantsSource body := by
                intro hwants
                obtain ⟨cause, hcause⟩ := judge_wantsSource hkept hwants (left == 0)
                rw [hjudge] at hcause
                cases hcause
              cases step with
              | accept plan =>
                  exact .last hsayable fun other hother hwants =>
                    absurd (hbody other hother ▸ hwants) hnot
              | answer content =>
                  obtain ⟨members, hmembers, rfl⟩ := judge_answer_harmless hkept hjudge
                  have hmore : ∀ message ∈ (session.roundRequest earlier request).messages ++
                      [{ role := .assistant, content := body }],
                      session.Sayable heard message := by
                    intro message hmessage
                    rcases List.mem_append.1 hmessage with hold | hnew
                    · exact hsayable message hold
                    · rw [List.mem_singleton.1 hnew]
                      exact .reply (hheard 0 body ⟨key, hreply⟩)
                  obtain ⟨⟨asked, hsent, hlength, hasked⟩, hrefused⟩ := ih hmore (.packs hmembers)
                    fun k other hother => hheard (k + 1) other ((hnext k other).1 hother)
                  refine ⟨⟨session.roundRequest earlier request :: asked, ?_, ?_, ?_⟩, ?_⟩
                  · exact (line.sent_send ..).trans hsent
                  · simpa [Advice.calls] using hlength
                  · exact List.forall_mem_cons.2 ⟨⟨rfl, hsayable⟩, hasked⟩
                  · intro k other hother hwants hk
                    cases k with
                    | zero => exact absurd (hbody other hother ▸ hwants) hnot
                    | succ k =>
                        obtain ⟨hcalls, hresult⟩ := hrefused k other ((hnext k other).2 hother) hwants
                          (by simpa [Advice.calls] using hk)
                        exact ⟨by simpa [Advice.calls] using hcalls, hresult⟩

theorem ask_discreet (hkept : session.config.adviser.sendsSource = false)
    {environment : Table String} {line : ChatLine} {advice : Advice}
    (hask : session.ask environment line = .ok advice) :
    Discreet session line {body | ∃ k, session.Heard line k body} advice := by
  unfold ask at hask
  cases hkey : apiKey environment session.config.adviser.provider caller with
  | error cause =>
      rw [hkey] at hask
      obtain rfl := Except.ok.inj hask
      exact ⟨⟨[], .refl .., rfl, by simp⟩, fun k _ _ _ hk => absurd hk (Nat.not_lt_zero k)⟩
  | ok key =>
      have hrequest : session.Sayable {body | ∃ k, session.Heard line k body}
          ⟨.user, firstRequest session.index session.facts session.config.maxFiles
            session.config.minClusterSize session.config.adviser.sendsSource⟩ := by
        rw [hkept]
        exact .opening
      simp only [hkey, ChatLine.connect] at hask
      split at hask
      · cases hask
      · obtain rfl := Except.ok.inj hask
        -- a connection changes nothing of what is sent and heard
        have hheard : ∀ k body, session.Heard { line with clients := session.client key :: line.clients } k
            body → body ∈ {body | ∃ k, session.Heard line k body} := fun k body hbody => ⟨k, hbody⟩
        obtain ⟨hsent, hrefused⟩ :=
          converse_discreet hkept (List.forall_mem_nil _) hrequest hheard session.rounds
        exact ⟨hsent, hrefused⟩

theorem advise_refused {surroundings : Surroundings} {s : RunState} {reason : String}
    (hask : session.ask surroundings.environment s.line = .error reason) (plansDirectory : Path) :
    ∃ cause files, Run.advise session plansDirectory surroundings s = .error cause { s with files } := by
  unfold Run.advise
  rw [Run.bind_read_eq, Run.bind_get_eq]
  simp only [hask]
  cases hwrite : Storage.writeDocument (plansDirectory / Run.adviceFile)
      (unconnected surroundings.now.written session.config.adviser) s.files with
  | ok _ files => exact ⟨_, files, Run.bind_eq (Run.storing_eq hwrite)⟩
  | error cause files =>
      exact ⟨cause, files, Run.bind_eq_error (by simp only [Run.storing, hwrite])⟩

/-- Where the source may not be sent, it is not: the requests, the outcome and the record of a conversation
are the same for any two texts, nothing is sent but what is sayable, and asking for the source ends it. -/
theorem source_not_told (hkept : session.config.adviser.sendsSource = false)
    (text other : Option String) :
    (∀ environment line,
      (session.about text).ask environment line = (session.about other).ask environment line) ∧
    (∀ plansDirectory,
      Run.advise (session.about text) plansDirectory =
        Run.advise (session.about other) plansDirectory) ∧
    (∀ environment line advice, (session.about text).ask environment line = .ok advice →
      (session.about text).Discreet line {body | ∃ k, session.Heard line k body} advice) ∧
    ∀ plansDirectory surroundings s reason,
      (session.about text).ask surroundings.environment s.line = .error reason →
        ∃ cause files, Run.advise (session.about text) plansDirectory surroundings s =
          .error cause { s with files } := by
  have hask (environment : Table String) (line : ChatLine) :
      (session.about text).ask environment line = (session.about other).ask environment line := by
    rw [ask_about hkept text, ask_about hkept other]
  refine ⟨hask, fun plansDirectory => ?_, fun environment line advice hadvice => ?_,
    fun plansDirectory surroundings s reason hrefused => advise_refused hrefused plansDirectory⟩
  · unfold Run.advise
    simp only [hask]
    rfl
  · have hkept' : (session.about text).config.adviser.sendsSource = false := hkept
    exact ask_discreet hkept' hadvice

/-- What an adviser is asked about that is curious for the source as well. -/
def guarded : Session where
  config := Run.workspaceConfig
  facts := { source := "app.js", functions := [] }
  index := { source := "app.js", shards := [], stats := [], version := "0.3", features := [] }
  source := some "let secret"

def pryingLine : ChatLine where
  replies := [.text (some "\x7b\"needs\": [\"calls\"]\x7d"),
    .text (some "\x7b\"needs\": [\"calls\", \"source\"]\x7d")]

/-- The first request is answered, the second is refused. -/
theorem prying_refused : guarded.config.adviser.sendsSource = false ∧
    (guarded.about (some "let secret")).ask [] pryingLine =
      (guarded.about none).ask [] pryingLine ∧
    ∃ advice, (guarded.about (some "let secret")).ask [] pryingLine = .ok advice ∧
      (guarded.about (some "let secret")).Discreet pryingLine
        {body | ∃ k, guarded.Heard pryingLine k body} advice ∧
      advice.calls = 2 ∧ ∃ cause, advice.result = .error (.plan cause) := by
  have hkept : guarded.config.adviser.sendsSource = false := rfl
  obtain ⟨hsame, -, hdiscreet, -⟩ := source_not_told hkept (some "let secret") none
  have hconnects : (guarded.about (some "let secret")).Connects [] pryingLine := fun _ _ => rfl
  obtain ⟨advice, hask⟩ := hconnects.exists_ask
  have hcalls : advice.calls = 2 := by
    have htwo : ((guarded.about (some "let secret")).ask [] pryingLine).toOption.map Advice.calls =
        some 2 := by decide +kernel
    rw [hask] at htwo
    exact Option.some.inj htwo
  have hwants : WantsSource "\x7b\"needs\": [\"calls\", \"source\"]\x7d" := by
    have hnames : (readReply "\x7b\"needs\": [\"calls\", \"source\"]\x7d").toOption.bind
        requestedPacks? = some ["calls", "source"] := by decide +kernel
    obtain ⟨doc, hdoc, hpacks⟩ := Option.bind_eq_some_iff.1 hnames
    cases hread : readReply "\x7b\"needs\": [\"calls\", \"source\"]\x7d" with
    | error cause => rw [hread] at hdoc; cases hdoc
    | ok found =>
        rw [hread] at hdoc
        cases hdoc
        exact ⟨_, _, hread, hpacks, by decide⟩
  have hlast := (hdiscreet [] pryingLine advice hask).refused 1 _ ⟨"", rfl⟩ hwants
    (by rw [hcalls]; decide)
  exact ⟨hkept, hsame [] pryingLine, advice, hask, hdiscreet [] pryingLine advice hask, hcalls, hlast.2⟩

end ScriptSplit.Advice.Session
