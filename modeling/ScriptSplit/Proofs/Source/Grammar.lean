import ScriptSplit.Proofs.Source.Reading

/-!
# The grammar of balanced code

What the lexer takes for balanced is a language with a grammar of its own, in which code and template
literals refer to each other. A derivation tells how the lexer reads a text; conversely what the lexer has
open at some point, interpolations within templates and braces within those, tells which pieces of a
derivation are still to come.
-/

namespace ScriptSplit.Source

/-- The text between the quotes of a string. -/
inductive Quoted (quote : Char) : Text → Prop where
  | nil : Quoted quote []
  | escape (c : Char) {rest : Text} : Quoted quote rest → Quoted quote ('\\' :: c :: rest)
  | plain {c : Char} {rest : Text} : c ≠ '\\' → c ≠ quote → Text.isNewline c = false →
      Quoted quote rest → Quoted quote (c :: rest)

mutual

/-- Code in which every brace, string, comment and template is closed. After a piece of code there is only a
closing brace or the end of the text, so what a slash is followed by is seen within the piece. -/
inductive Code : Text → Prop where
  | nil : Code []
  | lineComment {body rest : Text} {newline : Char} : (∀ c ∈ body, Text.isNewline c = false) →
      Text.isNewline newline = true → Code rest → Code ('/' :: '/' :: (body ++ newline :: rest))
  /-- The end of a comment is the first one after its beginning. -/
  | blockComment {body rest : Text} : ¬ ['*', '/'] <:+: body ++ ['*'] → Code rest →
      Code ('/' :: '*' :: (body ++ '*' :: '/' :: rest))
  | string {quote closer : Char} {body rest : Text} : quote = '"' ∨ quote = '\'' →
      Quoted quote body → closer = quote ∨ Text.isNewline closer = true → Code rest →
      Code (quote :: (body ++ closer :: rest))
  | template {items rest : Text} : Template items → Code rest → Code ('`' :: (items ++ '`' :: rest))
  | braces {inner rest : Text} : Code inner → Code rest → Code ('{' :: (inner ++ '}' :: rest))
  | other {c : Char} {rest : Text} : c ∉ ['"', '\'', '`', '{', '}'] →
      (c = '/' → rest.head? ≠ some '/' ∧ rest.head? ≠ some '*') → Code rest → Code (c :: rest)

/-- The text between the back-ticks of a template literal. -/
inductive Template : Text → Prop where
  | nil : Template []
  | escape (c : Char) {rest : Text} : Template rest → Template ('\\' :: c :: rest)
  | interpolation {inner rest : Text} : Code inner → Template rest →
      Template ('$' :: '{' :: (inner ++ '}' :: rest))
  | other {c : Char} {rest : Text} : c ≠ '\\' → c ≠ '`' → (c = '$' → rest.head? ≠ some '{') →
      Template rest → Template (c :: rest)

end

/-! ## How derived text is read -/

open Lexer

section Derived

variable {depth : Int} {negative : Bool} {quote : Option Char} {saved : List Int}

theorem read_lineComment {body : Text} {newline : Char}
    (hbody : ∀ c ∈ body, Text.isNewline c = false) (hnewline : Text.isNewline newline = true)
    (rest : Text) :
    State.read ⟨.lineComment, depth, negative, quote, saved⟩ (body ++ newline :: rest) =
      State.read ⟨.code, depth, negative, quote, saved⟩ rest := by
  induction body with
  | nil =>
      rw [List.nil_append, State.read_single rfl]
      simp [State.after, hnewline]
  | cons c body ih =>
      rw [List.forall_mem_cons] at hbody
      rw [List.cons_append, State.read_single rfl, ← ih hbody.2]
      simp [State.after, hbody.1]

theorem read_blockComment {body : Text} (hbody : ¬ ['*', '/'] <:+: body ++ ['*']) (rest : Text) :
    State.read ⟨.blockComment, depth, negative, quote, saved⟩ (body ++ '*' :: '/' :: rest) =
      State.read ⟨.code, depth, negative, quote, saved⟩ rest := by
  induction body with
  | nil => exact State.read_pair rest rfl
  | cons c body ih =>
      rw [List.cons_append, List.infix_cons_iff, not_or] at hbody
      have hopen : (c == '*' && (body ++ '*' :: '/' :: rest).head? == some '/') = false := by
        rw [Bool.and_eq_false_imp]
        intro hc
        cases body with
        | nil => rfl
        | cons next body =>
            by_contra hnext
            simp_all
      rw [List.cons_append, State.read_single (by simpa [State.takesPair] using hopen), ← ih hbody.2]
      simp only [State.after, hopen]
      rfl

theorem Quoted.read {opener closer : Char} {body : Text} (h : Quoted opener body)
    (hcloser : closer = opener ∨ Text.isNewline closer = true) (hplain : closer ≠ '\\') (rest : Text) :
    State.read ⟨.string, depth, negative, some opener, saved⟩ (body ++ closer :: rest) =
      State.read ⟨.code, depth, negative, some opener, saved⟩ rest := by
  induction h with
  | nil =>
      rw [List.nil_append, State.read_single (by simpa [State.takesPair] using hplain)]
      rcases hcloser with rfl | hnewline <;> simp [State.after, *]
  | escape c _ ih =>
      rw [List.cons_append, List.cons_append, State.read_pair _ rfl, ← ih]
      simp [State.after]
  | plain hescape hquote hnewline _ ih =>
      rw [List.cons_append, State.read_single (by simpa [State.takesPair] using hescape), ← ih]
      simp [State.after, hescape, hnewline, Ne.symm hquote]

theorem after_other {c : Char} (hc : c ∉ ['"', '\'', '`', '{', '}']) {next : Option Char}
    (hslash : c = '/' → next ≠ some '/' ∧ next ≠ some '*') :
    State.after ⟨.code, depth, negative, quote, saved⟩ c next =
      ⟨.code, depth, negative, quote, saved⟩ := by
  simp only [List.mem_cons, List.not_mem_nil, or_false, not_or] at hc
  by_cases hc' : c = '/' <;> simp_all [State.after]

theorem read_other {c : Char} (hc : c ∉ ['"', '\'', '`', '{', '}']) {rest : Text}
    (hslash : c = '/' → rest.head? ≠ some '/' ∧ rest.head? ≠ some '*') :
    State.read ⟨.code, depth, negative, quote, saved⟩ (c :: rest) =
      State.read ⟨.code, depth, negative, quote, saved⟩ rest := by
  rw [State.read_single (by simpa [State.takesPair] using hslash), after_other hc hslash]

theorem read_templateText {c : Char} (hescape : c ≠ '\\') (hclose : c ≠ '`') {rest : Text}
    (hopen : c = '$' → rest.head? ≠ some '{') :
    State.read ⟨.template, depth, negative, quote, saved⟩ (c :: rest) =
      State.read ⟨.template, depth, negative, quote, saved⟩ rest := by
  generalize hnext : rest.head? = next at hopen
  rw [State.read_single (by simp_all [State.takesPair]), hnext]
  by_cases hc : c = '$' <;> simp_all [State.after]

theorem not_followed {rest after : Text} (hafter : after.head? = none ∨ after.head? = some '}')
    {next : Char} (hnext : next ≠ '}') (hrest : rest.head? ≠ some next) :
    (rest ++ after).head? ≠ some next := by
  cases rest with
  | cons c rest => exact hrest
  | nil =>
      intro hhead
      rw [List.nil_append] at hhead
      rw [hhead] at hafter
      simp_all

mutual

/-- Code is read within whatever is open around it, and leaves that as it is. -/
theorem Code.read {t : Text} (h : Code t) {depth : Int} (hdepth : 0 ≤ depth) (negative : Bool)
    (quote : Option Char) (saved : List Int) (after : Text)
    (hafter : after.head? = none ∨ after.head? = some '}') :
    ∃ last, State.read ⟨.code, depth, negative, quote, saved⟩ (t ++ after) =
      State.read ⟨.code, depth, negative, last, saved⟩ after := by
  cases h with
  | nil => exact ⟨quote, rfl⟩
  | @lineComment body rest newline hbody hnewline hrest =>
      obtain ⟨last, hread⟩ := hrest.read hdepth negative quote saved after hafter
      refine ⟨last, ?_⟩
      rw [List.cons_append, List.cons_append, List.append_assoc, List.cons_append,
        State.read_pair _ rfl, ← hread]
      exact read_lineComment hbody hnewline _
  | @blockComment body rest hbody hrest =>
      obtain ⟨last, hread⟩ := hrest.read hdepth negative quote saved after hafter
      refine ⟨last, ?_⟩
      rw [List.cons_append, List.cons_append, List.append_assoc, List.cons_append, List.cons_append,
        State.read_pair _ rfl, ← hread]
      exact read_blockComment hbody _
  | @string opener closer body rest hopener hbody hcloser hrest =>
      obtain ⟨last, hread⟩ := hrest.read hdepth negative (some opener) saved after hafter
      refine ⟨last, ?_⟩
      have hplain : closer ≠ '\\' := by
        rintro rfl
        rcases hcloser with rfl | hnewline
        · rcases hopener with hopener | hopener <;> cases hopener
        · cases hnewline
      rw [List.cons_append, List.append_assoc, List.cons_append, ← hread,
        ← hbody.read hcloser hplain]
      rcases hopener with rfl | rfl <;> exact State.read_single rfl
  | @template items rest hitems hrest =>
      obtain ⟨within, hread⟩ := hitems.read hdepth negative quote saved (rest ++ after)
      obtain ⟨last, hlast⟩ := hrest.read hdepth negative within saved after hafter
      refine ⟨last, ?_⟩
      rw [List.cons_append, List.append_assoc, List.cons_append, ← hlast, ← hread]
      exact State.read_single rfl
  | @braces inner rest hinner hrest =>
      obtain ⟨within, hread⟩ := hinner.read (by omega : (0 : Int) ≤ depth + 1) negative quote saved
        ('}' :: (rest ++ after)) (Or.inr rfl)
      obtain ⟨last, hlast⟩ := hrest.read hdepth negative within saved after hafter
      refine ⟨last, ?_⟩
      have hclose : State.after ⟨.code, depth + 1, negative, within, saved⟩ '}'
          (rest ++ after).head? = ⟨.code, depth, negative, within, saved⟩ := by
        have hopen : depth + 1 ≠ 0 := by omega
        cases saved <;> simp [State.after, State.close, hopen, hdepth]
      rw [List.cons_append, List.append_assoc, List.cons_append, ← hlast, ← hclose,
        ← State.read_single rfl, ← hread]
      exact State.read_single rfl
  | @other c rest hc hslash hrest =>
      obtain ⟨last, hread⟩ := hrest.read hdepth negative quote saved after hafter
      refine ⟨last, ?_⟩
      rw [List.cons_append, ← hread]
      exact read_other hc fun hc => ⟨not_followed hafter (by decide) (hslash hc).1,
        not_followed hafter (by decide) (hslash hc).2⟩
termination_by t.length

theorem Template.read {t : Text} (h : Template t) {depth : Int} (hdepth : 0 ≤ depth) (negative : Bool)
    (quote : Option Char) (saved : List Int) (after : Text) :
    ∃ last, State.read ⟨.template, depth, negative, quote, saved⟩ (t ++ '`' :: after) =
      State.read ⟨.code, depth, negative, last, saved⟩ after := by
  cases h with
  | nil => exact ⟨quote, State.read_single rfl⟩
  | @escape c rest hrest =>
      obtain ⟨last, hread⟩ := hrest.read hdepth negative quote saved after
      refine ⟨last, ?_⟩
      rw [List.cons_append, List.cons_append, ← hread]
      exact State.read_pair _ rfl
  | @interpolation inner rest hinner hrest =>
      obtain ⟨within, hread⟩ := hinner.read (le_refl 0) negative quote (depth :: saved)
        ('}' :: (rest ++ '`' :: after)) (Or.inr rfl)
      obtain ⟨last, hlast⟩ := hrest.read hdepth negative within saved after
      refine ⟨last, ?_⟩
      rw [List.cons_append, List.cons_append, List.append_assoc, List.cons_append,
        State.read_pair _ rfl, ← hlast]
      refine Eq.trans hread ?_
      exact State.read_single rfl
  | @other c rest hescape hclose hopen hrest =>
      obtain ⟨last, hread⟩ := hrest.read hdepth negative quote saved after
      refine ⟨last, ?_⟩
      have hdollar : c = '$' → (rest ++ '`' :: after).head? ≠ some '{' := by
        intro hc
        cases rest with
        | nil => simp
        | cons next rest => exact hopen hc
      rw [List.cons_append, ← hread]
      exact read_templateText hescape hclose hdollar
termination_by t.length

end

end Derived

/-! ## What is still to come -/

/-- What may follow in code at a depth within interpolations: it closes everything that is open. -/
inductive Pending : Int → List Int → Text → Prop where
  | code {t : Text} : Code t → Pending 0 [] t
  | brace {depth : Int} {saved : List Int} {inner rest : Text} : 0 ≤ depth → Code inner →
      Pending depth saved rest → Pending (depth + 1) saved (inner ++ '}' :: rest)
  | interpolation {outer : Int} {saved : List Int} {inner items rest : Text} : Code inner →
      Template items → Pending outer saved rest →
      Pending 0 (outer :: saved) (inner ++ '}' :: (items ++ '`' :: rest))

/-- What goes before every piece of code that a text starts with may go before the text. -/
theorem Pending.after {depth : Int} {saved : List Int} {t : Text} (h : Pending depth saved t)
    (front : Text) (hfront : ∀ inner, inner <+: t → Code inner → Code (front ++ inner)) :
    Pending depth saved (front ++ t) := by
  cases h with
  | code hcode => exact .code (hfront t (List.prefix_refl t) hcode)
  | @brace _ _ inner rest hdepth hinner hrest =>
      rw [← List.append_assoc]
      exact .brace hdepth (hfront inner (List.prefix_append _ _) hinner) hrest
  | @interpolation _ _ inner items rest hinner hitems hrest =>
      rw [← List.append_assoc]
      exact .interpolation (hfront inner (List.prefix_append _ _) hinner) hitems hrest

theorem Pending.brace_inv {depth : Int} {saved : List Int} {t : Text} (hdepth : 0 ≤ depth)
    (h : Pending (depth + 1) saved t) :
    ∃ inner rest, t = inner ++ '}' :: rest ∧ Code inner ∧ Pending depth saved rest := by
  generalize hopen : depth + 1 = opened at h
  cases h with
  | code => omega
  | @brace inside _ inner rest _ hinner hrest =>
      obtain rfl : depth = inside := by omega
      exact ⟨inner, rest, rfl, hinner, hrest⟩
  | interpolation => omega

theorem Pending.code_inv {t : Text} (h : Pending 0 [] t) : Code t := by
  generalize hopen : (0 : Int) = opened at h
  cases h with
  | code hcode => exact hcode
  | brace => omega

theorem Pending.interpolation_inv {outer : Int} {saved : List Int} {t : Text}
    (h : Pending 0 (outer :: saved) t) :
    ∃ inner items rest, t = inner ++ '}' :: (items ++ '`' :: rest) ∧ Code inner ∧ Template items ∧
      Pending outer saved rest := by
  generalize hopen : (0 : Int) = opened at h
  cases h with
  | brace => omega
  | interpolation hinner hitems hrest => exact ⟨_, _, _, rfl, hinner, hitems, hrest⟩

/-- What may follow in any state. -/
def Remaining (s : State) (t : Text) : Prop :=
  match s.mode with
  | .code => Pending s.depth s.saved t
  | .lineComment => ∃ body newline rest, t = body ++ newline :: rest ∧
      (∀ c ∈ body, Text.isNewline c = false) ∧ Text.isNewline newline = true ∧
        Pending s.depth s.saved rest
  | .blockComment => ∃ body rest, t = body ++ '*' :: '/' :: rest ∧
      ¬ ['*', '/'] <:+: body ++ ['*'] ∧ Pending s.depth s.saved rest
  | .string => ∃ body closer rest, t = body ++ closer :: rest ∧
      (∀ opener ∈ s.quote, Quoted opener body ∧ (closer = opener ∨ Text.isNewline closer = true)) ∧
        Pending s.depth s.saved rest
  | .template => ∃ items rest, t = items ++ '`' :: rest ∧ Template items ∧
      Pending s.depth s.saved rest

def Sound (s : State) : Prop :=
  0 ≤ s.depth ∧ ∀ outer ∈ s.saved, 0 ≤ outer

theorem Sound.close {s : State} (h : Sound s) (hnegative : s.close.wentNegative = false) :
    Sound s.close := by
  obtain ⟨mode, depth, negative, quote, saved⟩ := s
  obtain ⟨hdepth, hsaved⟩ := h
  cases saved with
  | nil =>
      simp only [State.close, Bool.or_eq_false_iff, decide_eq_false_iff_not] at hnegative
      exact ⟨by simp only [State.close]; omega, by simp [State.close]⟩
  | cons outer saved =>
      rw [List.forall_mem_cons] at hsaved
      by_cases hzero : depth = 0
      · simpa [State.close, hzero, Sound] using hsaved
      · simp only at hdepth
        refine ⟨?_, ?_⟩ <;> simp only [State.close, hzero, if_false]
        · omega
        · exact List.forall_mem_cons.2 hsaved

theorem Sound.after {s : State} (h : Sound s) (c : Char) (next : Option Char)
    (hnegative : (s.after c next).wentNegative = false) : Sound (s.after c next) := by
  obtain ⟨mode, depth, negative, quote, saved⟩ := s
  have hdeeper : (0 : Int) ≤ depth + 1 := by
    have hdepth : 0 ≤ depth := h.1
    omega
  have hentered : ∀ outer ∈ depth :: saved, 0 ≤ outer := List.forall_mem_cons.2 h
  have hclosed := h.close
  cases mode <;> simp only [State.after] at hnegative ⊢ <;> split_ifs at hnegative ⊢ <;>
    first
    | exact h
    | exact ⟨le_refl 0, hentered⟩
    | exact ⟨hdeeper, h.2⟩
    | exact hclosed hnegative

theorem wentNegative_after {s : State} (h : s.wentNegative = true) (c : Char) (next : Option Char) :
    (s.after c next).wentNegative = true := by
  obtain ⟨mode, depth, negative, quote, saved⟩ := s
  obtain rfl : negative = true := h
  cases mode <;> simp only [State.after] <;> split_ifs <;> try rfl
  cases saved with
  | nil => rfl
  | cons outer saved =>
      simp only [State.close]
      split <;> rfl

/-- A brace that was closed too often is never forgotten. -/
theorem wentNegative_read {s s' : State} {t : Text} (h : s.wentNegative = true)
    (hread : s.read t = some s') : s'.wentNegative = true := by
  fun_induction State.read s t with
  | case1 s => exact Option.some.inj hread ▸ h
  | case2 => cases hread
  | case3 s c hsingle => exact Option.some.inj hread ▸ wentNegative_after h c none
  | case4 s c next rest hpair ih => exact ih (wentNegative_after h c _) hread
  | case5 s c next rest hsingle ih => exact ih (wentNegative_after h c _) hread

theorem Remaining.pair {s : State} {c next : Char} {rest : Text}
    (hpair : s.takesPair c (some next) = true) (h : Remaining (s.after c (some next)) rest) :
    Remaining s (c :: next :: rest) := by
  obtain ⟨mode, depth, negative, quote, saved⟩ := s
  cases mode with
  | lineComment => cases hpair
  | blockComment =>
      obtain ⟨rfl, rfl⟩ : c = '*' ∧ next = '/' := by simpa [State.takesPair] using hpair
      exact ⟨[], rest, rfl, by decide, h⟩
  | string =>
      obtain rfl : c = '\\' := by simpa [State.takesPair] using hpair
      obtain ⟨body, closer, rest, rfl, hbody, hrest⟩ := h
      exact ⟨'\\' :: next :: body, closer, rest, rfl,
        fun opener hopener => ⟨.escape next (hbody opener hopener).1, (hbody opener hopener).2⟩, hrest⟩
  | template =>
      by_cases hescape : c = '\\'
      · subst hescape
        obtain ⟨items, rest, rfl, hitems, hrest⟩ := h
        exact ⟨'\\' :: next :: items, rest, rfl, .escape next hitems, hrest⟩
      · obtain ⟨rfl, rfl⟩ : c = '$' ∧ next = '{' := by simpa [State.takesPair, hescape] using hpair
        obtain ⟨inner, items, rest, rfl, hinner, hitems, hrest⟩ := Pending.interpolation_inv h
        exact ⟨'$' :: '{' :: (inner ++ '}' :: items), rest, by simp, .interpolation hinner hitems,
          hrest⟩
  | code =>
      obtain ⟨rfl, hnext⟩ : c = '/' ∧ (next = '/' ∨ next = '*') := by
        simpa [State.takesPair] using hpair
      rcases hnext with rfl | rfl
      · obtain ⟨body, newline, rest, rfl, hbody, hnewline, hrest⟩ := h
        have hcomment : Pending depth saved _ :=
          Pending.after hrest ('/' :: '/' :: (body ++ [newline])) fun inner _ hinner => by
            simpa using Code.lineComment hbody hnewline hinner
        simpa [Remaining] using hcomment
      · obtain ⟨body, rest, rfl, hbody, hrest⟩ := h
        have hcomment : Pending depth saved _ :=
          Pending.after hrest ('/' :: '*' :: (body ++ ['*', '/'])) fun inner _ hinner => by
            simpa using Code.blockComment hbody hinner
        simpa [Remaining] using hcomment

theorem head?_eq_of_starts {inner t : Text} (h : inner <+: t) {c : Char} (hc : inner.head? = some c) :
    t.head? = some c := by
  obtain ⟨rest, rfl⟩ := h
  rw [List.head?_append, hc]
  rfl

theorem Remaining.close {depth : Int} {negative : Bool} {quote : Option Char} {saved : List Int}
    {rest : Text}
    (hnegative : (State.close ⟨.code, depth, negative, quote, saved⟩).wentNegative = false)
    (h : Remaining (State.close ⟨.code, depth, negative, quote, saved⟩) rest) :
    Pending depth saved ('}' :: rest) := by
  have hdeeper (hdepth : 0 ≤ depth - 1) (hrest : Pending (depth - 1) saved rest) :
      Pending depth saved ('}' :: rest) := by
    have hbrace := Pending.brace hdepth .nil hrest
    rwa [Int.sub_add_cancel] at hbrace
  cases saved with
  | nil =>
      simp only [State.close, Bool.or_eq_false_iff, decide_eq_false_iff_not] at hnegative
      exact hdeeper (by omega) h
  | cons outer saved =>
      by_cases hzero : depth = 0
      · subst hzero
        obtain ⟨items, rest, rfl, hitems, hrest⟩ := h
        exact .interpolation .nil hitems hrest
      · simp only [State.close, hzero, if_false, Bool.or_eq_false_iff, decide_eq_false_iff_not]
          at hnegative h
        exact hdeeper (by omega) h

theorem Remaining.single {s : State} {c : Char} {rest : Text} (hsound : Sound s)
    (hsingle : s.takesPair c rest.head? = false)
    (hnegative : (s.after c rest.head?).wentNegative = false)
    (h : Remaining (s.after c rest.head?) rest) : Remaining s (c :: rest) := by
  obtain ⟨mode, depth, negative, quote, saved⟩ := s
  cases mode with
  | lineComment =>
      by_cases hnewline : Text.isNewline c = true
      · simp only [State.after, hnewline] at h
        exact ⟨[], c, rest, rfl, by simp, hnewline, h⟩
      · simp only [State.after, hnewline] at h
        obtain ⟨body, newline, rest, rfl, hbody, hlast, hrest⟩ := h
        exact ⟨c :: body, newline, rest, rfl,
          List.forall_mem_cons.2 ⟨Bool.eq_false_of_not_eq_true hnewline, hbody⟩, hlast, hrest⟩
  | blockComment =>
      simp only [State.takesPair] at hsingle
      simp only [State.after, hsingle] at h
      obtain ⟨body, rest, rfl, hbody, hrest⟩ := h
      refine ⟨c :: body, rest, rfl, ?_, hrest⟩
      rw [List.cons_append, List.infix_cons_iff, not_or]
      refine ⟨fun hfirst => ?_, hbody⟩
      obtain ⟨rfl, hslash⟩ := List.cons_prefix_cons.1 hfirst
      have hnext := head?_eq_of_starts hslash rfl
      cases body with
      | nil => cases hnext
      | cons next body =>
          rw [List.cons_append, List.head?_cons] at hnext
          obtain rfl := Option.some.inj hnext
          simp at hsingle
  | string =>
      have hescape : c ≠ '\\' := by simpa [State.takesPair] using hsingle
      by_cases hclose : (quote == some c || Text.isNewline c) = true
      · simp only [State.after, beq_eq_false_iff_ne.2 hescape, hclose] at h
        refine ⟨[], c, rest, rfl, fun opener hopener => ⟨.nil, ?_⟩, h⟩
        obtain rfl : quote = some opener := hopener
        rw [Bool.or_eq_true, beq_iff_eq] at hclose
        exact hclose.imp (fun hsame => (Option.some.inj hsame).symm) id
      · simp only [State.after, beq_eq_false_iff_ne.2 hescape, hclose] at h
        obtain ⟨body, closer, rest, rfl, hbody, hrest⟩ := h
        rw [Bool.or_eq_true, not_or] at hclose
        refine ⟨c :: body, closer, rest, rfl, fun opener hopener => ?_, hrest⟩
        obtain rfl : quote = some opener := hopener
        have hother : c ≠ opener := by
          rintro rfl
          exact hclose.1 (beq_self_eq_true _)
        exact ⟨.plain hescape hother (Bool.eq_false_of_not_eq_true hclose.2) (hbody opener rfl).1,
          (hbody opener rfl).2⟩
  | template =>
      simp only [State.takesPair, Bool.or_eq_false_iff, beq_eq_false_iff_ne] at hsingle
      obtain ⟨hescape, hopen⟩ := hsingle
      by_cases hclose : c = '`'
      · subst hclose
        exact ⟨[], rest, rfl, .nil, h⟩
      · simp only [State.after, beq_eq_false_iff_ne.2 hescape, beq_eq_false_iff_ne.2 hclose, hopen] at h
        obtain ⟨items, rest, rfl, hitems, hrest⟩ := h
        refine ⟨c :: items, rest, rfl, .other hescape hclose (fun hdollar hbrace => ?_) hitems, hrest⟩
        subst hdollar
        rw [head?_eq_of_starts (List.prefix_append items ('`' :: rest)) hbrace] at hopen
        cases hopen
  | code =>
      have hslash : c = '/' → rest.head? ≠ some '/' ∧ rest.head? ≠ some '*' := by
        simpa [State.takesPair] using hsingle
      by_cases hquote : c = '"' ∨ c = '\''
      · have hopened : State.after ⟨.code, depth, negative, quote, saved⟩ c rest.head? =
            ⟨.string, depth, negative, some c, saved⟩ := by
          rcases hquote with rfl | rfl <;> rfl
        rw [hopened] at h
        obtain ⟨body, closer, rest, rfl, hbody, hrest⟩ := h
        have hstring : Pending depth saved _ :=
          Pending.after hrest (c :: (body ++ [closer])) fun inner _ hinner => by
            simpa using Code.string hquote (hbody c rfl).1 (hbody c rfl).2 hinner
        simpa [Remaining] using hstring
      by_cases htemplate : c = '`'
      · subst htemplate
        obtain ⟨items, rest, rfl, hitems, hrest⟩ := h
        have hliteral : Pending depth saved _ :=
          Pending.after hrest ('`' :: (items ++ ['`'])) fun inner _ hinner => by
            simpa using Code.template hitems hinner
        simpa [Remaining] using hliteral
      by_cases hopen : c = '{'
      · subst hopen
        obtain ⟨inner, rest, rfl, hinner, hrest⟩ := Pending.brace_inv hsound.1 h
        have hgroup : Pending depth saved _ :=
          Pending.after hrest ('{' :: (inner ++ ['}'])) fun code _ hcode => by
            simpa using Code.braces hinner hcode
        simpa [Remaining] using hgroup
      by_cases hclose : c = '}'
      · subst hclose
        exact Remaining.close hnegative h
      · rw [not_or] at hquote
        have hother : c ∉ ['"', '\'', '`', '{', '}'] := by
          simp [hquote, htemplate, hopen, hclose]
        rw [after_other hother hslash] at h
        have hrest : Pending depth saved rest := h
        exact hrest.after [c] fun inner hinner hcode => .other hother
          (fun hc => ⟨fun hnext => (hslash hc).1 (head?_eq_of_starts hinner hnext),
            fun hnext => (hslash hc).2 (head?_eq_of_starts hinner hnext)⟩) hcode

/-- A text that is read to a balanced end holds what had to come. -/
theorem remaining_of_read {s s' : State} {t : Text} (hsound : Sound s)
    (hread : s.read t = some s') (hbalanced : s'.balanced = true) : Remaining s t := by
  have hend {s : State} (hs : s.balanced = true) : Remaining s [] := by
    obtain ⟨mode, depth, negative, quote, saved⟩ := s
    simp only [State.balanced, Bool.and_eq_true, beq_iff_eq, List.isEmpty_iff] at hs
    obtain ⟨⟨⟨rfl, rfl⟩, rfl⟩, -⟩ := hs
    exact .code .nil
  have hkept {s : State} {t : Text} (hread : s.read t = some s') : s.wentNegative = false := by
    by_contra hnegative
    have hlast := wentNegative_read (Bool.eq_true_of_not_eq_false hnegative) hread
    simp [State.balanced, hlast] at hbalanced
  fun_induction State.read s t with
  | case1 s => exact hend (Option.some.inj hread ▸ hbalanced)
  | case2 => cases hread
  | case3 s c hsingle =>
      obtain rfl := Option.some.inj hread
      exact Remaining.single hsound (Bool.eq_false_of_not_eq_true hsingle) (hkept (t := []) rfl)
        (hend hbalanced)
  | case4 s c next rest hpair ih =>
      exact Remaining.pair hpair (ih (hsound.after c _ (hkept hread)) hread)
  | case5 s c next rest hsingle ih =>
      exact Remaining.single hsound (Bool.eq_false_of_not_eq_true hsingle) (hkept hread)
        (ih (hsound.after c _ (hkept hread)) hread)

/-- Exactly code by the grammar is balanced. -/
theorem isBalanced_iff_code (text : Text) :
    isBalanced text 0 text.length = true ↔ Code text := by
  rw [isBalanced_iff_read]
  constructor
  · rintro ⟨s, hread, hbalanced⟩
    have hsound : Sound .initial := ⟨le_refl 0, by simp [State.initial]⟩
    have hpending : Pending 0 [] text := remaining_of_read hsound hread hbalanced
    exact hpending.code_inv
  · intro hcode
    obtain ⟨last, hread⟩ := hcode.read (le_refl 0) false none [] [] (Or.inl rfl)
    rw [List.append_nil] at hread
    exact ⟨⟨.code, 0, false, last, []⟩, hread, rfl⟩

end ScriptSplit.Source
