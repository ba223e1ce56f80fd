import ScriptSplit.Proofs.Path.Names
import ScriptSplit.Proofs.Source.Reading
import ScriptSplit.Source.Repair

/-!
# What a repaired span is worth

A repair never gives up text of the span it is given. Unless its method says that the end was guessed, the
mended span is balanced or passes the check, and mending it again changes nothing. An end is only guessed
where no end makes the span balanced, and then the guess stops in front of the next declaration.
-/

namespace ScriptSplit

namespace Repair

/-! ## Good ends -/

theorem accepted_iff {text : Text} {check : Option Check} {start stop : Nat} :
    accepted text check start stop = true ↔
      isBalanced text start stop = true ∨ ∃ accepts ∈ check, accepts (text.slice start stop) = true := by
  cases check <;> simp [accepted]

/-- A lexer that goes over the offsets from `stop` on as one that starts at `start` does. -/
def Scans (text : Text) (start stop : Nat) (lexer : Lexer) : Prop :=
  ∀ target, stop ≤ target → lexer.advanceTo target = (Lexer.start text start).advanceTo target

variable {text : Text} {start stop : Nat} {check : Option Check} {lexer : Lexer}

theorem Scans.next (h : Scans text start stop lexer) :
    Scans text start (stop + 1) (lexer.advanceTo stop) := by
  intro target htarget
  rw [Lexer.advanceTo_advanceTo lexer (by omega), h target (by omega)]

theorem Scans.isBalanced (h : Scans text start stop lexer) :
    ((lexer.advanceTo stop).pos == stop && (lexer.advanceTo stop).balanced) =
      isBalanced text start stop := by
  rw [ScriptSplit.isBalanced, h stop (le_refl stop)]

/-- One offset is either a good end, or none that is balanced and the search goes on behind it. -/
theorem firstGoodEndFrom_succ (reported attempts count : Nat) (h : Scans text start stop lexer) :
    firstGoodEndFrom text start reported check lexer attempts stop (count + 1) = some stop ∧
        accepted text check start stop = true ∨
      isBalanced text start stop = false ∧ ∃ left,
        firstGoodEndFrom text start reported check lexer attempts stop (count + 1) =
          firstGoodEndFrom text start reported check (lexer.advanceTo stop) left (stop + 1) count := by
  rw [firstGoodEndFrom.eq_def]
  simp only [h.isBalanced]
  cases hbalanced : isBalanced text start stop with
  | true => exact Or.inl ⟨rfl, accepted_iff.2 (Or.inl hbalanced)⟩
  | false =>
      simp only [Bool.false_eq_true, if_false, true_and]
      split
      · next accepts left =>
          split
          · split
            · next hpasses => exact Or.inl ⟨rfl, accepted_iff.2 (Or.inr ⟨accepts, rfl, hpasses⟩)⟩
            · exact Or.inr ⟨left, rfl⟩
          · exact Or.inr ⟨left + 1, rfl⟩
      · exact Or.inr ⟨_, rfl⟩

/-- The search finds an end that is good. -/
theorem firstGoodEndFrom_eq_some {reported attempts count good : Nat}
    (h : Scans text start stop lexer)
    (hgood : firstGoodEndFrom text start reported check lexer attempts stop count = some good) :
    stop ≤ good ∧ good < stop + count ∧ accepted text check start good = true := by
  induction count generalizing lexer attempts stop with
  | zero => cases hgood
  | succ count ih =>
      rcases firstGoodEndFrom_succ reported attempts count h with ⟨hfound, haccepted⟩ | ⟨-, left, hon⟩
      · obtain rfl := Option.some.inj (hfound.symm.trans hgood)
        exact ⟨le_refl _, by omega, haccepted⟩
      · obtain ⟨hle, hlt, haccepted⟩ := ih h.next (hon.symm.trans hgood)
        exact ⟨by omega, by omega, haccepted⟩

/-- The search only fails where no end makes the span balanced. -/
theorem firstGoodEndFrom_eq_none {reported attempts count : Nat} (h : Scans text start stop lexer)
    (hnone : firstGoodEndFrom text start reported check lexer attempts stop count = none) {x : Nat}
    (hx : stop ≤ x) (hlimit : x < stop + count) : isBalanced text start x = false := by
  induction count generalizing lexer attempts stop with
  | zero => omega
  | succ count ih =>
      rcases firstGoodEndFrom_succ reported attempts count h with ⟨hfound, -⟩ | ⟨hopen, left, hon⟩
      · cases hfound.symm.trans hnone
      · rcases Nat.eq_or_lt_of_le hx with rfl | hlater
        · exact hopen
        · exact ih h.next (hon.symm.trans hnone) hlater (by omega)

theorem firstGoodEnd_eq_some {limit good : Nat} (hgood : firstGoodEnd text start stop limit check = some good) :
    stop ≤ good ∧ good ≤ limit ∧ accepted text check start good = true := by
  obtain ⟨hle, hlt, haccepted⟩ := firstGoodEndFrom_eq_some (fun _ _ => rfl) hgood
  exact ⟨hle, by omega, haccepted⟩

theorem firstGoodEnd_eq_none {limit : Nat} (hnone : firstGoodEnd text start stop limit check = none)
    {x : Nat} (hx : stop ≤ x) (hlimit : x ≤ limit) : isBalanced text start x = false :=
  firstGoodEndFrom_eq_none (fun _ _ => rfl) hnone hx (by omega)

/-! ## Starts that are pulled back -/

theorem openBraceBefore_le {before : Text} {stop need found : Nat}
    (h : openBraceBefore before stop need = some found) : found ≤ stop := by
  fun_induction openBraceBefore before stop need with
  | case1 => cases h
  | case2 => 
      obtain rfl := Option.some.inj h
      omega
  | case3 _ _ _ _ _ _ ih => exact (ih h).trans (Nat.sub_le _ _)
  | case4 _ _ _ _ _ ih => exact (ih h).trans (Nat.sub_le _ _)

theorem pullBackStart_le (text : Text) (start stop : Nat) : pullBackStart text start stop ≤ start := by
  unfold pullBackStart
  simp only
  split
  · exact le_refl _
  · cases hfound : openBraceBefore (text.slice (start - lookbehind) start).reverse start _ with
    | none => exact le_refl _
    | some found => exact openBraceBefore_le hfound

/-! ## The next declaration -/

inductive Opening : Text → Prop where
  | word {word : String} {gap : Text} : word ∈ ["function", "var", "let", "const"] → gap ≠ [] →
      (∀ c ∈ gap, Text.isBlank c = true) → Opening (word.toList ++ gap)
  | async {first second : Text} : first ≠ [] → (∀ c ∈ first, Text.isBlank c = true) → second ≠ [] →
      (∀ c ∈ second, Text.isBlank c = true) →
      Opening ("async".toList ++ (first ++ ("function".toList ++ second)))

/-- A line end comes next and, past blanks, a declaration. -/
def DeclarationAhead (t : Text) : Prop :=
  ∃ line blanks opening, (line = ['\n'] ∨ line = ['\r', '\n']) ∧
    (∀ c ∈ blanks, Text.isBlank c = true) ∧ Opening opening ∧ line ++ (blanks ++ opening) <+: t

theorem afterKeyword?_eq_some {keyword : String} {t rest : Text} :
    afterKeyword? keyword t = some rest ↔
      ∃ c more, t = keyword.toList ++ c :: more ∧ Text.isBlank c = true ∧
        rest = more.dropWhile Text.isBlank := by
  unfold afterKeyword?
  constructor
  · intro h
    split at h
    · next hstarts =>
        obtain ⟨behind, rfl⟩ := List.isPrefixOf_iff_prefix.1 hstarts
        rw [← String.length_toList, List.drop_left] at h
        split at h
        · cases h
        · next c more =>
            split at h
            · next hblank => exact ⟨c, more, rfl, hblank, (Option.some.inj h).symm⟩
            · cases h
    · cases h
  · rintro ⟨c, more, rfl, hblank, rfl⟩
    rw [if_pos (List.isPrefixOf_iff_prefix.2 (List.prefix_append _ _)), ← String.length_toList,
      List.drop_left]
    simp [hblank]

theorem dropWhile_blanks {blanks t : Text} (hblanks : ∀ c ∈ blanks, Text.isBlank c = true)
    (ht : ∃ c rest, t = c :: rest ∧ Text.isBlank c = false) :
    (blanks ++ t).dropWhile Text.isBlank = t := by
  obtain ⟨c, rest, rfl, hc⟩ := ht
  rw [List.dropWhile_append_of_pos hblanks, List.dropWhile_cons, hc]
  rfl

theorem Opening.not_blank {opening : Text} (h : Opening opening) (t : Text) :
    ∃ c rest, opening ++ t = c :: rest ∧ Text.isBlank c = false := by
  cases h with
  | word hword =>
      simp only [List.mem_cons, List.not_mem_nil, or_false] at hword
      rcases hword with rfl | rfl | rfl | rfl <;> exact ⟨_, _, rfl, by decide⟩
  | async => exact ⟨_, _, rfl, by decide⟩

theorem startsDeclaration_iff {t : Text} :
    startsDeclaration t = true ↔ ∃ opening, Opening opening ∧ opening <+: t := by
  simp only [startsDeclaration, Bool.or_eq_true, List.any_eq_true, Option.isSome_iff_exists]
  constructor
  · rintro (⟨word, hword, rest, hafter⟩ | hasync)
    · obtain ⟨c, more, rfl, hblank, -⟩ := afterKeyword?_eq_some.1 hafter
      exact ⟨_, .word hword (List.cons_ne_nil c []) (by simp [hblank]), more, by simp⟩
    · split at hasync
      · next rest hafter =>
          obtain ⟨c, more, rfl, hblank, rfl⟩ := afterKeyword?_eq_some.1 hafter
          obtain ⟨_, hbehind⟩ := Option.isSome_iff_exists.1 hasync
          obtain ⟨d, last, hlast, hblank', -⟩ := afterKeyword?_eq_some.1 hbehind
          refine ⟨_, .async (List.cons_ne_nil c (more.takeWhile Text.isBlank)) ?_
            (List.cons_ne_nil d []) (by simp [hblank']), last, ?_⟩
          · exact List.forall_mem_cons.2 ⟨hblank, fun x hx => List.mem_takeWhile_imp hx⟩
          · have hmore : more.takeWhile Text.isBlank ++ ("function".toList ++ d :: last) = more := by
              rw [← hlast, List.takeWhile_append_dropWhile]
            rw [List.append_assoc]
            exact congrArg (fun behind => "async".toList ++ c :: behind) (by simpa using hmore)
      · cases hasync
  · rintro ⟨opening, hopening, rest, rfl⟩
    cases hopening with
    | @word word gap hword hgap hblanks =>
        obtain ⟨c, gap, rfl⟩ := List.exists_cons_of_ne_nil hgap
        exact Or.inl ⟨word, hword, _, afterKeyword?_eq_some.2
          ⟨c, gap ++ rest, by simp, hblanks c List.mem_cons_self, rfl⟩⟩
    | @async first second hfirst hfirstBlanks hsecond hsecondBlanks =>
        obtain ⟨c, first, rfl⟩ := List.exists_cons_of_ne_nil hfirst
        obtain ⟨d, second, rfl⟩ := List.exists_cons_of_ne_nil hsecond
        have hbehind : (first ++ ("function".toList ++ d :: (second ++ rest))).dropWhile Text.isBlank =
            "function".toList ++ d :: (second ++ rest) :=
          dropWhile_blanks (fun x hx => hfirstBlanks x (List.mem_cons_of_mem _ hx))
            ⟨_, _, rfl, by decide⟩
        have hasync : afterKeyword? "async" ("async".toList ++ (c :: first ++
            ("function".toList ++ d :: second)) ++ rest) =
              some ("function".toList ++ d :: (second ++ rest)) :=
          afterKeyword?_eq_some.2 ⟨c, first ++ ("function".toList ++ d :: (second ++ rest)), by simp,
            hfirstBlanks c List.mem_cons_self, hbehind.symm⟩
        rw [hasync]
        exact Or.inr (Option.isSome_iff_exists.2 ⟨_, afterKeyword?_eq_some.2
          ⟨d, second ++ rest, rfl, hsecondBlanks d List.mem_cons_self, rfl⟩⟩)

theorem startsDeclaration_dropWhile_iff {t : Text} :
    startsDeclaration (t.dropWhile Text.isBlank) = true ↔
      ∃ blanks opening, (∀ c ∈ blanks, Text.isBlank c = true) ∧ Opening opening ∧
        blanks ++ opening <+: t := by
  rw [startsDeclaration_iff]
  constructor
  · rintro ⟨opening, hopening, hprefix⟩
    refine ⟨t.takeWhile Text.isBlank, opening, fun x hx => List.mem_takeWhile_imp hx, hopening, ?_⟩
    have happend := (List.prefix_append_right_inj (t.takeWhile Text.isBlank)).2 hprefix
    rwa [List.takeWhile_append_dropWhile] at happend
  · rintro ⟨blanks, opening, hblanks, hopening, rest, rfl⟩
    rw [List.append_assoc, dropWhile_blanks hblanks (hopening.not_blank rest)]
    exact ⟨opening, hopening, List.prefix_append _ _⟩

theorem declarationFollows_iff {t : Text} : declarationFollows t = true ↔ DeclarationAhead t := by
  have hline (line rest : Text) (h : line = ['\n'] ∨ line = ['\r', '\n']) :
      startsDeclaration (rest.dropWhile Text.isBlank) = true ↔ DeclarationAhead (line ++ rest) := by
    rw [startsDeclaration_dropWhile_iff]
    constructor
    · rintro ⟨blanks, opening, hblanks, hopening, hprefix⟩
      exact ⟨line, blanks, opening, h, hblanks, hopening, (List.prefix_append_right_inj line).2 hprefix⟩
    · rintro ⟨line', blanks, opening, h', hblanks, hopening, hprefix⟩
      refine ⟨blanks, opening, hblanks, hopening, ?_⟩
      rcases h with rfl | rfl <;> rcases h' with rfl | rfl
      · exact (List.prefix_append_right_inj _).1 hprefix
      · simp at hprefix
      · simp at hprefix
      · exact (List.prefix_append_right_inj _).1 hprefix
  unfold declarationFollows
  split
  · next rest => exact hline ['\r', '\n'] rest (Or.inr rfl)
  · next rest => exact hline ['\n'] rest (Or.inl rfl)
  · next hcr hlf =>
      simp only [Bool.false_eq_true, false_iff]
      rintro ⟨line, blanks, opening, rfl | rfl, -, -, rest, rfl⟩
      · exact hlf _ rfl
      · exact hcr _ rfl

theorem not_declarationAhead {p : Nat} (hp : text.length ≤ p) : ¬ DeclarationAhead (text.drop p) := by
  rintro ⟨line, blanks, opening, hline, -, -, hprefix⟩
  rw [List.drop_eq_nil_of_le hp, List.prefix_nil] at hprefix
  rcases hline with rfl | rfl <;> cases hprefix

def declarations (text : Text) (offset : Nat) : Set Nat :=
  {p | offset ≤ p ∧ DeclarationAhead (text.drop p)}

theorem declarations_succ {offset : Nat} (h : ¬ DeclarationAhead (text.drop offset)) :
    declarations text offset = declarations text (offset + 1) := by
  ext p
  constructor
  · rintro ⟨hle, hahead⟩
    have hne : p ≠ offset := by
      rintro rfl
      exact h hahead
    exact ⟨by omega, hahead⟩
  · rintro ⟨hle, hahead⟩
    exact ⟨by omega, hahead⟩

theorem nextDeclarationFrom_spec {offset : Nat} {rest : Text} (hrest : text.drop offset = rest) :
    (∀ found, nextDeclarationFrom offset rest = some found →
        IsLeast (declarations text offset) found) ∧
      (nextDeclarationFrom offset rest = none → declarations text offset = ∅) := by
  induction rest generalizing offset with
  | nil =>
      refine ⟨fun found hfound => (by cases hfound), fun _ => ?_⟩
      have hlength := List.drop_eq_nil_iff.1 hrest
      refine Set.eq_empty_iff_forall_notMem.2 fun p hp => ?_
      have hle : offset ≤ p := hp.1
      exact not_declarationAhead (hlength.trans hle) hp.2
  | cons c rest ih =>
      have hnext : text.drop (offset + 1) = rest := by
        rw [← List.drop_drop, hrest]
        rfl
      unfold nextDeclarationFrom
      split
      · next hfollows =>
          refine ⟨fun found hfound => ?_, fun hnone => (by cases hnone)⟩
          obtain rfl := Option.some.inj hfound
          exact ⟨⟨le_refl _, hrest ▸ declarationFollows_iff.1 hfollows⟩, fun p hp => hp.1⟩
      · next hnot =>
          rw [declarations_succ (hrest ▸ mt declarationFollows_iff.2 hnot)]
          exact ih hnext

theorem nextDeclaration_lt {offset found : Nat} (h : nextDeclaration text offset = some found) :
    found < text.length := by
  by_contra hlength
  exact not_declarationAhead (Nat.not_lt.1 hlength) ((nextDeclarationFrom_spec rfl).1 found h).1.2

end Repair

theorem Text.lineStart_le (text : Text) (offset : Nat) : text.lineStart offset ≤ offset := by
  unfold Text.lineStart
  split
  · next newline hfound =>
      have htext := congrArg List.length (Text.findLast?_singleton_eq_some hfound).1
      simp only [List.length_append, List.length_cons, List.length_take, List.length_drop] at htext
      omega
  · exact Nat.zero_le _

/-! ## The contract -/

namespace Repair

variable {text : Text} {start stop : Nat} {check : Option Check}

/-- What a repair of a span promises: the span, less nothing, is good, or its end is a guess that nothing
better was found for. -/
structure Fulfils (text : Text) (check : Option Check) (start stop : Nat) (repair : Repair) : Prop where
  start_le : repair.start ≤ start
  le_stop : stop ≤ repair.stop
  stop_le : repair.stop ≤ text.length
  good : repair.degraded = false → accepted text check repair.start repair.stop = true
  rejected : repair.degraded = true → accepted text check start stop = false
  hopeless : repair.degraded = true → ∀ x, stop ≤ x → x ≤ text.length →
    isBalanced text repair.start x = false
  snap : repair.method = .snap → IsLeast (declarations text stop) repair.stop
  eof : repair.method = .eof → repair.stop = text.length ∧ declarations text stop = ∅

theorem guess_fulfils {origin : Nat} (hstart : start ≤ origin) (hstop : stop ≤ text.length)
    (hrejected : accepted text check origin stop = false)
    (hhopeless : ∀ x, stop ≤ x → x ≤ text.length → isBalanced text start x = false) :
    Fulfils text check origin stop (guess text start stop) := by
  unfold guess
  split
  · next line hline =>
      have hleast : IsLeast (declarations text stop) line := (nextDeclarationFrom_spec rfl).1 line hline
      exact {
        start_le := hstart
        le_stop := hleast.1.1
        stop_le := (nextDeclaration_lt hline).le
        good := fun hdegraded => by cases hdegraded
        rejected := fun _ => hrejected
        hopeless := fun _ => hhopeless
        snap := fun _ => hleast
        eof := fun hmethod => by cases hmethod }
  · next hnone =>
      exact {
        start_le := hstart
        le_stop := hstop
        stop_le := le_refl _
        good := fun hdegraded => by cases hdegraded
        rejected := fun _ => hrejected
        hopeless := fun _ => hhopeless
        snap := fun hmethod => by cases hmethod
        eof := fun _ => ⟨rfl, (nextDeclarationFrom_spec rfl).2 hnone⟩ }

/-- A span whose end is good keeps every promise, whatever the method. -/
theorem fulfils_of_accepted {origin good : Nat} {method : Method}
    (hmethod : method ≠ .snap ∧ method ≠ .eof) (hstart : start ≤ origin) (hgood : stop ≤ good)
    (hlimit : good ≤ text.length) (haccepted : accepted text check start good = true) :
    Fulfils text check origin stop { start, stop := good, method } := by
  have hsure : degraded { start, stop := good, method } = false := by
    simp [degraded, hmethod]
  exact {
    start_le := hstart
    le_stop := hgood
    stop_le := hlimit
    good := fun _ => haccepted
    rejected := fun hdegraded => by simp [hsure] at hdegraded
    hopeless := fun hdegraded => by simp [hsure] at hdegraded
    snap := fun hsnap => absurd hsnap hmethod.1
    eof := fun heof => absurd heof hmethod.2 }

theorem extend_fulfils {origin : Nat} {method : Method} (hmethod : method ≠ .snap ∧ method ≠ .eof)
    (hstart : start ≤ origin) (hstop : stop ≤ text.length)
    (hrejected : accepted text check origin stop = false) :
    Fulfils text check origin stop (extend text check start stop method) := by
  unfold extend
  split
  · next good hgood =>
      obtain ⟨hle, hlimit, haccepted⟩ := firstGoodEnd_eq_some hgood
      exact fulfils_of_accepted hmethod hstart hle hlimit haccepted
  · next hnone =>
      exact guess_fulfils hstart hstop hrejected fun x hx hlimit => firstGoodEnd_eq_none hnone hx hlimit

end Repair

open Repair

theorem repairSpan_fulfils (text : Text) {start stop : Nat} (hspan : start ≤ stop)
    (hstop : stop ≤ text.length) (check : Option Check) :
    Fulfils text check start stop (repairSpan text start stop check) := by
  have hclamped : min (max start stop) text.length = stop := by omega
  unfold repairSpan
  simp only [hclamped]
  split
  · next haccepted =>
      exact fulfils_of_accepted (by decide) (le_refl _) (le_refl _) hstop haccepted
  · next hrejected =>
      have hrejected := Bool.eq_false_of_not_eq_true hrejected
      split
      · exact extend_fulfils (by decide) (le_refl _) hstop hrejected
      · have hstart := (text.lineStart_le _).trans (pullBackStart_le text start stop)
        split
        · next haccepted =>
            exact fulfils_of_accepted (by decide) hstart (le_refl _) hstop haccepted
        · exact extend_fulfils (by decide) hstart hstop hrejected

/-- Repair keeps its promises, and a mended span is a span that needs no mending. -/
theorem repairSpan_contract (text : Text) {start stop : Nat} (hspan : start ≤ stop)
    (hstop : stop ≤ text.length) (check : Option Check) :
    let repair := repairSpan text start stop check
    Fulfils text check start stop repair ∧
      (repair.degraded = false →
        repairSpan text repair.start repair.stop check = { repair with method := .ok }) := by
  intro repair
  have hfulfils : Fulfils text check start stop repair := repairSpan_fulfils text hspan hstop check
  refine ⟨hfulfils, fun hsure => ?_⟩
  have hclamped : min (max repair.start repair.stop) text.length = repair.stop := by
    have hstart := hfulfils.start_le
    have hle := hfulfils.le_stop
    have hlimit := hfulfils.stop_le
    omega
  unfold repairSpan
  simp only [hclamped]
  rw [if_pos (hfulfils.good hsure)]

/-- An object that is never closed, before a function. -/
def neverClosed : Text :=
  "var a = \x7b\r\n async  function b() \x7b\x7d".toList

/-- A block of which only the inside was stored. -/
def halfStored : Text :=
  "if (x) \x7b\n  y();\n\x7d\n".toList

theorem repairSpan_contract_guessed_mended :
    (0 ≤ 9 ∧ 9 ≤ neverClosed.length ∧
      repairSpan neverClosed 0 9 none = { start := 0, stop := 9, method := .snap } ∧
      IsLeast (declarations neverClosed 9) 9 ∧
      ∀ x, 9 ≤ x → x ≤ neverClosed.length → isBalanced neverClosed 0 x = false) ∧
    (9 ≤ 17 ∧ 17 ≤ halfStored.length ∧
      repairSpan halfStored 9 17 none = { start := 0, stop := 17, method := .backward } ∧
      repairSpan halfStored 0 17 none = { start := 0, stop := 17, method := .ok }) := by
  have hopen : repairSpan neverClosed 0 9 none = { start := 0, stop := 9, method := .snap } := by
    decide +kernel
  have hhalf : repairSpan halfStored 9 17 none = { start := 0, stop := 17, method := .backward } := by
    decide +kernel
  have hguessed := (repairSpan_contract neverClosed (by decide : 0 ≤ 9) (by decide) none).1
  have hmended := (repairSpan_contract halfStored (by decide : 9 ≤ 17) (by decide) none).2
  rw [hopen] at hguessed
  rw [hhalf] at hmended
  exact ⟨⟨by decide, by decide, hopen, hguessed.snap rfl, hguessed.hopeless rfl⟩,
    ⟨by decide, by decide, hhalf, hmended rfl⟩⟩

end ScriptSplit
