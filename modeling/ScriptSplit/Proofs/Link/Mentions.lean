import Mathlib.Algebra.Group.Nat.Even
import Mathlib.Data.List.TakeWhile
import Mathlib.Order.Bounds.Defs
import ScriptSplit.Link.Reference
import ScriptSplit.Proofs.Path.Names
import ScriptSplit.Proofs.Text.Identifiers

/-!
# Where a text mentions a name

A text mentions a name where the name stands as a whole word and not inside quotes that opened on the same line.
Across a line feed, mentions on one side do not depend on the other.

The search for the first reference looks at occurrences from left to right and never at two that overlap. It still
finds the least of all places with a mention: as whole words, two occurrences of one name do not overlap, so that one
that is passed over hides no other.
-/

namespace ScriptSplit

namespace Text

variable {text name before after a b : Text}

/-! ## The line that a text ends on -/

def lastLine (text : Text) : Text :=
  (text.reverse.takeWhile (· != '\n')).reverse

theorem lastLine_of_not_mem (h : '\n' ∉ text) : lastLine text = text := by
  have hall : ∀ c ∈ text.reverse, (c != '\n') = true := by
    intro c hc
    simp only [bne_iff_ne]
    rintro rfl
    exact h (List.mem_reverse.1 hc)
  rw [lastLine, List.takeWhile_eq_self_iff.2 hall, List.reverse_reverse]

theorem lastLine_append (ha : a.getLast? = some '\n') (b : Text) : lastLine (a ++ b) = lastLine b := by
  obtain ⟨front, rfl⟩ := List.getLast?_eq_some_iff.1 ha
  unfold lastLine
  rw [List.reverse_append, List.takeWhile_append]
  split
  · next hall =>
      have hwhole : b.reverse.takeWhile (· != '\n') = b.reverse :=
        (List.takeWhile_prefix _).eq_of_length hall
      simp [hwhole]
  · rfl

theorem mem_of_mem_lastLine {c : Char} (hc : c ∈ lastLine text) : c ∈ text :=
  List.mem_reverse.1 ((List.takeWhile_prefix _).subset (List.mem_reverse.1 hc))

theorem slice_lineStart (text : Text) (offset : Nat) :
    text.slice (text.lineStart offset) offset = lastLine (text.take offset) := by
  unfold slice lineStart
  generalize text.take offset = front
  cases hfind : findLast? front ['\n'] with
  | none => rw [lastLine_of_not_mem (not_mem_of_findLast?_singleton hfind), List.drop_zero]
  | some n =>
      obtain ⟨hfront, habsent⟩ := findLast?_singleton_eq_some hfind
      have hsplit : front = (front.take n ++ ['\n']) ++ front.drop (n + 1) := by
        rw [List.append_assoc]
        exact hfront
      conv_rhs => rw [hsplit]
      rw [lastLine_append (by simp), lastLine_of_not_mem habsent]

/-! ## Whole words -/

/-- Whether a text is a name as a whole word with something before and after it. -/
structure Word (before name after text : Text) : Prop where
  eq : text = before ++ (name ++ after)
  left : before.getLast?.any isNamePart = false
  right : after.head?.any isNamePart = false

namespace Word

/-- In a text that is nothing but characters of names, it is the only word. -/
theorem eq_of_forall (htext : ∀ c ∈ text, isNamePart c = true) (h : Word before name after text) :
    name = text := by
  obtain ⟨rfl, hleft, hright⟩ := h
  have hbefore : before = [] := by
    rcases List.eq_nil_or_concat before with rfl | ⟨front, d, rfl⟩
    · rfl
    · rw [List.concat_eq_append] at hleft htext
      have hd := htext d (by simp)
      simp [hd] at hleft
  have hafter : after = [] := by
    cases after with
    | nil => rfl
    | cons c after =>
        have hc := htext c (by simp)
        simp [hc] at hright
  simp [hbefore, hafter]

variable (hname : isName name = true)

include hname

/-- A whole word does not reach across a seam: one of the characters that meet there is in no name. -/
theorem of_append (hseam : a.getLast?.any isNamePart = false ∨ b.head?.any isNamePart = false)
    (h : Word before name after (a ++ b)) :
    (∃ rest, after = rest ++ b ∧ Word before name rest a) ∨
      ∃ rest, before = a ++ rest ∧ Word rest name after b := by
  obtain ⟨heq, hleft, hright⟩ := h
  rcases List.append_eq_append_iff.1 heq with ⟨rest, rfl, hb⟩ | ⟨rest, rfl, hrest⟩
  · refine Or.inr ⟨rest, rfl, hb, ?_, hright⟩
    cases hlast : rest.getLast? with
    | none => rfl
    | some c =>
        rw [List.getLast?_append, hlast] at hleft
        exact hleft
  rcases List.append_eq_append_iff.1 hrest with ⟨more, rfl, rfl⟩ | ⟨more, rfl, rfl⟩
  · refine Or.inl ⟨more, rfl, rfl, hleft, ?_⟩
    cases more with
    | nil => rfl
    | cons c more => exact hright
  · -- the name would have a character on each side of the seam
    have hparts := isNamePart_of_isName hname
    cases more with
    | nil =>
        refine Or.inl ⟨[], rfl, by simp, hleft, rfl⟩
    | cons c more =>
        rcases List.eq_nil_or_concat rest with rfl | ⟨front, d, rfl⟩
        · refine Or.inr ⟨[], by simp, rfl, rfl, hright⟩
        · rw [List.concat_eq_append] at hseam hparts
          have hd := hparts d (by simp)
          have hc := hparts c (by simp)
          rcases hseam with hseam | hseam
          · rw [← List.append_assoc, List.getLast?_append] at hseam
            simp [hd] at hseam
          · simp [hc] at hseam

theorem append_right (hseam : a.getLast?.any isNamePart = false ∨ b.head?.any isNamePart = false)
    (h : Word before name after a) : Word before name (after ++ b) (a ++ b) := by
  obtain ⟨rfl, hleft, hright⟩ := h
  refine ⟨by simp, hleft, ?_⟩
  cases after with
  | cons c after => exact hright
  | nil =>
      refine hseam.resolve_left fun hlast => ?_
      obtain ⟨front, d, hd⟩ := List.eq_nil_or_concat name |>.resolve_left (ne_nil_of_isName hname)
      have hpart := isNamePart_of_isName hname d (by simp [hd])
      rw [hd, List.append_nil, List.concat_eq_append, ← List.append_assoc, List.getLast?_append]
        at hlast
      simp [hpart] at hlast

theorem append_left (hseam : a.getLast?.any isNamePart = false ∨ b.head?.any isNamePart = false)
    (h : Word before name after b) : Word (a ++ before) name after (a ++ b) := by
  obtain ⟨rfl, hleft, hright⟩ := h
  refine ⟨by simp, ?_, hright⟩
  rcases List.eq_nil_or_concat before with rfl | ⟨front, d, rfl⟩
  · rw [List.append_nil]
    refine hseam.resolve_right fun hhead => ?_
    obtain ⟨c, rest, hc⟩ := List.exists_cons_of_ne_nil (ne_nil_of_isName hname)
    have hpart := isNamePart_of_isName hname c (by simp [hc])
    rw [hc] at hhead
    simp [hpart] at hhead
  · rw [List.concat_eq_append] at hleft ⊢
    rw [← List.append_assoc, List.getLast?_append]
    rw [List.getLast?_append] at hleft
    exact hleft

theorem not_of_forall (htext : ∀ c ∈ text, isNamePart c = false) :
    ¬ Word before name after text := by
  rintro ⟨rfl, -, -⟩
  obtain ⟨c, rest, hc⟩ := List.exists_cons_of_ne_nil (ne_nil_of_isName hname)
  have hpart := isNamePart_of_isName hname c (by simp [hc])
  rw [htext c (by simp [hc])] at hpart
  cases hpart

end Word

end Text

/-! ## Mentions -/

open Text (Word lastLine isName isNamePart)

variable {text name before after a b : Text}

def Mentions (text name : Text) : Prop :=
  ∃ before after, Word before name after text ∧ Reference.insideQuotes (lastLine before) = false

namespace Reference

def quotes : List Char := ['"', '\'', '\x60']

/-- Outside quotes, there are as many of each kind as make pairs. -/
theorem insideQuotes_eq_false_iff :
    insideQuotes text = false ↔ ∀ quote ∈ quotes, Even (text.count quote) := by
  unfold insideQuotes quotes
  simp only [List.any_eq_false, beq_iff_eq, Nat.mod_two_not_eq_one, Nat.even_iff]

theorem occursAt_iff {previous : Option Char} :
    occursAt name previous text = true ↔
      previous.any isNamePart = false ∧ ∃ after, text = name ++ after ∧
        after.head?.any isNamePart = false := by
  unfold occursAt
  rw [Bool.and_eq_true, Bool.and_eq_true, Bool.not_eq_true', Bool.not_eq_true',
    List.isPrefixOf_iff_prefix]
  constructor
  · rintro ⟨⟨hprevious, after, rfl⟩, hafter⟩
    rw [List.drop_left] at hafter
    exact ⟨hprevious, after, rfl, hafter⟩
  · rintro ⟨hprevious, after, rfl, hafter⟩
    refine ⟨⟨hprevious, List.prefix_append ..⟩, ?_⟩
    rw [List.drop_left]
    exact hafter

/-- A name occurs wherever it stands as a whole word: words of one name do not overlap. -/
theorem mem_occurrencesFrom (hne : name ≠ []) (hparts : ∀ c ∈ name, isNamePart c = true)
    {offset place skip : Nat} {previous : Option Char} :
    place ∈ occurrencesFrom name offset previous skip text ↔
      ∃ front back, text = front ++ back ∧ place = offset + front.length ∧ skip ≤ front.length ∧
        occursAt name (front.getLast?.or previous) back = true := by
  have hnone : ∀ previous, occursAt name previous [] = false := by
    intro previous
    rw [Bool.eq_false_iff]
    intro htrue
    obtain ⟨-, after, heq, -⟩ := occursAt_iff.1 htrue
    exact hne (List.append_eq_nil_iff.1 heq.symm).1
  induction text generalizing offset previous skip with
  | nil =>
      simp only [occurrencesFrom, hnone, Bool.and_false, Bool.false_eq_true, if_false,
        List.not_mem_nil, false_iff]
      rintro ⟨front, back, heq, -, -, hoccurs⟩
      obtain ⟨rfl, rfl⟩ := List.append_eq_nil_iff.1 heq.symm
      rw [hnone] at hoccurs
      cases hoccurs
  | cons c rest ih =>
      have hlater : ∀ front : Text, ((c :: front).getLast?).or previous =
          front.getLast?.or (some c) := by
        intro front
        rw [List.getLast?_cons]
        cases front.getLast? <;> rfl
      -- a place is the first one or behind it
      have hplaces : (∃ front back, c :: rest = front ++ back ∧ place = offset + front.length ∧
          skip ≤ front.length ∧ occursAt name (front.getLast?.or previous) back = true) ↔
            (place = offset ∧ skip = 0 ∧ occursAt name previous (c :: rest) = true) ∨
              ∃ front back, rest = front ++ back ∧ place = offset + 1 + front.length ∧
                skip ≤ front.length + 1 ∧ occursAt name (front.getLast?.or (some c)) back = true := by
        constructor
        · rintro ⟨front, back, heq, rfl, hskip, hoccurs⟩
          rcases List.cons_eq_append_iff.1 heq with ⟨rfl, rfl⟩ | ⟨front, rfl, rfl⟩
          · exact Or.inl ⟨rfl, by simpa using hskip, hoccurs⟩
          · rw [hlater] at hoccurs
            exact Or.inr ⟨front, back, rfl, by simp; omega, hskip, hoccurs⟩
        · rintro (⟨rfl, rfl, hoccurs⟩ | ⟨front, back, rfl, rfl, hskip, hoccurs⟩)
          · exact ⟨[], c :: rest, rfl, rfl, Nat.le_refl _, hoccurs⟩
          · rw [← hlater] at hoccurs
            exact ⟨c :: front, back, rfl, by simp; omega, hskip, hoccurs⟩
      rw [hplaces]
      unfold occurrencesFrom
      split
      · next hskip =>
          refine ih.trans ⟨?_, ?_⟩
          · rintro ⟨front, back, hrest, hplace, hleast, hoccurs⟩
            exact Or.inr ⟨front, back, hrest, hplace, by omega, hoccurs⟩
          · rintro (⟨-, hzero, -⟩ | ⟨front, back, hrest, hplace, hleast, hoccurs⟩)
            · omega
            · exact ⟨front, back, hrest, hplace, by omega, hoccurs⟩
      next hskip =>
      obtain rfl : skip = 0 := by omega
      split
      · next hhere =>
          refine List.mem_cons.trans (or_congr ⟨fun h => ⟨h, rfl, hhere⟩, fun h => h.1⟩ (ih.trans ⟨?_, ?_⟩))
          · rintro ⟨front, back, hrest, hplace, -, hoccurs⟩
            exact ⟨front, back, hrest, hplace, Nat.zero_le _, hoccurs⟩
          · rintro ⟨front, back, rfl, hplace, -, hoccurs⟩
            refine ⟨front, back, rfl, hplace, ?_, hoccurs⟩
            -- the word at the first place would go on before the second
            by_contra hshort
            obtain ⟨-, after, hname', -⟩ := occursAt_iff.1 hhere
            have hfront : c :: front <+: name :=
              List.prefix_of_prefix_length_le (⟨back, rfl⟩ : c :: front <+: c :: (front ++ back))
                ⟨after, hname'.symm⟩ (by simp; omega)
            have hlast := hparts _
              (hfront.subset (List.getLast_mem (List.cons_ne_nil c front)))
            have hleft := (occursAt_iff.1 hoccurs).1
            rw [← hlater, List.getLast?_eq_some_getLast (List.cons_ne_nil c front)] at hleft
            simp [hlast] at hleft
      · next hnot =>
          refine ih.trans ⟨?_, ?_⟩
          · rintro ⟨front, back, hrest, hplace, -, hoccurs⟩
            exact Or.inr ⟨front, back, hrest, hplace, Nat.zero_le _, hoccurs⟩
          · rintro (⟨-, -, hhere⟩ | ⟨front, back, hrest, hplace, -, hoccurs⟩)
            · exact absurd hhere hnot
            · exact ⟨front, back, hrest, hplace, Nat.zero_le _, hoccurs⟩

theorem mem_occurrences (hne : name ≠ []) (hparts : ∀ c ∈ name, isNamePart c = true) {place : Nat} :
    place ∈ occurrencesFrom name 0 none 0 text ↔
      ∃ before after, Word before name after text ∧ before.length = place := by
  rw [mem_occurrencesFrom hne hparts]
  constructor
  · rintro ⟨front, back, rfl, rfl, -, hoccurs⟩
    obtain ⟨hleft, after, rfl, hright⟩ := occursAt_iff.1 hoccurs
    exact ⟨front, after, ⟨rfl, by simpa using hleft, hright⟩, by simp⟩
  · rintro ⟨before, after, ⟨rfl, hleft, hright⟩, rfl⟩
    exact ⟨before, name ++ after, rfl, by simp, Nat.zero_le _,
      occursAt_iff.2 ⟨by simpa using hleft, after, rfl, hright⟩⟩

end Reference

theorem firstReference?_isSome_iff (hname : isName name = true) :
    (firstReference? text name).isSome = true ↔ Mentions text name := by
  have hplaces : ∀ place, place ∈ Reference.occurrencesFrom name 0 none 0 text ↔ _ := fun place =>
    Reference.mem_occurrences (Text.ne_nil_of_isName hname) (Text.isNamePart_of_isName hname)
  unfold firstReference?
  rw [List.find?_isSome]
  constructor
  · rintro ⟨place, hplace, hquotes⟩
    obtain ⟨before, after, hword, rfl⟩ := (hplaces place).1 hplace
    rw [Text.slice_lineStart, hword.eq, List.take_left] at hquotes
    exact ⟨before, after, hword, by simpa using hquotes⟩
  · rintro ⟨before, after, hword, hquotes⟩
    refine ⟨before.length, (hplaces _).2 ⟨before, after, hword, rfl⟩, ?_⟩
    rw [Text.slice_lineStart, hword.eq, List.take_left, hquotes]
    rfl

section

variable (hname : isName name = true)

include hname

/-- Across a line feed, what each side mentions is mentioned by both together and nothing else is. -/
theorem mentions_append (ha : a.getLast? = some '\n') :
    Mentions (a ++ b) name ↔ Mentions a name ∨ Mentions b name := by
  have hseam : a.getLast?.any isNamePart = false ∨ b.head?.any isNamePart = false := by
    left
    rw [ha]
    decide
  constructor
  · rintro ⟨before, after, hword, hquotes⟩
    rcases hword.of_append hname hseam with ⟨rest, rfl, hinside⟩ | ⟨rest, rfl, hinside⟩
    · exact Or.inl ⟨before, rest, hinside, hquotes⟩
    · rw [Text.lastLine_append ha] at hquotes
      exact Or.inr ⟨rest, after, hinside, hquotes⟩
  · rintro (⟨before, after, hword, hquotes⟩ | ⟨before, after, hword, hquotes⟩)
    · exact ⟨before, after ++ b, hword.append_right hname hseam, hquotes⟩
    · refine ⟨a ++ before, after, hword.append_left hname hseam, ?_⟩
      rw [Text.lastLine_append ha]
      exact hquotes

theorem mentions_append_of_forall (hb : ∀ c ∈ b, isNamePart c = false) :
    Mentions (a ++ b) name ↔ Mentions a name := by
  have hseam : a.getLast?.any isNamePart = false ∨ b.head?.any isNamePart = false := by
    right
    cases b with
    | nil => rfl
    | cons c b => exact hb c List.mem_cons_self
  constructor
  · rintro ⟨before, after, hword, hquotes⟩
    rcases hword.of_append hname hseam with ⟨rest, rfl, hinside⟩ | ⟨rest, rfl, hinside⟩
    · exact ⟨before, rest, hinside, hquotes⟩
    · exact absurd hinside (Word.not_of_forall hname hb)
  · rintro ⟨before, after, hword, hquotes⟩
    exact ⟨before, after ++ b, hword.append_right hname hseam, hquotes⟩

theorem mentions_flatten {lines : List Text}
    (hlines : lines.Pairwise fun line _ => line.getLast? = some '\n') :
    Mentions lines.flatten name ↔ ∃ line ∈ lines, Mentions line name := by
  induction lines with
  | nil =>
      simp only [List.flatten_nil, List.not_mem_nil, false_and, exists_false, iff_false]
      rintro ⟨before, after, hword, -⟩
      exact Word.not_of_forall hname (by simp) hword
  | cons line lines ih =>
      obtain ⟨hline, hlines⟩ := List.pairwise_cons.1 hlines
      cases lines with
      | nil => simp
      | cons next lines =>
          rw [List.flatten_cons, mentions_append hname (hline next List.mem_cons_self), ih hlines]
          simp

end

/-! ## The first reference -/

/-- Whether a text refers to a name at a place. -/
structure ReferenceAt (text name : Text) (place : Nat) : Prop where
  word : Word (text.take place) name (text.drop (place + name.length)) text
  paired : ∀ quote ∈ Reference.quotes, Even ((lastLine (text.take place)).count quote)

theorem referenceAt_iff (hne : name ≠ []) {place : Nat} : ReferenceAt text name place ↔
    ∃ before after, Word before name after text ∧ before.length = place ∧
      Reference.insideQuotes (lastLine before) = false := by
  constructor
  · rintro ⟨hword, hpaired⟩
    refine ⟨_, _, hword, ?_, Reference.insideQuotes_eq_false_iff.2 hpaired⟩
    -- behind the end of the text there is no room for the name
    have hlength := congrArg List.length hword.eq
    have hpos := List.length_pos_iff.2 hne
    simp only [List.length_append, List.length_take, List.length_drop] at hlength ⊢
    omega
  · rintro ⟨before, after, ⟨rfl, hleft, hright⟩, rfl, hquotes⟩
    have hafter : (before ++ (name ++ after)).drop (before.length + name.length) = after := by
      rw [← List.append_assoc, ← List.length_append, List.drop_left]
    refine ⟨?_, ?_⟩
    · rw [hafter, List.take_left]
      exact ⟨rfl, hleft, hright⟩
    · rw [List.take_left]
      exact Reference.insideQuotes_eq_false_iff.1 hquotes

namespace Reference

theorem occurrencesFrom_pairwise (hne : name ≠ []) (hparts : ∀ c ∈ name, isNamePart c = true)
    (offset : Nat) (previous : Option Char) (skip : Nat) :
    (occurrencesFrom name offset previous skip text).Pairwise (· < ·) := by
  fun_induction occurrencesFrom name offset previous skip text with
  | case1 => exact List.pairwise_singleton ..
  | case2 => exact List.Pairwise.nil
  | case3 offset previous skip c rest hskip ih => exact ih
  | case4 offset previous skip c rest hskip hhere ih =>
      refine List.pairwise_cons.2 ⟨fun place hplace => ?_, ih⟩
      obtain ⟨front, -, -, rfl, -⟩ := (mem_occurrencesFrom hne hparts).1 hplace
      omega
  | case5 offset previous skip c rest hskip hnot ih => exact ih

end Reference

theorem find?_eq_some_iff_isLeast {p : Nat → Bool} {list : List Nat} (hlist : list.Pairwise (· < ·))
    {n : Nat} : list.find? p = some n ↔ IsLeast {m | m ∈ list ∧ p m = true} n := by
  rw [List.find?_eq_some_iff_append]
  constructor
  · rintro ⟨hn, front, back, rfl, hfront⟩
    refine ⟨⟨by simp, hn⟩, ?_⟩
    rintro m ⟨hmem, hm⟩
    rcases List.mem_append.1 hmem with hearlier | hlater
    · simpa [hm] using hfront m hearlier
    · rcases List.mem_cons.1 hlater with rfl | hlater
      · exact Nat.le_refl m
      · exact ((List.pairwise_cons.1 (List.pairwise_append.1 hlist).2.1).1 m hlater).le
  · rintro ⟨⟨hmem, hn⟩, hleast⟩
    obtain ⟨front, back, rfl⟩ := List.append_of_mem hmem
    refine ⟨hn, front, back, rfl, fun m hm => ?_⟩
    have hlt := (List.pairwise_append.1 hlist).2.2 m hm n List.mem_cons_self
    have hnot : p m ≠ true := fun htrue =>
      absurd (hleast ⟨List.mem_append_left _ hm, htrue⟩) (Nat.not_le.2 hlt)
    simpa using hnot

/-- The first reference is the least place at which the text refers to the name, and there is none exactly if
there is no such place: nothing that stands before a reference hides it. -/
theorem firstReference?_isLeast (hne : name ≠ []) (hparts : ∀ c ∈ name, isNamePart c = true) (text : Text) :
    (∀ place, firstReference? text name = some place ↔
        IsLeast {place | ReferenceAt text name place} place) ∧
      (firstReference? text name = none ↔ ∀ place, ¬ ReferenceAt text name place) ∧
      ∀ place, ReferenceAt text name place → ∃ first ≤ place, firstReference? text name = some first := by
  have hfound : ∀ place, ReferenceAt text name place ↔
      place ∈ Reference.occurrencesFrom name 0 none 0 text ∧
        (!Reference.insideQuotes (text.slice (text.lineStart place) place)) = true := by
    intro place
    rw [referenceAt_iff hne, Reference.mem_occurrences hne hparts, Bool.not_eq_true']
    constructor
    · rintro ⟨before, after, hword, rfl, hquotes⟩
      rw [Text.slice_lineStart, hword.eq, List.take_left]
      exact ⟨⟨before, after, ⟨rfl, hword.left, hword.right⟩, rfl⟩, hquotes⟩
    · rintro ⟨⟨before, after, hword, rfl⟩, hquotes⟩
      rw [Text.slice_lineStart, hword.eq, List.take_left] at hquotes
      exact ⟨before, after, hword, rfl, hquotes⟩
  have hsome : ∀ place, firstReference? text name = some place ↔
      IsLeast {place | ReferenceAt text name place} place := by
    intro place
    simp only [hfound]
    exact find?_eq_some_iff_isLeast (Reference.occurrencesFrom_pairwise hne hparts 0 none 0)
  have hnone : firstReference? text name = none ↔ ∀ place, ¬ ReferenceAt text name place := by
    simp only [hfound, firstReference?, List.find?_eq_none, not_and]
  refine ⟨hsome, hnone, fun place hplace => ?_⟩
  cases hfirst : firstReference? text name with
  | none => exact absurd hplace (hnone.1 hfirst place)
  | some first => exact ⟨first, ((hsome first).1 hfirst).2 hplace, rfl⟩

/-- An occurrence inside quotes and one inside a longer word hide no later one. -/
theorem firstReference?_isLeast_behind :
    let text : Text := "const s = 'a';\nconst ab = 1;\na();\n".toList
    ['a'] ≠ [] ∧ (∀ c ∈ ['a'], isNamePart c = true) ∧
      IsLeast {place | ReferenceAt text ['a'] place} 29 := by
  intro text
  have hparts : ∀ c ∈ ['a'], isNamePart c = true := List.forall_mem_singleton.2 (by decide)
  exact ⟨by decide, hparts,
    ((firstReference?_isLeast (by decide) hparts text).1 29).1 (by decide +kernel)⟩

end ScriptSplit
