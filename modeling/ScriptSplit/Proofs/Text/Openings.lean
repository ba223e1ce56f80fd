import ScriptSplit.Proofs.Text.Identifiers
import ScriptSplit.Proofs.Text.Lines

/-!
# Words at the head of lines

Whether a word opens a line of a text is decided line by line: it opens none of two texts with a line feed between
them if and only if it opens no line of either. What stands behind a line feed opens a line, so nothing that
stands there, indentation aside, is such a word.
-/

namespace ScriptSplit.Text

variable {word : String} {text row after : Text}

/-- Whether a word stands at the head of no line of a text, blanks aside. -/
def OpensNoLine (word : String) (text : Text) : Prop :=
  ∀ line ∈ text.lines, ¬ word.toList <+: line.stripLeft

instance (word : String) (text : Text) : Decidable (OpensNoLine word text) := by
  unfold OpensNoLine
  infer_instance

/-! ## Lines on both sides of a line feed -/

theorem cutLine_feed (text after : Text) :
    cutLine (text ++ '\n' :: after) = ((cutLine text).1, (cutLine text).2 ++ '\n' :: after) ∨
      (cutLine text).2 = [] ∧
        cutLine (text ++ '\n' :: after) = ((cutLine text).1 ++ ['\n'], after) := by
  fun_induction cutLine text with
  | case1 => exact Or.inr ⟨rfl, rfl⟩
  | case2 rest => exact Or.inl rfl
  | case3 c rest hfeed hc =>
      by_cases hreturn : c = '\r' ∧ rest = []
      · obtain ⟨rfl, rfl⟩ := hreturn
        exact Or.inr ⟨rfl, rfl⟩
      · left
        rw [List.cons_append, cutLine.eq_def]
        split
        · next heq => cases heq
        · next heq =>
            obtain ⟨rfl, hrest⟩ := List.cons.inj heq
            cases rest with
            | nil => exact absurd ⟨rfl, rfl⟩ hreturn
            | cons d rest =>
                obtain ⟨rfl, -⟩ := List.cons.inj hrest
                exact absurd rfl (hfeed rest rfl)
        · next heq =>
            obtain ⟨rfl, rfl⟩ := List.cons.inj heq
            rw [if_pos hc]
  | case4 c rest _ hc line left hrest ih =>
      rw [hrest] at ih
      rw [List.cons_append, cutLine_cons (by simpa using hc)]
      rcases ih with hcut | ⟨hleft, hcut⟩
      · rw [hcut]
        exact Or.inl rfl
      · rw [hcut]
        exact Or.inr ⟨hleft, rfl⟩

theorem cutLine_unbroken (hrow : Unbroken row) (rest : Text) :
    cutLine (row ++ rest) = (row ++ (cutLine rest).1, (cutLine rest).2) := by
  induction row with
  | nil => rfl
  | cons c row ih =>
      obtain ⟨hc, hrow⟩ := List.forall_mem_cons.1 hrow
      rw [List.cons_append, cutLine_cons hc, ih hrow]
      rfl

/-! ## Words at the head of a line -/

theorem opensNoLine_of_head (htext : Unbroken text) (hhead : ¬ word.toList <+: stripLeft text) :
    OpensNoLine word text := by
  intro line hline
  cases text with
  | nil =>
      rw [lines] at hline
      cases hline
  | cons c rest =>
      have hcut := cutLine_unbroken htext []
      rw [List.append_nil] at hcut
      rw [lines_cons, hcut] at hline
      simp only [cutLine, lines, List.append_nil, List.mem_singleton] at hline
      rw [hline]
      exact hhead

section Word

variable (hword : isName word.toList = true)

include hword

theorem prefix_append_feed {front : Text} (rest : Text) :
    word.toList <+: front ++ '\n' :: rest ↔ word.toList <+: front := by
  refine ⟨fun h => ?_, fun h => h.trans (List.prefix_append _ _)⟩
  rcases List.prefix_or_prefix_of_prefix h (List.prefix_append front _) with hfront | ⟨more, hmore⟩
  · exact hfront
  · rw [← hmore, List.prefix_append_right_inj] at h
    cases more with
    | nil => exact ⟨[], by rw [← hmore, List.append_nil, List.append_nil]⟩
    | cons c more =>
        obtain ⟨rfl, -⟩ := List.cons_prefix_cons.1 h
        have hblank := not_isBlank_of_isName hword '\n' (by rw [← hmore]; simp)
        exact absurd hblank (by decide)

theorem prefix_dropWhile_feed {skipped : Char → Bool} {front rest : Text}
    (hrest : ¬ word.toList <+: ('\n' :: rest).dropWhile skipped) :
    word.toList <+: (front ++ '\n' :: rest).dropWhile skipped ↔
      word.toList <+: front.dropWhile skipped := by
  rw [List.dropWhile_append]
  split
  · next hnone =>
      rw [List.isEmpty_iff.1 hnone, List.prefix_nil]
      exact iff_of_false hrest (ne_nil_of_isName hword)
  · exact prefix_append_feed hword rest

/-- A line feed separates lines. -/
theorem opensNoLine_feed : OpensNoLine word (text ++ '\n' :: after) ↔
    OpensNoLine word text ∧ OpensNoLine word after := by
  have hblank : ¬ word.toList <+: ['\n'].dropWhile isBlank := by
    rw [show ['\n'].dropWhile isBlank = [] from rfl, List.prefix_nil]
    exact ne_nil_of_isName hword
  unfold OpensNoLine
  fun_induction lines text with
  | case1 =>
      rw [List.nil_append, show '\n' :: after = [] ++ '\n' :: after from rfl,
        lines_row (by simp [Unbroken])]
      simp [stripLeft, hblank]
  | case2 c rest ih =>
      rw [lines_of_ne_nil (by simp)]
      rcases cutLine_feed (c :: rest) after with hcut | ⟨hlast, hcut⟩
      · rw [hcut, List.forall_mem_cons, List.forall_mem_cons, and_assoc]
        exact and_congr_right fun _ => ih
      · rw [hcut, hlast, lines, List.forall_mem_cons, List.forall_mem_cons, stripLeft,
          prefix_dropWhile_feed hword hblank]
        simp [stripLeft]

/-- Behind its indentation, a text does not begin with a word that opens none of its lines. -/
theorem OpensNoLine.dropWhile_isIndent (h : OpensNoLine word text) :
    ¬ word.toList <+: text.dropWhile isIndent := by
  rintro ⟨rest, hrest⟩
  have hindent : ∀ c ∈ text.takeWhile isIndent, isBlank c = true ∧ isLineBoundary c = false := by
    intro c hc
    have hspace : c = ' ' ∨ c = '\t' := by simpa [isIndent] using List.mem_takeWhile_imp hc
    rcases hspace with rfl | rfl <;> exact ⟨by decide, by decide⟩
  have hfront : Unbroken (text.takeWhile isIndent ++ word.toList) :=
    Unbroken.append (fun c hc => (hindent c hc).2) (unbroken_of_isName hword)
  have htext : text = text.takeWhile isIndent ++ word.toList ++ rest := by
    rw [List.append_assoc, hrest, List.takeWhile_append_dropWhile]
  have hne : text ≠ [] := by
    rw [htext]
    simp [ne_nil_of_isName hword]
  refine h (cutLine text).1 (by rw [lines_of_ne_nil hne]; exact List.mem_cons_self) ?_
  rw [htext, cutLine_unbroken hfront, List.append_assoc, stripLeft,
    List.dropWhile_append_of_pos fun c hc => (hindent c hc).1]
  obtain ⟨first, others, hfirst⟩ := List.exists_cons_of_ne_nil (ne_nil_of_isName hword)
  have hblank := not_isBlank_of_isName hword first (by rw [hfirst]; exact List.mem_cons_self)
  rw [hfirst, List.cons_append, List.dropWhile_cons_of_neg (by simp [hblank])]
  exact ⟨_, rfl⟩

/-- A line that begins with another word is opened by that one. -/
theorem opensNoLine_word {other : String} (hother : isName other.toList = true)
    (hne : word.toList.head? ≠ other.toList.head?) (hrow : Unbroken (other.toList ++ row)) :
    OpensNoLine word (other.toList ++ row) := by
  apply opensNoLine_of_head hrow
  obtain ⟨first, others, hfirst⟩ := List.exists_cons_of_ne_nil (ne_nil_of_isName hother)
  have hblank := not_isBlank_of_isName hother first (by rw [hfirst]; exact List.mem_cons_self)
  rw [stripLeft, hfirst, List.cons_append, List.dropWhile_cons_of_neg (by simp [hblank])]
  obtain ⟨opening, letters, hopening⟩ := List.exists_cons_of_ne_nil (ne_nil_of_isName hword)
  rw [hopening, hfirst] at hne
  rw [hopening, List.cons_prefix_cons]
  exact fun h => hne (congrArg some h.1)

theorem opensNoLine_unlines {texts : List Text} :
    OpensNoLine word (unlines texts) ↔ ∀ text ∈ texts, OpensNoLine word text := by
  induction texts with
  | nil => simp [unlines, OpensNoLine, lines]
  | cons text texts ih =>
      have hunlines : unlines (text :: texts) = text ++ '\n' :: unlines texts := by
        simp [unlines]
      rw [hunlines, opensNoLine_feed hword, ih, List.forall_mem_cons]

end Word

end ScriptSplit.Text
