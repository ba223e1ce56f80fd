import Mathlib.Data.List.TakeWhile
import ScriptSplit.Text.Lines

/-!
# Lines of a text

A text is its lines in a row, and a line is characters that are no boundary with a boundary behind them; only the
last line may lack one. A text that is put together from such pieces has each of them as a line again, blanks at
its two ends aside.
-/

namespace ScriptSplit.Text

variable {text row ending before after line : Text}

def EndsLine (text : Text) : Prop :=
  ∃ c ∈ text.getLast?, isLineBoundary c = true

/-- Whether no line ends inside a text. -/
def Unbroken (text : Text) : Prop :=
  ∀ c ∈ text, isLineBoundary c = false

/-- Whether a line is a row of characters and the boundary that ends it, if any does. -/
structure IsLine (row ending line : Text) : Prop where
  eq : line = row ++ ending
  row : Unbroken row
  ending : ∀ c ∈ ending, isLineBoundary c = true

theorem Unbroken.append {front back : Text} (hfront : Unbroken front) (hback : Unbroken back) :
    Unbroken (front ++ back) :=
  fun c hc => (List.mem_append.1 hc).elim (hfront c) (hback c)

theorem unbroken_of_all (h : (text.all fun c => !isLineBoundary c) = true) : Unbroken text :=
  fun c hc => by simpa using List.all_eq_true.1 h c hc

theorem isBlank_of_isLineBoundary {c : Char} (hc : isLineBoundary c = true) : isBlank c = true := by
  unfold isLineBoundary at hc
  unfold isBlank
  simp only [Bool.or_eq_true, Bool.and_eq_true, decide_eq_true_eq, beq_iff_eq] at hc ⊢
  omega

theorem isLineBoundary_of_isNewline {c : Char} (hc : isNewline c = true) : isLineBoundary c = true := by
  rw [isNewline, Bool.or_eq_true, beq_iff_eq, beq_iff_eq] at hc
  rcases hc with rfl | rfl <;> decide

theorem EndsLine.append (h : EndsLine after) (before : Text) : EndsLine (before ++ after) := by
  obtain ⟨c, hc, hboundary⟩ := h
  refine ⟨c, ?_, hboundary⟩
  rw [Option.mem_def] at hc ⊢
  rw [List.getLast?_append, hc]
  rfl

theorem EndsLine.of_cons {c : Char} (h : EndsLine (c :: text)) (hc : isLineBoundary c = false) :
    EndsLine text := by
  obtain ⟨last, hlast, hboundary⟩ := h
  rw [Option.mem_def, List.getLast?_cons] at hlast
  cases hrest : text.getLast? with
  | none =>
      rw [hrest] at hlast
      cases hlast
      exact absurd hboundary (by simp [hc])
  | some d =>
      rw [hrest] at hlast
      cases hlast
      exact ⟨_, hrest, hboundary⟩

theorem IsLine.endsLine (h : IsLine row ending line) (hne : ending ≠ []) : EndsLine line := by
  rw [h.eq]
  apply EndsLine.append
  exact ⟨ending.getLast hne, List.getLast?_eq_some_getLast hne, h.ending _ (List.getLast_mem hne)⟩

/-- Texts that end at boundaries do so together. -/
theorem endsLine_flatten {lines : List Text} (h : ∀ line ∈ lines, EndsLine line) :
    lines.flatten = [] ∨ EndsLine lines.flatten := by
  rcases List.eq_nil_or_concat lines with rfl | ⟨front, last, rfl⟩
  · exact Or.inl rfl
  · rw [List.concat_eq_append, List.flatten_append, List.flatten_singleton]
    exact Or.inr ((h last (by simp)).append _)

/-! ## Cutting a line off -/

theorem exists_cutLine (text : Text) : ∃ row ending, IsLine row ending (cutLine text).1 ∧
    (ending = [] → (cutLine text).2 = []) ∧ text = (cutLine text).1 ++ (cutLine text).2 := by
  fun_induction cutLine text with
  | case1 => exact ⟨[], [], ⟨rfl, by simp [Unbroken], by simp⟩, fun _ => rfl, rfl⟩
  | case2 rest => exact ⟨[], ['\r', '\n'], ⟨rfl, by simp [Unbroken],
      List.all_eq_true.1 (by decide)⟩, by simp, rfl⟩
  | case3 c rest _ hc => exact ⟨[], [c], ⟨rfl, by simp [Unbroken], by simpa using hc⟩, by simp, rfl⟩
  | case4 c rest _ hc line after hrest ih =>
      obtain ⟨row, ending, hline, hlast, htext⟩ := ih
      rw [hrest] at hline hlast htext
      refine ⟨c :: row, ending, ⟨congrArg (c :: ·) hline.eq, ?_, hline.ending⟩, hlast, by simp [htext]⟩
      exact List.forall_mem_cons.2 ⟨by simpa using hc, hline.row⟩

theorem cutLine_cons {c : Char} (hc : isLineBoundary c = false) (rest : Text) :
    cutLine (c :: rest) = (c :: (cutLine rest).1, (cutLine rest).2) := by
  rw [cutLine.eq_def]
  split
  · next heq => cases heq
  · next heq =>
      obtain ⟨rfl, -⟩ := List.cons.inj heq
      exact absurd hc (by decide)
  · next heq =>
      obtain ⟨rfl, rfl⟩ := List.cons.inj heq
      rw [if_neg (by simp [hc])]

theorem cutLine_newline (hrow : Unbroken row) (rest : Text) :
    cutLine (row ++ '\n' :: rest) = (row ++ ['\n'], rest) := by
  induction row with
  | nil => rfl
  | cons c row ih =>
      obtain ⟨hc, hrow⟩ := List.forall_mem_cons.1 hrow
      rw [List.cons_append, cutLine_cons hc, ih hrow]
      rfl

theorem cutLine_row (hrow : Unbroken row) (hafter : ∀ c ∈ after.head?, isLineBoundary c = true) :
    ∃ ending, IsLine row ending (cutLine (row ++ after)).1 := by
  induction row with
  | nil =>
      obtain ⟨row, ending, hline, -, htext⟩ := exists_cutLine after
      cases row with
      | nil => exact ⟨ending, hline⟩
      | cons c row =>
          rw [hline.eq] at htext
          have hhead : c ∈ after.head? := by rw [htext]; rfl
          have hc := hline.row c (by simp)
          rw [hafter c hhead] at hc
          cases hc
  | cons c row ih =>
      obtain ⟨hc, hrow'⟩ := List.forall_mem_cons.1 hrow
      obtain ⟨ending, hline⟩ := ih hrow'
      rw [List.cons_append, cutLine_cons hc]
      exact ⟨ending, by rw [hline.eq]; rfl, hrow, hline.ending⟩

/-- A boundary stays one unless a line feed comes behind a carriage return. -/
theorem cutLine_append (hbefore : EndsLine before) (hafter : after.head? ≠ some '\n') :
    cutLine (before ++ after) = ((cutLine before).1, (cutLine before).2 ++ after) := by
  fun_induction cutLine before with
  | case1 =>
      obtain ⟨c, hc, -⟩ := hbefore
      cases hc
  | case2 rest => rfl
  | case3 c rest hfeed hc =>
      rw [List.cons_append]
      rw [cutLine.eq_def]
      split
      · next heq => cases heq
      · next heq =>
          obtain ⟨rfl, hrest⟩ := List.cons.inj heq
          cases rest with
          | nil => exact absurd (by rw [List.nil_append] at hrest; rw [hrest]; rfl) hafter
          | cons d rest =>
              obtain ⟨rfl, -⟩ := List.cons.inj hrest
              exact absurd rfl (hfeed rest rfl)
      · next heq =>
          obtain ⟨rfl, rfl⟩ := List.cons.inj heq
          rw [if_pos hc]
  | case4 c rest _ hc line left hrest ih =>
      have hboundary : isLineBoundary c = false := by simpa using hc
      have hcut := ih (hbefore.of_cons hboundary)
      rw [hrest] at hcut
      rw [List.cons_append, cutLine_cons hboundary, hcut]

/-! ## The lines of a text -/

theorem lines_cons (c : Char) (rest : Text) :
    lines (c :: rest) = (cutLine (c :: rest)).1 :: lines (cutLine (c :: rest)).2 := by
  rw [lines]

theorem lines_of_ne_nil (hne : text ≠ []) :
    lines text = (cutLine text).1 :: lines (cutLine text).2 := by
  cases text with
  | nil => exact absurd rfl hne
  | cons c rest => exact lines_cons c rest

theorem lines_row (hrow : Unbroken row) (rest : Text) :
    lines (row ++ '\n' :: rest) = (row ++ ['\n']) :: lines rest := by
  rw [lines_of_ne_nil (by simp), cutLine_newline hrow]

theorem flatten_lines (text : Text) : (lines text).flatten = text := by
  fun_induction lines text with
  | case1 => rfl
  | case2 c rest ih =>
      obtain ⟨-, -, -, -, htext⟩ := exists_cutLine (c :: rest)
      rw [List.flatten_cons, ih]
      exact htext.symm

theorem lines_pairwise (text : Text) : (lines text).Pairwise fun line _ => EndsLine line := by
  fun_induction lines text with
  | case1 => exact .nil
  | case2 c rest ih =>
      obtain ⟨row, ending, hline, hlast, -⟩ := exists_cutLine (c :: rest)
      refine List.pairwise_cons.2 ⟨fun other hother => hline.endsLine ?_, ih⟩
      rintro rfl
      rw [hlast rfl, lines] at hother
      cases hother

theorem isLine_of_mem_lines (hline : line ∈ lines text) : ∃ row ending, IsLine row ending line := by
  fun_induction lines text with
  | case1 => cases hline
  | case2 c rest ih =>
      rcases List.mem_cons.1 hline with rfl | hline
      · obtain ⟨row, ending, hfirst, -⟩ := exists_cutLine (c :: rest)
        exact ⟨row, ending, hfirst⟩
      · exact ih hline

/-- Lines are those of what stands before a boundary and those of what stands behind it. -/
theorem lines_append (hbefore : EndsLine before) (hafter : after.head? ≠ some '\n') :
    lines (before ++ after) = lines before ++ lines after := by
  fun_induction lines before with
  | case1 =>
      obtain ⟨c, hc, -⟩ := hbefore
      cases hc
  | case2 c rest ih =>
      rw [List.cons_append, lines_cons, ← List.cons_append, cutLine_append hbefore hafter]
      obtain ⟨-, -, -, -, htext⟩ := exists_cutLine (c :: rest)
      cases hleft : (cutLine (c :: rest)).2 with
      | nil => rw [List.nil_append, lines]; rfl
      | cons d left =>
          rw [hleft] at ih htext
          have hleftEnds : EndsLine (d :: left) := by
            obtain ⟨last, hlast, hboundary⟩ := hbefore
            rw [htext, List.getLast?_append, List.getLast?_cons] at hlast
            exact ⟨last, by simpa [List.getLast?_cons] using hlast, hboundary⟩
          rw [ih hleftEnds]
          rfl

/-! ## Blanks around a line -/

theorem stripRight_append_blank {blanks : Text} (hblanks : ∀ c ∈ blanks, isBlank c = true)
    (text : Text) : stripRight (text ++ blanks) = stripRight text := by
  unfold stripRight
  rw [List.reverse_append, List.dropWhile_append_of_pos (by simpa using hblanks)]

theorem strip_append_blank {blanks : Text} (hblanks : ∀ c ∈ blanks, isBlank c = true) (text : Text) :
    strip (text ++ blanks) = strip text := by
  have hnone : blanks.dropWhile isBlank = [] := List.dropWhile_eq_nil_iff.2 hblanks
  unfold strip stripLeft
  rw [List.dropWhile_append]
  split
  · next hempty =>
      rw [hnone, List.isEmpty_iff.1 hempty]
  · exact stripRight_append_blank hblanks _

/-- A text between two characters that are no blanks has no blanks at its ends. -/
theorem strip_eq_self {first last : Char} (hfirst : isBlank first = false)
    (hlast : isBlank last = false) (middle : Text) :
    strip (first :: (middle ++ [last])) = first :: (middle ++ [last]) := by
  unfold strip stripLeft stripRight
  rw [List.dropWhile_cons_of_neg (by simp [hfirst]), ← List.cons_append, List.reverse_append]
  simp [hlast]

theorem exists_strip (text : Text) : ∃ left right, text = left ++ strip text ++ right ∧
    (∀ c ∈ left, isBlank c = true) ∧ ∀ c ∈ right, isBlank c = true := by
  refine ⟨text.takeWhile isBlank, ((stripLeft text).reverse.takeWhile isBlank).reverse, ?_,
    fun c hc => List.mem_takeWhile_imp hc,
    fun c hc => List.mem_takeWhile_imp (List.mem_reverse.1 hc)⟩
  have hright : strip text ++ ((stripLeft text).reverse.takeWhile isBlank).reverse =
      stripLeft text := by
    unfold strip stripRight
    rw [← List.reverse_append, List.takeWhile_append_dropWhile, List.reverse_reverse]
  rw [List.append_assoc, hright]
  exact (List.takeWhile_append_dropWhile).symm

theorem IsLine.strip_eq (h : IsLine row ending line) : strip line = strip row := by
  rw [h.eq]
  exact strip_append_blank (fun c hc => isBlank_of_isLineBoundary (h.ending c hc)) row

/-- A row between boundaries is a line of the text. -/
theorem mem_lines_append (hbefore : before = [] ∨ EndsLine before) (hrow : Unbroken row)
    (hne : row ≠ []) (hafter : ∀ c ∈ after.head?, isLineBoundary c = true) :
    strip row ∈ (lines (before ++ (row ++ after))).map strip := by
  have hrest : row ++ after ≠ [] := by simp [hne]
  obtain ⟨ending, hline⟩ := cutLine_row hrow hafter
  have hfirst : strip row ∈ (lines (row ++ after)).map strip := by
    rw [lines_of_ne_nil hrest, List.map_cons, hline.strip_eq]
    exact List.mem_cons_self
  rcases hbefore with rfl | hends
  · exact hfirst
  · have hhead : (row ++ after).head? ≠ some '\n' := by
      obtain ⟨c, row', rfl⟩ := List.exists_cons_of_ne_nil hne
      rintro heq
      cases heq
      exact absurd (hrow '\n' List.mem_cons_self) (by decide)
    rw [lines_append hends hhead, List.map_append]
    exact List.mem_append_right _ hfirst

/-! ## Pieces between offsets -/

theorem drop_eq_slice_append {start stop : Nat} (hstart : start ≤ stop) (hstop : stop ≤ text.length) :
    text.drop start = text.slice start stop ++ text.drop stop := by
  calc text.drop start = (text.take stop ++ text.drop stop).drop start := by rw [List.take_append_drop]
    _ = text.slice start stop ++ text.drop stop := by
      rw [List.drop_append_of_le_length (by rw [List.length_take]; omega), slice]

theorem slice_append_slice {start middle stop : Nat} (hstart : start ≤ middle) (hstop : middle ≤ stop)
    (hlength : stop ≤ text.length) :
    text.slice start middle ++ text.slice middle stop = text.slice start stop := by
  have hmiddle : slice (text.take stop) start middle = text.slice start middle := by
    rw [slice, slice, List.take_take, Nat.min_eq_left hstop]
  have htake : middle ≤ (text.take stop).length := by
    rw [List.length_take]
    omega
  rw [← hmiddle]
  exact (drop_eq_slice_append hstart htake).symm

theorem slice_of_prefix {needle : Text} {start : Nat} (h : needle <+: text.drop start) :
    text.slice start (start + needle.length) = needle := by
  rw [slice, List.drop_take, Nat.add_sub_cancel_left]
  exact (List.prefix_iff_eq_take.1 h).symm

theorem slice_prefix (text : Text) (start stop : Nat) : text.slice start stop <+: text.drop start := by
  rw [slice, List.drop_take]
  exact List.take_prefix _ _

@[simp] theorem slice_self (text : Text) (offset : Nat) : text.slice offset offset = [] := by
  rw [slice, List.drop_take, Nat.sub_self, List.take_zero]

theorem slice_succ {start stop : Nat} {c : Char} (hstart : start ≤ stop) (hc : text[stop]? = some c) :
    text.slice start (stop + 1) = text.slice start stop ++ [c] := by
  obtain ⟨hstop, -⟩ := List.getElem?_eq_some_iff.1 hc
  rw [slice, List.take_add_one, hc, List.drop_append_of_le_length (by rw [List.length_take]; omega)]
  rfl

theorem length_slice {start stop : Nat} (h : stop ≤ text.length) :
    (text.slice start stop).length = stop - start := by
  rw [slice, List.length_drop, List.length_take, Nat.min_eq_left h]

end ScriptSplit.Text
