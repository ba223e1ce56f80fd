import Mathlib.Data.List.Basic
import ScriptSplit.CommonJs
import ScriptSplit.Proofs.Text.Openings

/-!
# Scans for lines

A scan of a text gives what a recogniser finds and, between the finds, the characters that it passes. The finds alone
and the text with all of them replaced are read off the scan. A recogniser of lines that begin with a word passes every
text in which the word opens no line, and texts that end with a line feed are scanned one after another.
-/

namespace ScriptSplit

namespace Text

variable {α : Type} {recognise : Recogniser α}

/-- The finds in a text and the characters outside them, in their order. -/
def scan (recognise : Recogniser α) (before : Option Char) (skip : Nat) : Text → List (α ⊕ Char)
  | [] => []
  | c :: rest =>
    if 0 < skip then scan recognise (some c) (skip - 1) rest
    else
      match recognise before (c :: rest) with
      | some (value, n) => .inl value :: scan recognise (some c) (n - 1) rest
      | none => .inr c :: scan recognise (some c) 0 rest

/-- The recogniser of the same finds that puts other texts in their places. -/
def Recogniser.putting (recognise : Recogniser α) (put : α → Text) : Recogniser Text :=
  fun before text => (recognise before text).map fun (value, n) => (put value, n)

theorem map_value_findAllFrom (offset : Nat) (before : Option Char) (skip : Nat) (text : Text) :
    (findAllFrom recognise offset before skip text).map (·.value) =
      (scan recognise before skip text).filterMap Sum.getLeft? := by
  induction text generalizing offset before skip with
  | nil => rfl
  | cons c rest ih =>
      unfold findAllFrom scan
      split
      · exact ih ..
      · cases recognise before (c :: rest) with
        | none => exact ih ..
        | some found => exact congrArg (found.1 :: ·) (ih ..)

theorem map_value_findAll (text : Text) : (findAll recognise text).map (·.value) =
    (scan recognise none 0 text).filterMap Sum.getLeft? :=
  map_value_findAllFrom 0 none 0 text

theorem replaceFrom_putting (put : α → Text) (before : Option Char) (skip : Nat) (text : Text) :
    replaceFrom (recognise.putting put) before skip text =
      (scan recognise before skip text).flatMap (Sum.elim put fun c => [c]) := by
  induction text generalizing before skip with
  | nil => rfl
  | cons c rest ih =>
      unfold replaceFrom scan
      split
      · exact ih ..
      · rw [Recogniser.putting]
        cases recognise before (c :: rest) with
        | none => exact congrArg (c :: ·) (ih ..)
        | some found => exact congrArg (put found.1 ++ ·) (ih ..)

theorem replaceAll_putting (put : α → Text) (text : Text) : replaceAll (recognise.putting put) text =
    (scan recognise none 0 text).flatMap (Sum.elim put fun c => [c]) :=
  replaceFrom_putting put none 0 text

@[simp] theorem scan_nil (before : Option Char) (skip : Nat) : scan recognise before skip [] = [] :=
  rfl

theorem scan_skip (before : Option Char) (front rest : Text) :
    scan recognise before front.length (front ++ rest) =
      scan recognise (front.getLast?.or before) 0 rest := by
  induction front generalizing before with
  | nil => rfl
  | cons c front ih =>
      rw [List.cons_append, scan, if_pos (by simp), List.length_cons, Nat.add_sub_cancel, ih,
        List.getLast?_cons]
      cases front.getLast? <;> rfl

/-! ## Texts that are scanned one after another -/

/-- Whether a text at the start of a line is scanned by itself, whatever follows it, and leaves the scan at the start
of a line. -/
def Scans (recognise : Recogniser α) (text : Text) (result : List (α ⊕ Char)) : Prop :=
  ∀ before rest, atLineStart before = true → ∃ last, atLineStart last = true ∧
    scan recognise before 0 (text ++ rest) = result ++ scan recognise last 0 rest

namespace Scans

variable {text other : Text} {result more : List (α ⊕ Char)}

theorem nil : Scans recognise [] [] :=
  fun before _ hbefore => ⟨before, hbefore, rfl⟩

theorem append (h : Scans recognise text result) (hother : Scans recognise other more) :
    Scans recognise (text ++ other) (result ++ more) := by
  intro before rest hbefore
  obtain ⟨between, hbetween, hfirst⟩ := h before (other ++ rest) hbefore
  obtain ⟨last, hlast, hsecond⟩ := hother between rest hbetween
  exact ⟨last, hlast, by rw [List.append_assoc, hfirst, hsecond, List.append_assoc]⟩

theorem flatMap {β : Type} {items : List β} {write : β → Text} {found : β → List (α ⊕ Char)}
    (h : ∀ item ∈ items, Scans recognise (write item) (found item)) :
    Scans recognise (items.flatMap write) (items.flatMap found) := by
  induction items with
  | nil => exact nil
  | cons item items ih =>
      obtain ⟨hitem, hitems⟩ := List.forall_mem_cons.1 h
      exact hitem.append (ih hitems)

theorem scan_eq (h : Scans recognise text result) : scan recognise none 0 text = result := by
  obtain ⟨last, -, hscan⟩ := h none [] rfl
  simpa using hscan

theorem values (h : Scans recognise text result) :
    (findAll recognise text).map (·.value) = result.filterMap Sum.getLeft? := by
  rw [map_value_findAll, h.scan_eq]

theorem replaced (h : Scans recognise text result) (put : α → Text) :
    replaceAll (recognise.putting put) text = result.flatMap (Sum.elim put fun c => [c]) := by
  rw [replaceAll_putting, h.scan_eq]

end Scans

/-! ## Recognisers of lines -/

theorem dropWhile_isIndent_word {word : String} (hword : isName word.toList = true) (rest : Text) :
    (word.toList ++ rest).dropWhile isIndent = word.toList ++ rest := by
  obtain ⟨first, others, hfirst⟩ := List.exists_cons_of_ne_nil (ne_nil_of_isName hword)
  have hblank := not_isBlank_of_isName hword first (by rw [hfirst]; exact List.mem_cons_self)
  have hindent : isIndent first = false := by
    by_contra hspace
    have hcases : first = ' ' ∨ first = '\t' := by simpa [isIndent, or_iff_not_imp_left] using hspace
    rcases hcases with rfl | rfl <;> exact absurd hblank (by decide)
  rw [hfirst, List.cons_append, List.dropWhile_cons_of_neg (by simp [hindent])]

/-- Whether a recogniser finds nothing but lines that begin with a word, their indentation aside. -/
structure Keyed (word : String) (recognise : Recogniser α) : Prop where
  atLineStart : ∀ {before text found}, recognise before text = some found → atLineStart before = true
  opens : ∀ {before text found}, recognise before text = some found →
    word.toList <+: text.dropWhile isIndent

namespace Keyed

variable {word : String} {row text : Text} (h : Keyed word recognise)

include h

theorem eq_none {before : Option Char} (hbefore : Text.atLineStart before = false) (text : Text) :
    recognise before text = none := by
  rw [Option.eq_none_iff_forall_ne_some]
  intro found hfound
  rw [h.atLineStart hfound] at hbefore
  cases hbefore

theorem scan_inside {before : Option Char} (hbefore : Text.atLineStart before = false)
    (hrow : '\n' ∉ row) (rest : Text) :
    scan recognise before 0 (row ++ '\n' :: rest) =
      (row ++ ['\n']).map .inr ++ scan recognise (some '\n') 0 rest := by
  induction row generalizing before with
  | nil =>
      rw [List.nil_append, scan, if_neg (by simp), h.eq_none hbefore]
      rfl
  | cons c row ih =>
      obtain ⟨hc, hrow⟩ := List.ne_and_not_mem_of_not_mem_cons hrow
      have hinside : Text.atLineStart (some c) = false := by simpa [Text.atLineStart] using hc.symm
      rw [List.cons_append, scan, if_neg (by simp), h.eq_none hbefore]
      simp only
      rw [ih hinside hrow]
      rfl

/-- A line at whose start nothing is found is passed. -/
theorem scan_row (hrow : '\n' ∉ row) {before : Option Char} {rest : Text}
    (hnone : recognise before (row ++ '\n' :: rest) = none) :
    scan recognise before 0 (row ++ '\n' :: rest) =
      (row ++ ['\n']).map .inr ++ scan recognise (some '\n') 0 rest := by
  cases row with
  | nil =>
      rw [List.nil_append] at hnone
      rw [List.nil_append, scan, if_neg (by simp), hnone]
      rfl
  | cons c row =>
      obtain ⟨hc, hrow⟩ := List.ne_and_not_mem_of_not_mem_cons hrow
      have hinside : Text.atLineStart (some c) = false := by simpa [Text.atLineStart] using hc.symm
      rw [List.cons_append] at hnone
      rw [List.cons_append, scan, if_neg (by simp), hnone]
      simp only
      rw [h.scan_inside hinside hrow]
      rfl

theorem passes_row (hrow : '\n' ∉ row)
    (hnone : ∀ before rest, recognise before (row ++ '\n' :: rest) = none) :
    Scans recognise (row ++ ['\n']) ((row ++ ['\n']).map .inr) := by
  intro before rest _
  exact ⟨some '\n', rfl, by
    rw [List.append_assoc, List.singleton_append, h.scan_row hrow (hnone before rest)]⟩

theorem passes_word {other : String} (hword : isName word.toList = true) (hother : isName other.toList = true)
    (hne : word.toList.head? ≠ other.toList.head?) (hrow : '\n' ∉ other.toList ++ row) :
    Scans recognise (other.toList ++ row ++ ['\n']) ((other.toList ++ row ++ ['\n']).map .inr) := by
  apply h.passes_row hrow
  intro before rest
  rw [Option.eq_none_iff_forall_ne_some]
  intro found hfound
  obtain ⟨more, hmore⟩ := h.opens hfound
  rw [List.append_assoc, dropWhile_isIndent_word hother] at hmore
  have hheads := congrArg List.head? hmore
  rw [List.head?_append_of_ne_nil _ (ne_nil_of_isName hword),
    List.head?_append_of_ne_nil _ (ne_nil_of_isName hother)] at hheads
  exact hne hheads

/-- A text in which the word opens no line is passed, line after line. -/
theorem passes (hword : isName word.toList = true) (htext : OpensNoLine word text) :
    Scans recognise (text ++ ['\n']) ((text ++ ['\n']).map .inr) := by
  induction hlength : text.length using Nat.strongRecOn generalizing text with
  | _ length ih =>
      have hnone : ∀ {row : Text}, OpensNoLine word row → ∀ before rest,
          recognise before (row ++ '\n' :: rest) = none := by
        intro row hrow before rest
        rw [Option.eq_none_iff_forall_ne_some]
        intro found hfound
        refine hrow.dropWhile_isIndent hword ((prefix_dropWhile_feed hword ?_).1 (h.opens hfound))
        rw [List.dropWhile_cons_of_neg (by decide)]
        intro hprefix
        exact ne_nil_of_isName hword (List.prefix_nil.1 ((prefix_append_feed hword rest).1 hprefix))
      by_cases hfeed : '\n' ∈ text
      · obtain ⟨row, rest, rfl, hrow⟩ := List.eq_append_cons_of_mem hfeed
        obtain ⟨hfirst, hothers⟩ := (opensNoLine_feed hword).1 htext
        have hrest := ih rest.length (by rw [← hlength]; simp; omega) hothers rfl
        have hboth := (h.passes_row hrow (hnone hfirst)).append hrest
        simpa using hboth
      · exact h.passes_row hfeed (hnone htext)

end Keyed

namespace Scans

variable {row : Text} {value : α}

/-- A line whose find reaches up to its line feed. -/
theorem found_row {word : String} (h : Keyed word recognise) (hrow : '\n' ∉ row) (hne : row ≠ [])
    (hfound : ∀ before rest, Text.atLineStart before = true →
      recognise before (row ++ '\n' :: rest) = some (value, row.length)) :
    Scans recognise (row ++ ['\n']) [.inl value, .inr '\n'] := by
  intro before rest hbefore
  refine ⟨some '\n', rfl, ?_⟩
  obtain ⟨c, others, rfl⟩ := List.exists_cons_of_ne_nil hne
  have hlast : Text.atLineStart (others.getLast?.or (some c)) = false := by
    have hc : c ≠ '\n' := fun heq => hrow (heq ▸ List.mem_cons_self)
    cases hothers : others.getLast? with
    | none => simpa [Text.atLineStart] using hc
    | some last =>
        have hne : last ≠ '\n' := fun heq =>
          hrow (List.mem_cons_of_mem _ (heq ▸ List.mem_of_getLast? hothers))
        simpa [Text.atLineStart] using hne
  have hfirst := hfound before rest hbefore
  rw [List.cons_append] at hfirst
  rw [List.append_assoc, List.singleton_append, List.cons_append, scan, if_neg (by simp), hfirst]
  simp only [List.length_cons, Nat.add_sub_cancel]
  rw [scan_skip, scan, if_neg (by simp), h.eq_none hlast]
  rfl

theorem found_line (hfound : ∀ before rest, Text.atLineStart before = true →
      recognise before (row ++ '\n' :: rest) = some (value, row.length + 1)) :
    Scans recognise (row ++ ['\n']) [.inl value] := by
  intro before rest hbefore
  refine ⟨some '\n', rfl, ?_⟩
  have hfirst := hfound before rest hbefore
  obtain ⟨c, others, htext⟩ : ∃ c others, row ++ ['\n'] = c :: others :=
    List.exists_cons_of_ne_nil (by simp)
  have hlast : others.getLast?.or (some c) = some '\n' := by
    have hlast := congrArg List.getLast? htext
    rw [List.getLast?_concat, List.getLast?_cons] at hlast
    rw [hlast]
    cases others.getLast? <;> rfl
  have hlength : row.length + 1 - 1 = others.length := by
    have hlength := congrArg List.length htext
    simpa using hlength
  rw [show row ++ '\n' :: rest = c :: (others ++ rest) by
    rw [← List.cons_append, ← htext, List.append_assoc, List.singleton_append]] at hfirst
  rw [htext, List.cons_append, scan, if_neg (by simp), hfirst]
  simp only [hlength]
  rw [scan_skip, hlast]
  rfl

end Scans

end Text

end ScriptSplit
