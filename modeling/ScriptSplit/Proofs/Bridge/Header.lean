import ScriptSplit.Bridge.Render
import ScriptSplit.Proofs.Bridge.Remarks

/-!
# What a header holds

A line is taken for the header by what it begins and ends with, so what is behind the mark that closes a comment is not
always seen, and the header may stop while a comment is open. Where nothing but remarks stands behind closing marks, and
the header does not stop inside a comment, it is clean, and so is what the bridge keeps of it.
-/

namespace ScriptSplit

namespace Header

variable {inBlock after : Bool} {c : Char} {text tail line : Text} {lines rest : List Text} {stop : Option Nat}
  {offset : Nat}

def behindMark? (text : Text) : Option Text :=
  (text.find? "*/").map fun n => text.drop (n + 2)

/-- What a line holds of the block comment that it begins in or with, and all that follows it. -/
def inside? (inBlock : Bool) (line : Text) : Option Text :=
  if inBlock then some line
  else if "/*".toList.isPrefixOf line then some (line.drop 2)
  else none

def tail? (inBlock : Bool) (line : Text) : Option Text :=
  (inside? inBlock line).bind behindMark?

/-- What lines hold behind the marks that close their block comments. -/
def tails (inBlock : Bool) : List Text → List Text
  | [] => []
  | line :: rest => (tail? inBlock line.strip).toList ++ tails ((line? inBlock line).getD false) rest

def linesBefore (stop : Option Nat) (offset : Nat) : List Text → List Text
  | [] => []
  | line :: rest =>
    if stop.any (· < offset + line.length) then []
    else line :: linesBefore stop (offset + line.length) rest

/-- Whether all lines in front of the stop are taken, and a block comment is open behind them. -/
def StopsInside (source : Text) (stop : Option Nat) : Prop :=
  take stop 0 false source.lines = (linesBefore stop 0 source.lines).map dropNewlines ∧
    lines? false (linesBefore stop 0 source.lines) = some true

instance (source : Text) (stop : Option Nat) : Decidable (StopsInside source stop) :=
  inferInstanceAs (Decidable (_ ∧ _))

/-! ## A single line -/

theorem remarks?_mark (text : Text) :
    remarks? true text = (behindMark? text).elim (some true) (remarks? false) := by
  induction text with
  | nil => rfl
  | cons c text ih =>
      by_cases hmark : "*/".toList.isPrefixOf (c :: text) = true
      · obtain ⟨rest, hrest⟩ := List.isPrefixOf_iff_prefix.1 hmark
        rw [behindMark?, Text.find?, if_pos hmark, ← hrest]
        rfl
      · have hfound : behindMark? (c :: text) = behindMark? text := by
          rw [behindMark?, Text.find?, if_neg hmark, behindMark?, Option.map_map]
          rfl
        rw [hfound, ← ih, remarks?]
        rintro rest rfl rfl
        exact hmark rfl

theorem line?_of_inside (h : inside? inBlock line.strip = some text) : line? inBlock line = remarks? true text := by
  rw [line?, ← remarks?_strip]
  unfold inside? at h
  cases inBlock with
  | true =>
      obtain rfl := Option.some.inj h
      rfl
  | false =>
      rw [if_neg Bool.false_ne_true, Option.ite_none_right_eq_some] at h
      obtain ⟨hopened, htext⟩ := h
      obtain rfl := Option.some.inj htext
      obtain ⟨rest, hrest⟩ := List.isPrefixOf_iff_prefix.1 hopened
      rw [← hrest]
      rfl

/-- What is behind the closing mark decides on the line. -/
theorem line?_of_tail (h : tail? inBlock line.strip = some tail) : line? inBlock line = remarks? false tail := by
  obtain ⟨text, htext, hbehind⟩ := Option.bind_eq_some_iff.1 h
  rw [line?_of_inside htext, remarks?_mark, hbehind, Option.elim_some]

/-- A comment is taken to be open if no mark that closes it has been seen. -/
theorem step_of_inside (h : inside? inBlock line = some text) (hstep : step inBlock line = some after) :
    after = (behindMark? text).isNone := by
  have hfind (text : Text) : (text.find? "*/").isSome = !(behindMark? text).isNone := by
    rw [behindMark?, Option.isNone_map, Option.not_isNone]
  unfold inside? at h
  unfold step at hstep
  simp only [hfind, Bool.not_not] at hstep
  cases inBlock with
  | true =>
      obtain rfl := Option.some.inj h
      exact (Option.some.inj hstep).symm
  | false =>
      rw [if_neg Bool.false_ne_true, Option.ite_none_right_eq_some] at h
      obtain ⟨hopened, htext⟩ := h
      obtain rfl := Option.some.inj htext
      rw [if_neg Bool.false_ne_true, if_pos hopened] at hstep
      split at hstep
      · next hnone => rw [hnone, ← Option.some.inj hstep]
      · next hsome =>
          obtain ⟨-, hafter⟩ := Option.ite_none_right_eq_some.1 hstep
          rw [Bool.eq_false_of_not_eq_true hsome, ← Option.some.inj hafter]

theorem line?_of_outside (h : inside? inBlock line.strip = none) (hstep : step inBlock line.strip = some after) :
    line? inBlock line = some after := by
  unfold inside? at h
  unfold step at hstep
  cases inBlock with
  | true => cases h
  | false =>
      have hopened : ¬ "/*".toList.isPrefixOf line.strip = true := by simpa using h
      rw [if_neg Bool.false_ne_true, if_neg hopened, Option.ite_none_right_eq_some] at hstep
      obtain ⟨htaken, hafter⟩ := hstep
      obtain rfl := Option.some.inj hafter
      rw [Bool.or_eq_true, Bool.or_eq_true] at htaken
      rcases htaken with (hempty | hremark) | hdirective
      · rw [← line?_strip, List.isEmpty_iff.1 hempty]
        rfl
      · obtain ⟨rest, hrest⟩ := List.isPrefixOf_iff_prefix.1 hremark
        rw [line?, ← remarks?_strip, ← hrest]
        rfl
      · rw [line?, hdirective]
        rfl

/-- A line that goes on with the header is read as it is taken, unless a closing mark in it has been seen. Then no
comment is taken to be open. -/
theorem line?_of_step (hstep : step inBlock line.strip = some after) :
    (tail? inBlock line.strip = none ∧ line? inBlock line = some after) ∨
      (∃ tail, tail? inBlock line.strip = some tail) ∧ after = false := by
  unfold tail?
  cases hinside : inside? inBlock line.strip with
  | none => exact Or.inl ⟨rfl, line?_of_outside hinside hstep⟩
  | some text =>
      rw [step_of_inside hinside hstep, line?_of_inside hinside, remarks?_mark, Option.bind_some]
      cases behindMark? text with
      | none => exact Or.inl ⟨rfl, rfl⟩
      | some tail => exact Or.inr ⟨⟨tail, rfl⟩, rfl⟩

/-! ## A whole header -/

theorem tail?_nil (inBlock : Bool) : tail? inBlock [] = none := by
  cases inBlock <;> rfl

theorem tails_blank (hlines : ∀ line ∈ lines, line.isBlankText = true) (inBlock : Bool) : tails inBlock lines = [] := by
  induction lines generalizing inBlock with
  | nil => rfl
  | cons line lines ih =>
      obtain ⟨hline, hlines⟩ := List.forall_mem_cons.1 hlines
      rw [tails, Text.strip_of_isBlankText hline, tail?_nil, ih hlines]
      rfl

theorem tails_append_blank (hrest : ∀ line ∈ rest, line.isBlankText = true) (inBlock : Bool) (lines : List Text) :
    tails inBlock (lines ++ rest) = tails inBlock lines := by
  induction lines generalizing inBlock with
  | nil => exact tails_blank hrest inBlock
  | cons line lines ih => rw [List.cons_append, tails, ih, tails]

/-- Lines that can be read hold nothing but remarks behind their closing marks. -/
theorem tails_ne_none (hread : lines? inBlock lines ≠ none) :
    ∀ tail ∈ tails inBlock lines, remarks? false tail ≠ none := by
  induction lines generalizing inBlock with
  | nil => simp [tails]
  | cons line lines ih =>
      intro tail htail
      rw [lines?_cons] at hread
      cases hline : line? inBlock line with
      | none => simp [hline] at hread
      | some between =>
          rw [hline, Option.bind_some] at hread
          rw [tails, List.mem_append, Option.mem_toList, hline] at htail
          rcases htail with htail | htail
          · rw [← line?_of_tail htail, hline]
            simp
          · exact ih hread tail htail

theorem lines?_take
    (htails : ∀ tail ∈ tails inBlock (take stop offset inBlock lines), remarks? false tail = some false) :
    lines? inBlock (take stop offset inBlock lines) = some false ∨
      lines? inBlock (take stop offset inBlock lines) = some true ∧
        take stop offset inBlock lines = (linesBefore stop offset lines).map dropNewlines := by
  induction lines generalizing inBlock offset with
  | nil => cases inBlock <;> simp [take, linesBefore, lines?]
  | cons line lines ih =>
      rw [take] at htails ⊢
      rw [linesBefore]
      by_cases hstop : stop.any (· < offset + line.length) = true
      · rw [if_pos hstop, if_pos hstop]
        cases inBlock <;> simp [lines?]
      · rw [if_neg hstop] at htails ⊢
        rw [if_neg hstop, List.map_cons]
        cases hstep : step inBlock line.strip with
        | none =>
            cases inBlock with
            | true => simp [step] at hstep
            | false => exact Or.inl rfl
        | some after =>
            simp only [hstep, tails, strip_dropNewlines, line?_dropNewlines, List.mem_append,
              Option.mem_toList] at htails
            have hline : line? inBlock line = some after := by
              rcases line?_of_step hstep with ⟨-, hline⟩ | ⟨⟨tail, htail⟩, rfl⟩
              · exact hline
              · rw [line?_of_tail htail]
                exact htails tail (Or.inl htail)
            simp only [lines?_cons, line?_dropNewlines, hline, Option.bind_some, List.cons.injEq, true_and]
            refine ih fun tail htail => htails tail (Or.inr ?_)
            rwa [hline, Option.getD_some]

/-! ## The header of a source -/

theorem exists_headerLines (source : Text) (stop : Option Nat) :
    ∃ blanks : List Text, take stop 0 false source.lines = headerLines source stop ++ blanks ∧
      ∀ line ∈ blanks, line.isBlankText = true := by
  exact ⟨(take stop 0 false source.lines).rtakeWhile Text.isBlankText, List.rdropWhile_append_rtakeWhile.symm,
    fun line hline => List.mem_rtakeWhile_imp hline⟩

theorem lines?_headerLines (source : Text) (stop : Option Nat) :
    lines? false (headerLines source stop) = lines? false (take stop 0 false source.lines) := by
  obtain ⟨blanks, htake, hblanks⟩ := exists_headerLines source stop
  rw [htake, lines?_append]
  cases lines? false (headerLines source stop) with
  | none => rfl
  | some after => rw [Option.bind_some, lines?_blank hblanks]

theorem tails_headerLines (source : Text) (stop : Option Nat) :
    tails false (headerLines source stop) = tails false (take stop 0 false source.lines) := by
  obtain ⟨blanks, htake, hblanks⟩ := exists_headerLines source stop
  rw [htake, tails_append_blank hblanks]

theorem clean_of_tails {source : Text}
    (htails : ∀ tail ∈ tails false (headerLines source stop), remarks? false tail = some false)
    (hstop : ¬ StopsInside source stop) : Clean (headerLines source stop) := by
  rw [tails_headerLines] at htails
  rw [Clean, lines?_headerLines]
  rcases lines?_take htails with hclean | ⟨hopen, htake⟩
  · exact hclean
  · rw [htake, lines?_map_dropNewlines] at hopen
    exact absurd ⟨htake, hopen⟩ hstop

theorem Clean.not_stopsInside {source : Text} (h : Clean (headerLines source stop)) : ¬ StopsInside source stop := by
  rintro ⟨htake, hopen⟩
  rw [Clean, lines?_headerLines, htake, lines?_map_dropNewlines, hopen] at h
  cases h

/-! ## The lines of a header -/

theorem isNewline_of_not_isLineBoundary (hc : Text.isLineBoundary c = false) : Text.isNewline c = false := by
  by_contra hnewline
  rw [Text.isLineBoundary_of_isNewline (Bool.eq_true_of_not_eq_false hnewline)] at hc
  cases hc

theorem dropNewlines_cons (hc : Text.isNewline c = false) (line : Text) :
    dropNewlines (c :: line) = c :: dropNewlines line := by
  rw [dropNewlines, List.reverse_cons, List.dropWhile_append]
  split
  · next hnone =>
      rw [List.dropWhile_cons_of_neg (by simp [hc]), dropNewlines, List.isEmpty_iff.1 hnone]
      rfl
  · rw [List.reverse_append, dropNewlines]
    rfl

theorem cutLine_dropNewlines (text : Text) : ∀ c ∈ dropNewlines (Text.cutLine text).1, Text.isNewline c = false := by
  fun_induction Text.cutLine text with
  | case1 => simp [dropNewlines]
  | case2 rest => simp [dropNewlines, Text.isNewline]
  | case3 c rest _ hc =>
      cases hnewline : Text.isNewline c with
      | true => simp [dropNewlines, hnewline]
      | false => simp [dropNewlines, hnewline]
  | case4 c rest _ hc line after heq ih =>
      rw [heq] at ih
      have hplain := isNewline_of_not_isLineBoundary (Bool.eq_false_of_not_eq_true hc)
      rw [dropNewlines_cons hplain]
      exact List.forall_mem_cons.2 ⟨hplain, ih⟩

theorem lines_dropNewlines (text : Text) :
    ∀ line ∈ text.lines.map dropNewlines, ∀ c ∈ line, Text.isNewline c = false := by
  fun_induction Text.lines text with
  | case1 => simp
  | case2 c rest ih =>
      rw [List.map_cons, List.forall_mem_cons]
      exact ⟨cutLine_dropNewlines _, ih⟩

theorem take_prefix_map (stop : Option Nat) (offset : Nat) (inBlock : Bool) (lines : List Text) :
    take stop offset inBlock lines <+: lines.map dropNewlines := by
  induction lines generalizing offset inBlock with
  | nil => exact List.nil_prefix
  | cons line lines ih =>
      rw [take]
      split
      · exact List.nil_prefix
      · split
        · exact List.prefix_cons_inj _ |>.2 (ih _ _)
        · exact List.nil_prefix

theorem headerLines_prefix_map (source : Text) (stop : Option Nat) :
    headerLines source stop <+: source.lines.map dropNewlines := by
  obtain ⟨blanks, htake, -⟩ := exists_headerLines source stop
  exact List.IsPrefix.trans ⟨blanks, htake.symm⟩ (take_prefix_map stop 0 false source.lines)

/-! ## What the bridge keeps -/

theorem Clean.dropWhile_blank (h : Clean lines) : Clean (lines.dropWhile Text.isBlankText) := by
  induction lines with
  | nil => exact h
  | cons line lines ih =>
      rw [List.dropWhile_cons]
      split
      · next hline =>
          rw [Clean, lines?_cons, line?_blank hline] at h
          exact ih h
      · exact h

/-- What the bridge keeps of clean lines is clean if the banner opens no comment. -/
theorem Clean.keptHeader {banner : Text} (h : Clean lines) (hbanner : line? false banner ≠ some true) :
    Clean (keptHeader banner lines) := by
  unfold ScriptSplit.keptHeader
  apply Clean.dropWhile_blank
  cases lines with
  | nil => exact h
  | cons first rest =>
      dsimp only
      split
      · next hsame =>
          rw [← line?_of_strip_eq (eq_of_beq hsame)] at hbanner
          rw [Clean, lines?_cons, Option.bind_eq_some_iff] at h
          obtain ⟨after, hfirst, hrest⟩ := h
          obtain rfl : after = false := by
            by_contra hopen
            exact hbanner (by rw [hfirst, Bool.eq_true_of_not_eq_false hopen])
          exact hrest
      · exact h

/-! ## Whether a header is clean -/

/-- A header in which no comment is opened again behind a closing mark is clean exactly if there are nothing but remarks
behind closing marks and it does not stop inside a comment. A clean header leaves nothing open for the lexer, and what
the bridge keeps of it is clean. -/
theorem clean_headerLines_iff (source : Text) (stop : Option Nat) :
    (Clean (headerLines source stop) ∧
        (∀ tail ∈ tails false (headerLines source stop), remarks? false tail ≠ some true) ↔
      (∀ tail ∈ tails false (headerLines source stop), remarks? false tail = some false) ∧
        ¬ StopsInside source stop) ∧
    (Clean (headerLines source stop) →
      isBalanced (Text.unlines (headerLines source stop)) 0 (Text.unlines (headerLines source stop)).length = true ∧
        ∀ banner, line? false banner ≠ some true → Clean (keptHeader banner (headerLines source stop))) := by
  refine ⟨⟨?_, fun ⟨htails, hstop⟩ => ⟨clean_of_tails htails hstop, ?_⟩⟩, fun h => ⟨?_, fun banner => h.keptHeader⟩⟩
  · rintro ⟨hclean, hreopen⟩
    refine ⟨fun tail htail => ?_, hclean.not_stopsInside⟩
    have hread : remarks? false tail ≠ none := tails_ne_none (by rw [hclean]; simp) tail htail
    cases hremarks : remarks? false tail with
    | none => exact absurd hremarks hread
    | some reopened =>
        cases reopened with
        | true => exact absurd hremarks (hreopen tail htail)
        | false => rfl
  · intro tail htail
    rw [htails tail htail]
    simp
  · exact h.isBalanced fun line hline =>
      lines_dropNewlines source line ((headerLines_prefix_map source stop).subset hline)

def commented : Text :=
  "/* a\n b */ // c\n'use strict';\n\nlet n = 0;\n".toList

/-- A statement between two comments. -/
def enclosed : Text :=
  "/* a */ let n = 0; /* b */\nfunction f() \x7b\x7d\n".toList

def followed : Text :=
  "/*\n*/ let n = 0;\nfunction f() \x7b\x7d\n".toList

def joined : Text :=
  "/* a\n b */ function f() \x7b\x7d\n".toList

/-- The comments and the directive are a clean header. The statements are taken for a part of the header, and the header in
front of the function stops inside the comment. -/
theorem clean_headerLines_iff_commented :
    Clean (headerLines commented none) ∧ ¬ Clean (headerLines enclosed (some 27)) ∧
      ¬ Clean (headerLines followed (some 17)) ∧ ¬ Clean (headerLines joined (some 11)) := by
  have hcommented := (clean_headerLines_iff commented none).1
  have henclosed := (clean_headerLines_iff enclosed (some 27)).1
  have hfollowed := (clean_headerLines_iff followed (some 17)).1
  have hjoined := (clean_headerLines_iff joined (some 11)).1
  refine ⟨(hcommented.2 ⟨by decide +kernel, by decide +kernel⟩).1, fun h => ?_, fun h => ?_, fun h => ?_⟩
  · exact absurd (henclosed.1 ⟨h, by decide +kernel⟩).1 (by decide +kernel)
  · exact absurd (hfollowed.1 ⟨h, by decide +kernel⟩).1 (by decide +kernel)
  · exact absurd (hjoined.1 ⟨h, by decide +kernel⟩).2 (by decide +kernel)

end Header

end ScriptSplit
