import ScriptSplit.Bridge.Header
import ScriptSplit.Proofs.Source.Grammar
import ScriptSplit.Proofs.Text.Split

/-!
# Remarks

Lines of blanks and comments, with a directive alone on a line here and there. They are read one after the other, and a
block comment may go on from one to the next. What such lines leave open is all that the lexer finds open behind them.
-/

namespace ScriptSplit

namespace Header

variable {inBlock after : Bool} {c : Char} {text rest blanks line : Text} {lines more : List Text}

/-- Reads blanks and comments, and tells whether a block comment is open at the end. -/
def remarks? : Bool → Text → Option Bool
  | inBlock, [] => some inBlock
  | true, '*' :: '/' :: rest => remarks? false rest
  | true, _ :: rest => remarks? true rest
  | false, '/' :: '*' :: rest => remarks? true rest
  | false, '/' :: '/' :: _ => some false
  | false, c :: rest => if Text.isBlank c then remarks? false rest else none

def line? (inBlock : Bool) (line : Text) : Option Bool :=
  if !inBlock && isDirective line.strip then some false else remarks? inBlock line

def lines? (inBlock : Bool) (lines : List Text) : Option Bool :=
  lines.foldlM line? inBlock

/-- Lines of blanks, comments and directives alone that leave no block comment open. -/
def Clean (lines : List Text) : Prop :=
  lines? false lines = some false

/-! ## Blanks around a line -/

theorem remarks?_nil (inBlock : Bool) : remarks? inBlock [] = some inBlock := by
  rw [remarks?]

theorem remarks?_cons_blank (hc : Text.isBlank c = true) (inBlock : Bool) (rest : Text) :
    remarks? inBlock (c :: rest) = remarks? inBlock rest := by
  have hstar : c ≠ '*' := by rintro rfl; exact absurd hc (by decide)
  have hslash : c ≠ '/' := by rintro rfl; exact absurd hc (by decide)
  cases inBlock with
  | false => rw [remarks?, if_pos hc] <;> simp [hslash]
  | true => rw [remarks?]; simp [hstar]

theorem remarks?_blanks_append (hblanks : ∀ c ∈ blanks, Text.isBlank c = true) (inBlock : Bool) (text : Text) :
    remarks? inBlock (blanks ++ text) = remarks? inBlock text := by
  induction blanks with
  | nil => rfl
  | cons c blanks ih =>
      obtain ⟨hc, hblanks⟩ := List.forall_mem_cons.1 hblanks
      rw [List.cons_append, remarks?_cons_blank hc, ih hblanks]

theorem remarks?_blanks (hblanks : ∀ c ∈ blanks, Text.isBlank c = true) (inBlock : Bool) :
    remarks? inBlock blanks = some inBlock := by
  simpa [remarks?_nil] using remarks?_blanks_append hblanks inBlock []

theorem remarks?_append_blanks (hblanks : ∀ c ∈ blanks, Text.isBlank c = true) (inBlock : Bool) (text : Text) :
    remarks? inBlock (text ++ blanks) = remarks? inBlock text := by
  have hhead : ∀ c ∈ blanks.head?, Text.isBlank c = true := fun c hc => hblanks c (List.mem_of_mem_head? hc)
  -- A mark is not cut by the end of the text, since no blank goes on with one.
  have hcut {next : Char} (hnext : Text.isBlank next = false) {text more : Text}
      (h : text ++ blanks = next :: more) : ∃ rest, text = next :: rest := by
    cases text with
    | nil =>
        rw [List.nil_append] at h
        subst h
        exact absurd (hhead next rfl) (by simp [hnext])
    | cons c text =>
        obtain ⟨rfl, -⟩ := List.cons.inj h
        exact ⟨text, rfl⟩
  fun_induction remarks? inBlock text with
  | case1 => exact remarks?_blanks hblanks _
  | case2 rest ih => rwa [List.cons_append, List.cons_append, remarks?]
  | case3 c rest hclose ih =>
      rw [List.cons_append, remarks?, ih]
      intro more hc hmore
      obtain ⟨rest, rfl⟩ := hcut (by decide) hmore
      exact hclose rest hc rfl
  | case4 rest ih => rwa [List.cons_append, List.cons_append, remarks?]
  | case5 rest => rw [List.cons_append, List.cons_append, remarks?]
  | case6 c rest hopen hline hc ih =>
      rw [List.cons_append, remarks?_cons_blank hc, ih]
  | case7 c rest hopen hline hc =>
      rw [List.cons_append, remarks?, if_neg hc]
      · intro more hc hmore
        obtain ⟨rest, rfl⟩ := hcut (by decide) hmore
        exact hopen rest hc rfl
      · intro more hc hmore
        obtain ⟨rest, rfl⟩ := hcut (by decide) hmore
        exact hline rest hc rfl

theorem remarks?_strip (inBlock : Bool) (text : Text) : remarks? inBlock text.strip = remarks? inBlock text := by
  obtain ⟨left, right, htext, hleft, hright⟩ := Text.exists_strip text
  calc remarks? inBlock text.strip = remarks? inBlock (left ++ (text.strip ++ right)) := by
        rw [remarks?_blanks_append hleft, remarks?_append_blanks hright]
    _ = remarks? inBlock text := by rw [← List.append_assoc, ← htext]

theorem line?_strip (inBlock : Bool) (line : Text) : line? inBlock line.strip = line? inBlock line := by
  rw [line?, Text.strip_strip, remarks?_strip, line?]

theorem line?_of_strip_eq {other : Text} (h : line.strip = other.strip) (inBlock : Bool) :
    line? inBlock line = line? inBlock other := by
  rw [← line?_strip, h, line?_strip]

theorem line?_blank (hline : line.isBlankText = true) (inBlock : Bool) : line? inBlock line = some inBlock := by
  rw [← line?_strip, Text.strip_of_isBlankText hline]
  cases inBlock <;> decide

theorem exists_dropNewlines (line : Text) :
    ∃ newlines, line = dropNewlines line ++ newlines ∧ ∀ c ∈ newlines, Text.isNewline c = true := by
  exact ⟨line.rtakeWhile Text.isNewline, List.rdropWhile_append_rtakeWhile.symm, fun c hc =>
    List.mem_rtakeWhile_imp hc⟩

theorem strip_dropNewlines (line : Text) : (dropNewlines line).strip = line.strip := by
  obtain ⟨newlines, hline, hnewlines⟩ := exists_dropNewlines line
  have hblanks : ∀ c ∈ newlines, Text.isBlank c = true := fun c hc =>
    Text.isBlank_of_isLineBoundary (Text.isLineBoundary_of_isNewline (hnewlines c hc))
  calc (dropNewlines line).strip = (dropNewlines line ++ newlines).strip := (Text.strip_append_blank hblanks _).symm
    _ = line.strip := by rw [← hline]

theorem line?_dropNewlines (inBlock : Bool) (line : Text) : line? inBlock (dropNewlines line) = line? inBlock line :=
  line?_of_strip_eq (strip_dropNewlines line) inBlock

/-! ## Line after line -/

theorem lines?_cons (inBlock : Bool) (line : Text) (lines : List Text) :
    lines? inBlock (line :: lines) = (line? inBlock line).bind (lines? · lines) :=
  List.foldlM_cons

theorem lines?_append (inBlock : Bool) (lines more : List Text) :
    lines? inBlock (lines ++ more) = (lines? inBlock lines).bind (lines? · more) :=
  List.foldlM_append

theorem lines?_blank (hlines : ∀ line ∈ lines, line.isBlankText = true) (inBlock : Bool) :
    lines? inBlock lines = some inBlock := by
  induction lines with
  | nil => rfl
  | cons line lines ih =>
      obtain ⟨hline, hlines⟩ := List.forall_mem_cons.1 hlines
      rw [lines?_cons, line?_blank hline, Option.bind_some, ih hlines]

theorem lines?_map_dropNewlines (inBlock : Bool) (lines : List Text) :
    lines? inBlock (lines.map dropNewlines) = lines? inBlock lines := by
  induction lines generalizing inBlock with
  | nil => rfl
  | cons line lines ih => simp only [List.map_cons, lines?_cons, line?_dropNewlines, ih]

/-! ## What is left open -/

open Lexer

/-- What the lexer remembers behind remarks: nothing but whether it is in a block comment, and the last quote. -/
def stateAt (inBlock : Bool) (quote : Option Char) : State :=
  ⟨if inBlock then .blockComment else .code, 0, false, quote, []⟩

def isPlain (c : Char) : Bool :=
  Text.isBlank c || c == ';'

theorem not_mem_marks (hc : isPlain c = true) : c ∉ ['"', '\'', '`', '{', '}', '/', '\\'] := by
  have hmarks : ['"', '\'', '`', '{', '}', '/', '\\'].all (!isPlain ·) = true := by decide
  intro hmem
  have hplain := List.all_eq_true.1 hmarks c hmem
  rw [hc] at hplain
  cases hplain

theorem read_plain (quote : Option Char) (text : Text) (htext : text.all isPlain = true) (rest : Text) :
    (stateAt false quote).read (text ++ rest) = (stateAt false quote).read rest := by
  induction text with
  | nil => rfl
  | cons c text ih =>
      rw [List.all_cons, Bool.and_eq_true] at htext
      have hmarks := not_mem_marks htext.1
      rw [List.cons_append, ← ih htext.2]
      refine Source.read_other (fun hc => hmarks (by simp_all)) fun hc => ?_
      exact absurd (show c ∈ _ by simp [hc]) hmarks

theorem read_remarks (hline : ∀ c ∈ line, Text.isNewline c = false) (hread : remarks? inBlock line = some after)
    (quote : Option Char) (rest : Text) :
    (stateAt inBlock quote).read (line ++ '\n' :: rest) = (stateAt after quote).read rest := by
  -- No mark goes on behind the end of the line.
  have hnext {text : Text} {next : Char} (h : (text ++ '\n' :: rest).head? = some next) (hne : next ≠ '\n') :
      ∃ more, text = next :: more := by
    cases text with
    | nil => exact absurd (Option.some.inj h).symm hne
    | cons c text => exact ⟨text, congrArg (· :: text) (Option.some.inj h)⟩
  fun_induction remarks? inBlock line with
  | case1 inBlock =>
      obtain rfl := Option.some.inj hread
      cases inBlock with
      | false => exact read_plain quote ['\n'] (by decide) rest
      | true => exact State.read_single rfl
  | case2 rest ih =>
      rw [List.forall_mem_cons, List.forall_mem_cons] at hline
      rw [← ih hline.2.2 hread]
      exact State.read_pair _ rfl
  | case3 c more hclose ih =>
      rw [List.forall_mem_cons] at hline
      have hopen : (c == '*' && (more ++ '\n' :: rest).head? == some '/') = false := by
        by_contra h
        rw [Bool.not_eq_false, Bool.and_eq_true, beq_iff_eq, beq_iff_eq] at h
        obtain ⟨more, rfl⟩ := hnext h.2 (by decide)
        exact hclose more h.1 rfl
      rw [← ih hline.2 hread, List.cons_append, State.read_single (by simpa [State.takesPair, stateAt] using hopen)]
      simp only [State.after, stateAt, if_true, hopen]
      rfl
  | case4 rest ih =>
      rw [List.forall_mem_cons, List.forall_mem_cons] at hline
      rw [← ih hline.2.2 hread]
      exact State.read_pair _ rfl
  | case5 more =>
      rw [List.forall_mem_cons, List.forall_mem_cons] at hline
      obtain rfl := Option.some.inj hread
      rw [List.cons_append, List.cons_append, State.read_pair _ rfl]
      exact Source.read_lineComment hline.2.2 rfl rest
  | case6 c more hopen hslash hc ih =>
      rw [List.forall_mem_cons] at hline
      rw [← ih hline.2 hread]
      exact read_plain quote [c] (by simp [isPlain, hc]) _
  | case7 c more hopen hslash hc => cases hread

/-- The inside of a directive is the inside of a string, unless a backslash at its end takes the closing quote along. -/
theorem quoted_or_escaped {opener : Char} {body : Text} (hopener : opener ∉ body)
    (hbody : ∀ c ∈ body, Text.isNewline c = false) :
    Source.Quoted opener body ∨
      ∀ after, Source.Quoted opener after → Source.Quoted opener (body ++ opener :: after) := by
  induction body using List.twoStepInduction with
  | nil => exact Or.inl .nil
  | singleton c =>
      by_cases hc : c = '\\'
      · subst hc
        exact Or.inr fun after hafter => .escape opener hafter
      · exact Or.inl (.plain hc (by simpa [eq_comm] using hopener) (hbody c List.mem_cons_self) .nil)
  | cons_cons c next body ih ihnext =>
      obtain ⟨hne, hrest⟩ := List.ne_and_not_mem_of_not_mem_cons hopener
      obtain ⟨hc, hline⟩ := List.forall_mem_cons.1 hbody
      by_cases hescape : c = '\\'
      · subst hescape
        exact (ih (List.not_mem_of_not_mem_cons hrest) (List.forall_mem_cons.1 hline).2).imp (.escape next)
          fun h after hafter => .escape next (h after hafter)
      · exact (ihnext next hrest hline).imp (.plain hescape hne.symm hc)
          fun h after hafter => .plain hescape hne.symm hc (h after hafter)

theorem quoted_of_isPlain {opener : Char} (hopener : opener = '"' ∨ opener = '\'') (htext : text.all isPlain = true)
    (hnewline : ∀ c ∈ text, Text.isNewline c = false) : Source.Quoted opener text := by
  induction text with
  | nil => exact .nil
  | cons c text ih =>
      rw [List.all_cons, Bool.and_eq_true] at htext
      obtain ⟨hc, hnewline⟩ := List.forall_mem_cons.1 hnewline
      have hmarks := not_mem_marks htext.1
      refine .plain (fun h => ?_) (fun h => ?_) hc (ih htext.2 hnewline)
      · exact absurd (show c ∈ _ by simp [h]) hmarks
      · exact absurd (show c ∈ _ by rcases hopener with rfl | rfl <;> simp [h]) hmarks

def isQuote (c : Char) : Bool :=
  c == '"' || c == '\''

theorem isDirective_cons (opener : Char) (rest : Text) :
    isDirective (opener :: rest) = (isQuote opener &&
      match rest.dropWhile (!isQuote ·) with
      | closing :: after => closing == opener && (after.isEmpty || after == [';'])
      | [] => false) :=
  rfl

theorem exists_of_isDirective (h : isDirective text = true) :
    ∃ opener body after, (opener = '"' ∨ opener = '\'') ∧ text = opener :: (body ++ opener :: after) ∧
      opener ∉ body ∧ after.all isPlain = true := by
  cases text with
  | nil => cases h
  | cons opener rest =>
      rw [isDirective_cons, Bool.and_eq_true] at h
      obtain ⟨hopener, hclosed⟩ := h
      split at hclosed
      · next closing after heq =>
          rw [Bool.and_eq_true, beq_iff_eq] at hclosed
          obtain ⟨rfl, hafter⟩ := hclosed
          refine ⟨closing, rest.takeWhile (!isQuote ·), after, by simpa [isQuote] using hopener, ?_, fun hmem => ?_, ?_⟩
          · rw [← heq, List.takeWhile_append_dropWhile]
          · have hquote := List.mem_takeWhile_imp hmem
            rw [hopener] at hquote
            cases hquote
          · rw [Bool.or_eq_true, List.isEmpty_iff, beq_iff_eq] at hafter
            rcases hafter with rfl | rfl <;> decide
      · cases hclosed

theorem read_directive (hline : ∀ c ∈ line, Text.isNewline c = false) (h : isDirective line.strip = true)
    (quote : Option Char) (rest : Text) :
    ∃ last, (stateAt false quote).read (line ++ '\n' :: rest) = (stateAt false last).read rest := by
  obtain ⟨left, right, htext, hleft, hright⟩ := Text.exists_strip line
  obtain ⟨opener, body, after, hopener, hstrip, hbody, hafter⟩ := exists_of_isDirective h
  have hbehind : (after ++ right).all isPlain = true := by
    rw [List.all_append, hafter, Bool.true_and]
    exact List.all_eq_true.2 fun c hc => by simp [isPlain, hright c hc]
  obtain rfl : line = left ++ opener :: (body ++ opener :: (after ++ right)) := by
    rw [htext, hstrip]
    simp
  rw [List.forall_mem_append, List.forall_mem_cons, List.forall_mem_append, List.forall_mem_cons] at hline
  obtain ⟨-, -, hinside, -, hend⟩ := hline
  refine ⟨some opener, ?_⟩
  have hopened (text : Text) : (stateAt false quote).read (opener :: text) =
      State.read ⟨.string, 0, false, some opener, []⟩ text := by
    rcases hopener with rfl | rfl <;> exact State.read_single rfl
  have hescape : opener ≠ '\\' := by rcases hopener with rfl | rfl <;> decide
  have hfront : left.all isPlain = true := List.all_eq_true.2 fun c hc => by simp [isPlain, hleft c hc]
  rw [List.append_assoc, read_plain quote left hfront, List.cons_append, hopened]
  rcases quoted_or_escaped hbody hinside with hquoted | hescaped
  · rw [List.append_assoc, List.cons_append, hquoted.read (Or.inl rfl) hescape]
    calc (stateAt false (some opener)).read (after ++ right ++ '\n' :: rest)
        = (stateAt false (some opener)).read ('\n' :: rest) := read_plain _ _ hbehind _
      _ = (stateAt false (some opener)).read rest := read_plain _ ['\n'] (by decide) rest
  · exact (hescaped _ (quoted_of_isPlain hopener hbehind hend)).read (Or.inr rfl) (by decide) rest

/-- The lexer is behind a line where the line itself tells. -/
theorem read_line (hline : ∀ c ∈ line, Text.isNewline c = false) (hread : line? inBlock line = some after)
    (quote : Option Char) (rest : Text) :
    ∃ last, (stateAt inBlock quote).read (line ++ '\n' :: rest) = (stateAt after last).read rest := by
  unfold line? at hread
  split at hread
  · next hdirective =>
      rw [Bool.and_eq_true, Bool.not_eq_true'] at hdirective
      obtain ⟨rfl, hdirective⟩ := hdirective
      obtain rfl := Option.some.inj hread
      exact read_directive hline hdirective quote rest
  · exact ⟨quote, read_remarks hline hread quote rest⟩

theorem read_lines (hlines : ∀ line ∈ lines, ∀ c ∈ line, Text.isNewline c = false)
    (hread : lines? inBlock lines = some after) (quote : Option Char) :
    ∃ last, (stateAt inBlock quote).read (Text.unlines lines) = some (stateAt after last) := by
  induction lines generalizing inBlock quote with
  | nil =>
      obtain rfl := Option.some.inj hread
      exact ⟨quote, rfl⟩
  | cons line lines ih =>
      obtain ⟨hline, hlines⟩ := List.forall_mem_cons.1 hlines
      rw [lines?_cons, Option.bind_eq_some_iff] at hread
      obtain ⟨between, hfirst, hread⟩ := hread
      obtain ⟨middle, hmiddle⟩ := read_line hline hfirst quote (Text.unlines lines)
      obtain ⟨last, hlast⟩ := ih hlines hread middle
      refine ⟨last, ?_⟩
      rw [← hlast, ← hmiddle]
      simp [Text.unlines]

theorem Clean.isBalanced (h : Clean lines) (hlines : ∀ line ∈ lines, ∀ c ∈ line, Text.isNewline c = false) :
    isBalanced (Text.unlines lines) 0 (Text.unlines lines).length = true := by
  obtain ⟨last, hread⟩ := read_lines hlines h none
  exact (isBalanced_iff_read _).2 ⟨_, hread, rfl⟩

end Header

end ScriptSplit
