import ScriptSplit.Proofs.Link.Bindings
import ScriptSplit.Proofs.Link.Mentions
import ScriptSplit.Proofs.Link.Needs
import ScriptSplit.Proofs.Stage.Link
import ScriptSplit.Proofs.Text.Lines

/-!
# Imports that have been inserted

Once import lines are inserted, the module has every one of them, so that none is missing any more. And it mentions
what it did before: a line that imports a name mentions that name and the words of the statement alone.
-/

namespace ScriptSplit

open Text (EndsLine IsLine Unbroken Word isName isNamePart)

/-! ## Import statements -/

def importStatement (name file : String) : String :=
  "import \x7b " ++ name ++ " \x7d from './" ++ file ++ "';"

theorem importStatement_toList (name file : String) :
    (importStatement name file).toList =
      "import \x7b ".toList ++ (name.toList ++ (" \x7d from ".toList ++
        ("'./".toList ++ (file.toList ++ "';".toList)))) := by
  simp [importStatement, String.toList_append]

theorem Layout.importLine?_eq {layout : Layout} {importer target name : String}
    (himporter : isSlug importer = true) (hbasename : '/' ∉ layout.basename.toList)
    (hget : layout.moduleOfName.get? name = some target) (htarget : isSlug target = true) :
    layout.importLine? importer name =
      some (importStatement name (moduleFileName target layout.basename ".js")) := by
  have hfile := moduleFileName_isName (c := 'j') htarget hbasename ".js" (by decide) (by decide)
    (by decide)
  rw [importLine?, hget, Option.map_some, Run.layout_file_eq himporter hbasename,
    Run.layout_file_eq htarget hbasename, Path.child_parent, Path.specifierFrom_child _ hfile,
    importStatement]
  simp only [String.append_assoc]
  rfl

/-- Whether a text can be inserted as an import: it is one line without blanks around it. -/
structure ImportLine (line : String) : Prop where
  word : "import ".toList <+: line.toList
  unbroken : Unbroken line.toList
  stripped : Text.strip line.toList = line.toList

theorem ImportLine.toList_eq {line : String} (h : ImportLine line) : ∃ rest, line.toList = 'i' :: rest := by
  obtain ⟨rest, hrest⟩ := h.word
  exact ⟨_, hrest.symm⟩

structure Imports (name file line : String) : Prop where
  eq : line = importStatement name file
  named : isName name.toList = true
  unbroken : Unbroken file.toList

namespace Reference

theorem insideQuotes_of_not_mem {text : Text} (h : ∀ quote ∈ quotes, quote ∉ text) :
    insideQuotes text = false := by
  refine insideQuotes_eq_false_iff.2 fun quote hquote => ?_
  rw [List.count_eq_zero_of_not_mem (h quote hquote)]
  exact Even.zero

end Reference

namespace Imports

variable {name file line other : String} (h : Imports name file line)

include h

theorem line_unbroken : Unbroken line.toList := by
  have hwords : ∀ word ∈ ["import \x7b ", " \x7d from ", "'./", "';"], Unbroken word.toList := by
    have hall : ∀ word ∈ ["import \x7b ", " \x7d from ", "'./", "';"],
        (word.toList.all fun c => !Text.isLineBoundary c) = true := by decide
    exact fun word hword => Text.unbroken_of_all (hall word hword)
  rw [h.eq, importStatement_toList]
  exact (hwords _ (by simp)).append ((Text.unbroken_of_isName h.named).append
    ((hwords _ (by simp)).append ((hwords _ (by simp)).append
      (h.unbroken.append (hwords _ (by simp))))))

theorem toList_eq : ∃ middle, line.toList = 'i' :: (middle ++ [';']) := by
  rw [h.eq, importStatement_toList]
  exact ⟨"mport \x7b ".toList ++ (name.toList ++ (" \x7d from ".toList ++
    ("'./".toList ++ (file.toList ++ ['\''])))), by simp⟩

theorem strip_eq : Text.strip line.toList = line.toList := by
  obtain ⟨middle, hmiddle⟩ := h.toList_eq
  rw [hmiddle]
  exact Text.strip_eq_self (by decide) (by decide) middle

theorem importLine : ImportLine line where
  word := by
    rw [h.eq, importStatement_toList]
    exact ⟨'\x7b' :: ' ' :: (name.toList ++ (" \x7d from ".toList ++ ("'./".toList ++ (file.toList ++ "';".toList)))),
      rfl⟩
  unbroken := h.line_unbroken
  stripped := h.strip_eq

theorem mentions {left : Text} (hleft : ∀ c ∈ left, Text.isBlank c = true) (right : Text) :
    Mentions (left ++ line.toList ++ right) name.toList := by
  refine ⟨left ++ "import \x7b ".toList,
    " \x7d from ".toList ++ ("'./".toList ++ (file.toList ++ "';".toList)) ++ right,
    ⟨?_, ?_, rfl⟩, ?_⟩
  · rw [h.eq, importStatement_toList]
    simp only [List.append_assoc]
  · rw [List.getLast?_append]
    rfl
  · apply Reference.insideQuotes_of_not_mem
    intro quote hquote hmem
    have hword : quote ∉ "import \x7b ".toList ∧ Text.isBlank quote = false := by
      simp only [Reference.quotes, List.mem_cons, List.not_mem_nil, or_false] at hquote
      rcases hquote with rfl | rfl | rfl <;> decide
    rcases List.mem_append.1 (Text.mem_of_mem_lastLine hmem) with hblank | himport
    · rw [hleft quote hblank] at hword
      exact absurd hword.2 (by simp)
    · exact hword.1 himport

/-- A statement that imports a name mentions no other one but its own words: the file stands in quotes. -/
theorem eq_of_mentions (hquote : '\'' ∉ file.toList) (hother : Text.isName other.toList = true)
    (hmentions : Mentions line.toList other.toList) :
    other = name ∨ other = "import" ∨ other = "from" := by
  obtain ⟨before, after, hword, hquotes⟩ := hmentions
  have hfeed : '\n' ∉ before := by
    intro hmem
    have hboundary := h.line_unbroken '\n' (by rw [hword.eq]; exact List.mem_append_left _ hmem)
    exact absurd hboundary (by decide)
  rw [Text.lastLine_of_not_mem hfeed] at hquotes
  have hparts := Text.isNamePart_of_isName h.named
  rw [h.eq, importStatement_toList] at hword
  rcases hword.of_append hother (Or.inl rfl) with ⟨_, -, himport⟩ | ⟨before₁, rfl, hword₁⟩
  · rw [show "import \x7b ".toList = "import".toList ++ " \x7b ".toList from rfl] at himport
    rcases himport.of_append hother (Or.inr rfl) with ⟨_, -, hinside⟩ | ⟨_, -, hinside⟩
    · exact Or.inr (Or.inl (String.toList_inj.1 (hinside.eq_of_forall (by simp; decide))))
    · exact absurd hinside (Word.not_of_forall hother (by simp; decide))
  rcases hword₁.of_append hother (Or.inr rfl) with ⟨_, -, hinside⟩ | ⟨before₂, rfl, hword₂⟩
  · exact Or.inl (String.toList_inj.1 (hinside.eq_of_forall hparts))
  rcases hword₂.of_append hother (Or.inl rfl) with ⟨_, -, hfrom⟩ | ⟨before₃, rfl, hword₃⟩
  · rw [show " \x7d from ".toList = " \x7d ".toList ++ ("from".toList ++ " ".toList) from rfl] at hfrom
    rcases hfrom.of_append hother (Or.inl rfl) with ⟨_, -, hinside⟩ | ⟨_, -, hinside⟩
    · exact absurd hinside (Word.not_of_forall hother (by simp; decide))
    · rcases hinside.of_append hother (Or.inr rfl) with ⟨_, -, hinside⟩ | ⟨_, -, hinside⟩
      · exact Or.inr (Or.inr (String.toList_inj.1 (hinside.eq_of_forall (by simp; decide))))
      · exact absurd hinside (Word.not_of_forall hother (by simp; decide))
  rcases hword₃.of_append hother (Or.inl rfl) with ⟨_, -, hinside⟩ | ⟨before₄, rfl, hword₄⟩
  · exact absurd hinside (Word.not_of_forall hother (by simp; decide))
  rcases hword₄.of_append hother (Or.inr rfl) with ⟨_, -, hinside⟩ | ⟨_, -, hinside⟩
  · -- a word in the file has one single quote before it
    exfalso
    have hname : '\'' ∉ name.toList := fun hmem =>
      absurd (hparts _ hmem) (by decide)
    have hbefore : '\'' ∉ before₄ := fun hmem => hquote (by
      rw [hinside.eq]
      exact List.mem_append_left _ hmem)
    have hcount : ("import \x7b ".toList ++ (name.toList ++ (" \x7d from ".toList ++
        ("'./".toList ++ before₄)))).count '\'' = 1 := by
      simp only [List.count_append, List.count_eq_zero_of_not_mem hname,
        List.count_eq_zero_of_not_mem hbefore]
      rfl
    unfold Reference.insideQuotes at hquotes
    simp only [List.any_cons, hcount] at hquotes
    simp at hquotes
  · exact absurd hinside (Word.not_of_forall hother (by simp; decide))

end Imports

/-! ## The lines of a module after insertion -/

namespace Insertion

variable {text newline : Text} {wanted : List String} {line : String}

def merged (text : Text) (wanted : List String) : List Text :=
  if (missing text wanted).isEmpty then text.lines
  else
    dropPlaceholder (below (Insertion.newline text.lines)
      ((missing text wanted).map fun line => line.toList ++ Insertion.newline text.lines) text.lines)

theorem insertImports_fst (text : Text) (wanted : List String) :
    (insertImports text wanted).1 = (merged text wanted).flatten := by
  unfold insertImports merged
  split
  · next hnone =>
      rw [if_pos hnone]
      exact (Text.flatten_lines text).symm
  · next hsome => rw [if_neg hsome]

theorem newline_cases (lines : List Text) :
    Insertion.newline lines = ['\n'] ∨ Insertion.newline lines = ['\r', '\n'] := by
  unfold Insertion.newline
  split
  · split
    · exact Or.inr rfl
    · exact Or.inl rfl
  · exact Or.inl rfl

theorem newline_ne_nil (lines : List Text) : Insertion.newline lines ≠ [] := by
  rcases newline_cases lines with h | h <;> simp [h]

theorem isLineBoundary_of_mem_newline {lines : List Text} {c : Char}
    (hc : c ∈ Insertion.newline lines) : Text.isLineBoundary c = true := by
  have hcases : c = '\n' ∨ c = '\r' := by
    rcases newline_cases lines with h | h
    · rw [h] at hc
      exact Or.inl (List.mem_singleton.1 hc)
    · rw [h] at hc
      simpa [or_comm] using hc
  rcases hcases with rfl | rfl <;> decide

theorem endsLine_of_endsInNewline {line : Text} (h : endsInNewline line = true) : EndsLine line := by
  unfold endsInNewline at h
  cases hlast : line.getLast? with
  | none => simp [hlast] at h
  | some c =>
      refine ⟨c, hlast, ?_⟩
      rw [hlast, Option.any_some, Text.isNewline, Bool.or_eq_true, beq_iff_eq, beq_iff_eq] at h
      rcases h with rfl | rfl
      · decide
      · decide

/-- A line with a row in it is ended, unless nothing comes after it. -/
structure Stands (front : List Text) (row ending line : Text) (back : List Text) : Prop where
  isLine : IsLine row ending line
  front : ∀ other ∈ front, EndsLine other
  back : ending = [] → back = []

theorem exists_stands {line : Text} (hline : line ∈ text.lines) :
    ∃ front row ending back, text.lines = front ++ line :: back ∧
      Stands front row ending line back := by
  obtain ⟨front, back, hsplit⟩ := List.append_of_mem hline
  obtain ⟨row, ending, hshape⟩ := Text.isLine_of_mem_lines hline
  have hpairs := text.lines_pairwise
  rw [hsplit, List.pairwise_append, List.pairwise_cons] at hpairs
  obtain ⟨-, ⟨hends, -⟩, hfront⟩ := hpairs
  refine ⟨front, row, ending, back, hsplit, hshape, ?_, ?_⟩
  · exact fun other hother => hfront other hother line List.mem_cons_self
  · rintro rfl
    cases back with
    | nil => rfl
    | cons next back =>
        obtain ⟨c, hc, hboundary⟩ := hends next List.mem_cons_self
        rw [hshape.eq, List.append_nil] at hc
        rw [hshape.row c (List.mem_of_getLast? hc)] at hboundary
        cases hboundary

/-- What is put below the first line keeps every line, with a boundary at the end of the first. -/
theorem Stands.below {front back added lines : List Text} {row ending line : Text}
    (hadded : ∀ other ∈ added, EndsLine other) (h : Stands front row ending line back) :
    ∃ front' ending' line' back',
      below (Insertion.newline lines) added (front ++ line :: back) = front' ++ line' :: back' ∧
        Stands front' row ending' line' back' := by
  have hnewline := endsLine_of_endsInNewline (endsInNewline_newline lines)
  have hfirst : ∀ first : Text, EndsLine
      (if endsInNewline first then first else first ++ Insertion.newline lines) := by
    intro first
    split
    · next hends => exact endsLine_of_endsInNewline hends
    · exact hnewline.append first
  obtain ⟨⟨heq, hrow, hending⟩, hfront, hback⟩ := h
  cases front with
  | nil =>
      by_cases hends : endsInNewline line = true
      · refine ⟨[], ending, line, added ++ back, by simp [Insertion.below, hends], ⟨heq, hrow, hending⟩,
          by simp, ?_⟩
        rintro rfl
        obtain ⟨c, hc, hboundary⟩ := endsLine_of_endsInNewline hends
        rw [heq, List.append_nil] at hc
        rw [hrow c (List.mem_of_getLast? hc)] at hboundary
        cases hboundary
      · refine ⟨[], ending ++ Insertion.newline lines, line ++ Insertion.newline lines, added ++ back,
          by simp [Insertion.below, hends], ⟨by rw [heq, List.append_assoc], hrow, ?_⟩, by simp, ?_⟩
        · intro c hc
          exact (List.mem_append.1 hc).elim (hending c) isLineBoundary_of_mem_newline
        · exact fun hnil => absurd (List.append_eq_nil_iff.1 hnil).2 (newline_ne_nil lines)
  | cons first front =>
      refine ⟨(if endsInNewline first then first else first ++ Insertion.newline lines) ::
        (added ++ front), ending, line, back, by simp [Insertion.below], ⟨heq, hrow, hending⟩, ?_, hback⟩
      refine List.forall_mem_cons.2 ⟨hfirst first, ?_⟩
      intro other hother
      rcases List.mem_append.1 hother with hother | hother
      · exact hadded other hother
      · exact hfront other (List.mem_cons_of_mem _ hother)

theorem Stands.dropPlaceholder {front back : List Text} {row ending line : Text}
    (hline : (line.strip == importsPlaceholder.toList) = false) (hblank : line.isBlankText = false)
    (h : Stands front row ending line back) :
    ∃ front' back', dropPlaceholder (front ++ line :: back) = front' ++ line :: back' ∧
      Stands front' row ending line back' := by
  obtain ⟨front', back', hfront, hback, heq⟩ := dropPlaceholder_append hline hblank front back
  refine ⟨front', back', heq, h.isLine, fun other hother => h.front other (hfront.subset hother), ?_⟩
  intro hnil
  rw [h.back hnil] at hback
  exact List.sublist_nil.1 hback

/-- A line that is missing is put below the first one. -/
theorem exists_stands_below (h : ImportLine line) (hmissing : line ∈ missing text wanted) :
    ∃ front back, below (Insertion.newline text.lines)
        ((missing text wanted).map fun line => line.toList ++ Insertion.newline text.lines) text.lines =
          front ++ (line.toList ++ Insertion.newline text.lines) :: back ∧
      Stands front line.toList (Insertion.newline text.lines)
        (line.toList ++ Insertion.newline text.lines) back := by
  have hnewline := endsInNewline_newline text.lines
  obtain ⟨before, after, hsplit⟩ := List.append_of_mem hmissing
  rw [hsplit, List.map_append, List.map_cons]
  have hbefore : ∀ other ∈ before.map fun line => line.toList ++ Insertion.newline text.lines,
      endsInNewline other = true := by
    intro other hother
    obtain ⟨wanted, -, rfl⟩ := List.mem_map.1 hother
    exact endsInNewline_append hnewline
  obtain ⟨front, back, hfront, hbelow⟩ := below_eq hnewline hbefore
    (line.toList ++ Insertion.newline text.lines)
    (after.map fun line => line.toList ++ Insertion.newline text.lines) text.lines
  refine ⟨front, back, hbelow, ⟨rfl, h.unbroken, fun _ => isLineBoundary_of_mem_newline⟩, ?_, ?_⟩
  · exact fun other hother => endsLine_of_endsInNewline (hfront other hother)
  · exact fun hnil => absurd hnil (newline_ne_nil _)

theorem exists_stands_merged (text : Text) (h : ImportLine line) (hwanted : line ∈ wanted) :
    ∃ front row ending line' back, merged text wanted = front ++ line' :: back ∧
      Stands front row ending line' back ∧ Text.strip row = line.toList := by
  have hpresent : line ∉ missing text wanted → ∃ front row ending line' back,
      text.lines = front ++ line' :: back ∧ Stands front row ending line' back ∧
        Text.strip row = line.toList := by
    intro hnot
    have hmem : line.toList ∈ text.lines.map Text.strip := by
      by_contra hfresh
      exact hnot (by simpa [missing, hwanted] using hfresh)
    obtain ⟨found, hfound, hstrip⟩ := List.mem_map.1 hmem
    obtain ⟨front, row, ending, back, hsplit, hstands⟩ := exists_stands hfound
    exact ⟨front, row, ending, found, back, hsplit, hstands, by rw [← hstands.isLine.strip_eq, hstrip]⟩
  unfold merged
  split
  · next hnone => exact hpresent (by simp [List.isEmpty_iff.1 hnone])
  · obtain ⟨front, row, ending, line', back, hbelow, hstands, hstrip⟩ :
        ∃ front row ending line' back, below (Insertion.newline text.lines)
            ((missing text wanted).map fun line => line.toList ++ Insertion.newline text.lines)
            text.lines = front ++ line' :: back ∧
          Stands front row ending line' back ∧ Text.strip row = line.toList := by
      by_cases hmissing : line ∈ missing text wanted
      · obtain ⟨front, back, hbelow, hstands⟩ := exists_stands_below h hmissing
        exact ⟨front, _, _, _, back, hbelow, hstands, h.stripped⟩
      · obtain ⟨front, row, ending, found, back, hsplit, hstands, hstrip⟩ := hpresent hmissing
        have hadded : ∀ other ∈ (missing text wanted).map fun line =>
            line.toList ++ Insertion.newline text.lines, EndsLine other := by
          intro other hother
          obtain ⟨wanted, -, rfl⟩ := List.mem_map.1 hother
          exact (endsLine_of_endsInNewline (endsInNewline_newline _)).append _
        obtain ⟨front', ending', line', back', hbelow, hstands'⟩ := hstands.below hadded
        rw [← hsplit] at hbelow
        exact ⟨front', row, ending', line', back', hbelow, hstands', hstrip⟩
    obtain ⟨rest, hrest⟩ := h.toList_eq
    have hline : Text.strip line' = 'i' :: rest := by
      rw [hstands.isLine.strip_eq, hstrip, hrest]
    have hblank : Text.isBlankText line' = false := by
      obtain ⟨left, right, heq, -, -⟩ := Text.exists_strip line'
      rw [heq, hline]
      simp [Text.isBlankText, show Text.isBlank 'i' = false by decide]
    obtain ⟨front', back', hdrop, hstands'⟩ := hstands.dropPlaceholder (by rw [hline]; rfl) hblank
    rw [hbelow]
    exact ⟨front', row, ending, line', back', hdrop, hstands', hstrip⟩

end Insertion

/-- Once imports are inserted, none of them is missing. -/
theorem missing_insertImports (text : Text) {wanted : List String}
    (hwanted : ∀ line ∈ wanted, ImportLine line) :
    Insertion.missing (insertImports text wanted).1 wanted = [] := by
  unfold Insertion.missing
  rw [List.filter_eq_nil_iff]
  intro line hline
  have himport := hwanted line hline
  obtain ⟨front, row, ending, line', back, hmerged, hstands, hstrip⟩ :=
    Insertion.exists_stands_merged text himport hline
  have hne : row ≠ [] := by
    obtain ⟨rest, hrest⟩ := himport.toList_eq
    rintro rfl
    rw [hrest] at hstrip
    cases hstrip
  have hafter : ∀ c ∈ (ending ++ back.flatten).head?, Text.isLineBoundary c = true := by
    intro c hc
    cases ending with
    | nil => simp [hstands.back rfl] at hc
    | cons first ending =>
        obtain rfl : first = c := by simpa using hc
        exact hstands.isLine.ending first List.mem_cons_self
  have hmem := Text.mem_lines_append (Text.endsLine_flatten hstands.front) hstands.isLine.row hne hafter
  have htext : (insertImports text wanted).1 = front.flatten ++ (row ++ (ending ++ back.flatten)) := by
    rw [Insertion.insertImports_fst, hmerged, List.flatten_append, List.flatten_cons,
      hstands.isLine.eq, List.append_assoc]
  rw [htext]
  simpa [hstrip] using hmem

/-! ## What a module mentions after insertion -/

/-- Whether nothing but line feeds ends lines inside a text. -/
def Text.BrokenByFeeds (text : Text) : Prop :=
  ∀ line ∈ text.lines, line.getLast? = some '\n' ∨ Unbroken line

instance (text : Text) : Decidable text.BrokenByFeeds := by
  unfold Text.BrokenByFeeds Unbroken
  infer_instance

theorem Text.BrokenByFeeds.pairwise {text : Text} (h : text.BrokenByFeeds) :
    text.lines.Pairwise fun line _ => line.getLast? = some '\n' := by
  refine (text.lines_pairwise).imp_of_mem ?_
  intro line next hline _ hends
  refine (h line hline).resolve_right fun hunbroken => ?_
  obtain ⟨c, hc, hboundary⟩ := hends
  rw [hunbroken c (List.mem_of_getLast? hc)] at hboundary
  cases hboundary

namespace Insertion

variable {text : Text} {wanted : List String}

theorem getLast?_newline (lines : List Text) : (Insertion.newline lines).getLast? = some '\n' := by
  rcases newline_cases lines with h | h <;> rw [h] <;> rfl

theorem below_pairwise {newline : Text} {added lines : List Text}
    (hnewline : newline.getLast? = some '\n')
    (hadded : ∀ line ∈ added, line.getLast? = some '\n')
    (hlines : lines.Pairwise fun line _ => line.getLast? = some '\n')
    (hfirst : ∀ first ∈ lines.head?, first.getLast? = some '\n' ∨ endsInNewline first = false) :
    (below newline added lines).Pairwise fun line _ => line.getLast? = some '\n' := by
  have hall : ∀ {lines : List Text}, (∀ line ∈ lines, line.getLast? = some '\n') →
      lines.Pairwise fun line _ => line.getLast? = some '\n' :=
    fun hlines => List.pairwise_of_forall_mem_list fun line hline _ _ => hlines line hline
  cases lines with
  | nil => exact hall hadded
  | cons first rest =>
      have hended : (if endsInNewline first then first else first ++ newline).getLast? = some '\n' := by
        split
        · next hends => exact (hfirst first rfl).resolve_right (by simp [hends])
        · rw [List.getLast?_append, hnewline]
          rfl
      have hfront : ∀ line ∈ (if endsInNewline first then first else first ++ newline) :: added,
          line.getLast? = some '\n' := List.forall_mem_cons.2 ⟨hended, hadded⟩
      exact List.pairwise_append.2 ⟨hall hfront, (List.pairwise_cons.1 hlines).2,
        fun line hline _ _ => hfront line hline⟩

theorem merged_pairwise (h : text.BrokenByFeeds) (wanted : List String) :
    (merged text wanted).Pairwise fun line _ => line.getLast? = some '\n' := by
  unfold merged
  split
  · exact h.pairwise
  refine List.Pairwise.sublist (dropPlaceholder_sublist _) (below_pairwise (getLast?_newline _) ?_
    h.pairwise ?_)
  · intro line hline
    obtain ⟨wanted, -, rfl⟩ := List.mem_map.1 hline
    rw [List.getLast?_append, getLast?_newline]
    rfl
  · intro first hfirst
    refine (h first (List.mem_of_head? hfirst)).imp_right fun hunbroken => ?_
    by_contra hends
    obtain ⟨c, hc, hboundary⟩ := endsLine_of_endsInNewline (by simpa using hends)
    rw [hunbroken c (List.mem_of_getLast? hc)] at hboundary
    cases hboundary

theorem mentions_of_mem_merged {name line : Text} (hname : isName name = true)
    (hline : line ∈ merged text wanted) (hmentions : Mentions line name) :
    (∃ own ∈ text.lines, Mentions own name) ∨ ∃ added ∈ wanted, Mentions added.toList name := by
  have hnewline : ∀ c ∈ Insertion.newline text.lines, isNamePart c = false := fun c hc =>
    Text.isNamePart_of_isLineBoundary (isLineBoundary_of_mem_newline hc)
  have hadded : ∀ added ∈ (missing text wanted).map fun line =>
      line.toList ++ Insertion.newline text.lines, Mentions added name →
        ∃ added ∈ wanted, Mentions added.toList name := by
    intro added hadded hmentions
    obtain ⟨line, hline, rfl⟩ := List.mem_map.1 hadded
    rw [mentions_append_of_forall hname hnewline] at hmentions
    exact ⟨line, (List.mem_filter.1 hline).1, hmentions⟩
  unfold merged at hline
  split at hline
  · exact Or.inl ⟨line, hline, hmentions⟩
  have hbelow := (dropPlaceholder_sublist _).subset hline
  cases hlines : text.lines with
  | nil =>
      rw [hlines] at hbelow hadded
      exact Or.inr (hadded line hbelow hmentions)
  | cons first rest =>
      rw [hlines] at hbelow hadded hnewline
      rcases List.mem_cons.1 hbelow with rfl | hbelow
      · refine Or.inl ⟨first, List.mem_cons_self, ?_⟩
        split at hmentions
        · exact hmentions
        · exact (mentions_append_of_forall hname hnewline).1 hmentions
      · rcases List.mem_append.1 hbelow with hnew | hrest
        · exact Or.inr (hadded line hnew hmentions)
        · exact Or.inl ⟨line, List.mem_cons_of_mem _ hrest, hmentions⟩

end Insertion

section Mentions

variable {text : Text} {wanted : List String} {name : String} (hfeeds : text.BrokenByFeeds)
  (hname : isName name.toList = true)

include hfeeds hname

/-- With its imports, a module mentions nothing that it did not mention before and that no import does. -/
theorem mentions_of_insertImports
    (hmentions : Mentions (insertImports text wanted).1 name.toList) :
    Mentions text name.toList ∨ ∃ line ∈ wanted, Mentions line.toList name.toList := by
  rw [Insertion.insertImports_fst, mentions_flatten hname (Insertion.merged_pairwise hfeeds wanted)]
    at hmentions
  obtain ⟨line, hline, hmentions⟩ := hmentions
  refine (Insertion.mentions_of_mem_merged hname hline hmentions).imp_left fun hown => ?_
  rw [← Text.flatten_lines text]
  exact (mentions_flatten hname hfeeds.pairwise).2 hown

theorem mentions_insertImports {file line : String} (h : Imports name file line)
    (hwanted : line ∈ wanted) : Mentions (insertImports text wanted).1 name.toList := by
  rw [Insertion.insertImports_fst, mentions_flatten hname (Insertion.merged_pairwise hfeeds wanted)]
  obtain ⟨front, row, ending, line', back, hmerged, hstands, hstrip⟩ :=
    Insertion.exists_stands_merged text h.importLine hwanted
  refine ⟨line', by simp [hmerged], ?_⟩
  obtain ⟨left, right, heq, hleft, -⟩ := Text.exists_strip line'
  rw [heq, hstands.isLine.strip_eq, hstrip]
  exact h.mentions hleft right

end Mentions

end ScriptSplit
