import ScriptSplit.Proofs.Stage.Inserting

/-!
# Imports that are inserted again

Import lines that a module misses go below its first line, and each of them is a line of the module then. Besides them
nothing is new but a line feed behind the first line if that had no end, and nothing is gone but the placeholder and a
blank line after it. So the same lines are not inserted again.
-/

namespace ScriptSplit

open Storage (asideOf touchedBy)

/-- An import is neither blank nor the placeholder, whatever is behind it. -/
theorem ImportLine.stays {line : String} (h : ImportLine line) (ending : Text) :
    Text.strip (line.toList ++ ending) ≠ importsPlaceholder.toList ∧
      Text.isBlankText (line.toList ++ ending) = false := by
  obtain ⟨rest, hrest⟩ := h.toList_eq
  have hi : Text.isBlank 'i' = false := by decide
  obtain ⟨rest', hstrip⟩ := Text.strip_cons hi (rest ++ ending)
  rw [hrest, List.cons_append, hstrip]
  refine ⟨fun heq => ?_, by simp [Text.isBlankText, hi]⟩
  exact absurd (List.cons.inj heq).1 (by decide)

namespace Insertion

/-! ## What is added and what is dropped -/

/-- Lines of which the first one gets an end, unless it ends in a line feed or a carriage return. -/
inductive EndsFirst (newline : Text) : List Text → List Text → Prop where
  | ended {lines : List Text} : EndsFirst newline lines lines
  | added {first : Text} {rest : List Text} : endsInNewline first = false →
      EndsFirst newline (first :: rest) ((first ++ newline) :: rest)

inductive DropsPlaceholder : List Text → List Text → Prop where
  | nothing {lines : List Text} : DropsPlaceholder lines lines
  | line {front back : List Text} {line : Text} : (∀ other ∈ front, other.strip ≠ importsPlaceholder.toList) →
      line.strip = importsPlaceholder.toList → DropsPlaceholder (front ++ line :: back) (front ++ back)
  | both {front back : List Text} {line blank : Text} :
      (∀ other ∈ front, other.strip ≠ importsPlaceholder.toList) → line.strip = importsPlaceholder.toList →
        blank.isBlankText = true → DropsPlaceholder (front ++ line :: blank :: back) (front ++ back)

variable {text line newline : Text} {lines kept added rest : List Text} {wanted : List String}

theorem DropsPlaceholder.cons (h : DropsPlaceholder lines kept) (hline : line.strip ≠ importsPlaceholder.toList) :
    DropsPlaceholder (line :: lines) (line :: kept) := by
  cases h with
  | nothing => exact .nothing
  | @line front back placeholder hfront hplaceholder =>
      exact @DropsPlaceholder.line (_ :: front) _ _ (List.forall_mem_cons.2 ⟨hline, hfront⟩) hplaceholder
  | @both front back placeholder blank hfront hplaceholder hblank =>
      exact @DropsPlaceholder.both (_ :: front) _ _ _ (List.forall_mem_cons.2 ⟨hline, hfront⟩) hplaceholder hblank

theorem DropsPlaceholder.head (hline : line.strip = importsPlaceholder.toList) (lines : List Text) :
    DropsPlaceholder (line :: lines) lines :=
  @DropsPlaceholder.line [] lines line (List.forall_mem_nil _) hline

theorem drops_dropPlaceholder (lines : List Text) : DropsPlaceholder lines (dropPlaceholder lines) := by
  induction lines with
  | nil => exact .nothing
  | cons line rest ih =>
      unfold dropPlaceholder
      split
      · next hplaceholder =>
          rw [beq_iff_eq] at hplaceholder
          split
          · split
            · next hblank => exact @DropsPlaceholder.both [] _ _ _ (List.forall_mem_nil _) hplaceholder hblank
            · exact .head hplaceholder _
          · exact .head hplaceholder _
      · next hother => exact ih.cons (by simpa using hother)

theorem dropPlaceholder_cons_of_ne (hline : line.strip ≠ importsPlaceholder.toList) (rest : List Text) :
    dropPlaceholder (line :: rest) = line :: dropPlaceholder rest := by
  simp [dropPlaceholder, hline]

theorem dropPlaceholder_append_of_forall (hadded : ∀ line ∈ added, line.strip ≠ importsPlaceholder.toList) :
    dropPlaceholder (added ++ rest) = added ++ dropPlaceholder rest := by
  induction added with
  | nil => rfl
  | cons line added ih =>
      obtain ⟨hline, hadded⟩ := List.forall_mem_cons.1 hadded
      rw [List.cons_append, dropPlaceholder_cons_of_ne hline, ih hadded]
      rfl

/-- Lines that are put below the first one stay together, and what is around them is what was there, its first line
ended and the placeholder dropped. -/
theorem exists_dropPlaceholder_below (hsome : added ≠ []) (hnewline : endsInNewline newline = true)
    (hadded : ∀ line ∈ added, line.strip ≠ importsPlaceholder.toList ∧ line.isBlankText = false) (lines : List Text) :
    ∃ above rest completed, dropPlaceholder (below newline added lines) = above ++ added ++ rest ∧
      above.length ≤ 1 ∧ (∀ line ∈ above, endsInNewline line = true) ∧ EndsFirst newline lines completed ∧
        DropsPlaceholder completed (above ++ rest) := by
  have hstays : ∀ line ∈ added, line.strip ≠ importsPlaceholder.toList := fun line hline => (hadded line hline).1
  cases lines with
  | nil =>
      refine ⟨[], [], [], ?_, by simp, by simp, .ended, .nothing⟩
      have hdrop : dropPlaceholder (added ++ []) = added ++ dropPlaceholder [] := dropPlaceholder_append_of_forall hstays
      simpa [below, dropPlaceholder] using hdrop
  | cons first lines =>
      obtain ⟨completed, hcompleted, hends, hfirst⟩ : ∃ completed,
          completed = (if endsInNewline first then first else first ++ newline) ∧ endsInNewline completed = true ∧
            EndsFirst newline (first :: lines) (completed :: lines) := by
        by_cases hfirst : endsInNewline first = true
        · exact ⟨first, by rw [if_pos hfirst], hfirst, .ended⟩
        · exact ⟨first ++ newline, by rw [if_neg hfirst], endsInNewline_append hnewline, .added (by simpa using hfirst)⟩
      rw [below, ← hcompleted, List.cons_append]
      by_cases hplaceholder : completed.strip = importsPlaceholder.toList
      · -- the placeholder is the first line, and what is inserted is not blank
        obtain ⟨next, more, rfl⟩ := List.exists_cons_of_ne_nil hsome
        refine ⟨[], lines, completed :: lines, ?_, by simp, by simp, hfirst, .head hplaceholder lines⟩
        have hnext := (hadded next List.mem_cons_self).2
        simp [dropPlaceholder, hplaceholder, hnext]
      · refine ⟨[completed], dropPlaceholder lines, completed :: lines, ?_, by simp, by simpa using hends, hfirst,
          (drops_dropPlaceholder lines).cons hplaceholder⟩
        rw [dropPlaceholder_cons_of_ne hplaceholder, dropPlaceholder_append_of_forall hstays]
        rfl

/-! ## Insertion -/

/-- What comes of a text when lines are inserted that it may miss. -/
structure Inserts (text : Text) (wanted : List String) (new : Text) (count : Nat) : Prop where
  present : ∀ line ∈ wanted, line.toList ∈ new.lines.map Text.strip
  count_eq : count = (wanted.filter fun line => line.toList ∉ text.lines.map Text.strip).length
  /-- Without the lines that were inserted, the text is the old one but for the end of its first line and the
  placeholder. -/
  kept : ∃ newline above rest completed, (newline = ['\n'] ∨ newline = ['\r', '\n']) ∧
    new = (above ++ ((wanted.filter fun line => line.toList ∉ text.lines.map Text.strip).map fun line =>
      line.toList ++ newline) ++ rest).flatten ∧
    above.length ≤ 1 ∧ (∀ line ∈ above, endsInNewline line = true) ∧ EndsFirst newline text.lines completed ∧
      DropsPlaceholder completed (above ++ rest)
  again : insertImports new wanted = (new, 0)

theorem missing_eq (text : Text) (wanted : List String) :
    missing text wanted = wanted.filter fun line => line.toList ∉ text.lines.map Text.strip := by
  unfold missing
  refine List.filter_congr fun line _ => ?_
  rw [List.contains_eq_mem, decide_not]

theorem inserts_insertImports (text : Text) (hwanted : ∀ line ∈ wanted, ImportLine line) :
    Inserts text wanted (insertImports text wanted).1 (insertImports text wanted).2 := by
  have hmissing := missing_insertImports text hwanted
  have hcount : (insertImports text wanted).2 = (missing text wanted).length := by
    unfold insertImports
    by_cases hnone : missing text wanted = []
    · simp [hnone]
    · simp [hnone]
  refine ⟨fun line hline => ?_, ?_, ?_, insertImports_of_missing hmissing⟩
  · by_contra hnot
    rw [missing_eq, List.filter_eq_nil_iff] at hmissing
    exact hmissing line hline (by simpa using hnot)
  · rw [hcount, missing_eq]
  · rw [insertImports_fst, merged, ← missing_eq]
    by_cases hnone : missing text wanted = []
    · refine ⟨['\n'], [], text.lines, text.lines, Or.inl rfl, ?_, by simp, by simp, .ended, .nothing⟩
      simp [hnone]
    · have hadded : ∀ line ∈ (missing text wanted).map fun line => line.toList ++ Insertion.newline text.lines,
          line.strip ≠ importsPlaceholder.toList ∧ line.isBlankText = false := by
        intro line hline
        obtain ⟨wanted, hmem, rfl⟩ := List.mem_map.1 hline
        exact (hwanted wanted (List.mem_filter.1 hmem).1).stays _
      obtain ⟨above, rest, completed, hdrop, hkept⟩ := exists_dropPlaceholder_below (by simpa using hnone)
        (endsInNewline_newline text.lines) hadded text.lines
      rw [if_neg (by simpa using hnone), hdrop]
      exact ⟨_, above, rest, completed, newline_cases text.lines, rfl, hkept⟩

end Insertion

/-! ## Files -/

namespace Run

/-- Lines are inserted into a file once: the file has all of them then, and nothing else in it is new or gone. Inserting
them again changes nothing. -/
theorem insertInto_idempotent {files : Files} {directory : Path} {name : String} {text : Text} {wanted : List String}
    (hname : name ≠ "..") (htext : files.textAt? (directory.child name) = some text)
    (haside : files.entry? (asideOf directory name files.current) ≠ some .directory)
    (hwanted : ∀ line ∈ wanted, ImportLine line) :
    ∃ new count after, insertInto (directory.child name) wanted files = .ok count after ∧
      after.textAt? (directory.child name) = some new ∧
        Files.Changes (touchedBy directory name files.current) ∅ files after ∧
          Insertion.Inserts text wanted new count ∧ insertInto (directory.child name) wanted after = .ok 0 after := by
  have hinserts := Insertion.inserts_insertImports text hwanted
  have hmissing := missing_insertImports text hwanted
  obtain ⟨content, hat, -⟩ := Files.exists_of_textAt? htext
  obtain ⟨hstanding, hentry⟩ := Files.at?_child_eq_some hname hat
  have htarget : files.entry? (directory.place files.current ++ [name]) ≠ some .directory := by
    rw [hentry]
    exact nofun
  obtain ⟨after, hrun⟩ : ∃ after,
      insertInto (directory.child name) wanted files = .ok (insertImports text wanted).2 after := by
    obtain ⟨written, hwritten, -⟩ :=
      Storage.writeText_standing_ok hstanding hname htarget haside (insertImports text wanted).1
    unfold insertInto
    rw [Storage.bind_eq (Storage.readText_eq_ok.2 ⟨rfl, htext⟩)]
    simp only
    split
    · next hcount => exact ⟨files, by rw [hcount]; rfl⟩
    · exact ⟨written, by rw [Storage.bind_eq hwritten]; rfl⟩
  obtain ⟨hchanges, own, hown, hafter⟩ := insertInto_changes hstanding hname hrun
  obtain rfl : text = own := Option.some.inj (htext.symm.trans hown)
  exact ⟨_, _, after, hrun, hafter, hchanges, hinserts, insertInto_settled hafter hmissing⟩

def unlinked : Text :=
  "'use strict';\n\n// imports will be added by linker\n\nfunction a() \x7b return b(); \x7d\n".toList

def unlinkedFiles : Files where
  entries := [(["out"], .directory), (["out", "a.js"], .file (.text unlinked))]

theorem insertInto_idempotent_unlinked :
    let path := (Path.ofString "out").child "a.js"
    let wanted := ["import \x7b b \x7d from './b.js';"]
    ∃ new after, insertInto path wanted unlinkedFiles = .ok 1 after ∧ after.textAt? path = some new ∧
      Insertion.Inserts unlinked wanted new 1 ∧ insertInto path wanted after = .ok 0 after := by
  intro path wanted
  have hwanted : ∀ line ∈ wanted, ImportLine line := by
    refine List.forall_mem_singleton.2 ⟨by decide, Text.unbroken_of_all (by decide), ?_⟩
    decide +kernel
  obtain ⟨new, count, after, hrun, hafter, -, hinserts, hagain⟩ :=
    @insertInto_idempotent unlinkedFiles (Path.ofString "out") "a.js" unlinked _ (by decide) (by decide +kernel)
      (by decide +kernel) hwanted
  obtain rfl : count = 1 := by
    rw [hinserts.count_eq]
    decide +kernel
  exact ⟨new, after, hrun, hafter, hinserts, hagain⟩

end Run

end ScriptSplit
