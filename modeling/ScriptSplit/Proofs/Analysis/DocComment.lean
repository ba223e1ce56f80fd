import ScriptSplit.Proofs.Emit.Slices

/-!
# Doc comments in front of declarations

What is found in front of a declaration begins with the mark of a doc comment, not far away, and it ends with a mark
that closes a comment and blanks. It is a single comment unless the two stars of the first mark close it at once: the
closing mark is looked for behind all three characters, so that an empty comment is taken to go on. Where it is a
single comment, the declaration is as balanced with it as without it.
-/

namespace ScriptSplit

variable {text : Text} {offset pos : Nat}

/-- A block comment that the first closing mark behind its opening one ends, with blanks behind it. -/
def IsComment (text : Text) : Prop :=
  ∃ body blanks, text = '/' :: '*' :: (body ++ '*' :: '/' :: blanks) ∧ ¬ ['*', '/'] <:+: body ++ ['*'] ∧
    ∀ c ∈ blanks, Text.isBlank c = true

theorem docCommentStart_window (h : docCommentStart text offset = some pos) : offset - docLookback ≤ pos := by
  unfold docCommentStart at h
  generalize "/**".toList = opener, "*/".toList = closer at h
  dsimp only at h
  split at h
  · cases h
  · split at h
    · cases h
    · split at h
      · cases h
      · split at h
        · obtain rfl := Option.some.inj h
          exact Nat.le_add_right _ _
        · cases h

theorem slice_ne_nil_of_docComment (hoffset : offset ≤ text.length) (h : docCommentStart text offset = some pos) :
    text.slice pos offset ≠ [] := by
  obtain ⟨-, body, blanks, hslice, -⟩ := docCommentStart_eq_some h hoffset
  rw [hslice]
  exact List.cons_ne_nil _ _

theorem lt_of_docComment (hoffset : offset ≤ text.length) (h : docCommentStart text offset = some pos) :
    pos < offset := by
  have hlength := List.length_pos_iff.2 (slice_ne_nil_of_docComment hoffset h)
  rw [Text.length_slice hoffset] at hlength
  omega

theorem not_isComment_of_empty {body blanks : Text} :
    ¬ IsComment ("/**".toList ++ ('/' :: body ++ ("*/".toList ++ blanks))) := by
  rintro ⟨inside, behind, htext, hinside, hbehind⟩
  have hsame : '*' :: '/' :: (body ++ '*' :: '/' :: blanks) = inside ++ '*' :: '/' :: behind := by simpa using htext
  match inside, hsame with
  | [], hsame =>
      obtain rfl : body ++ '*' :: '/' :: blanks = behind := by simpa using hsame
      exact absurd (hbehind '*' (List.mem_append_right _ List.mem_cons_self)) (by decide)
  | [_], hsame => simp at hsame
  | c :: d :: inside, hsame =>
      obtain ⟨rfl, rfl, -⟩ : '*' = c ∧ '/' = d ∧ _ := by simpa using hsame
      exact hinside ⟨[], inside ++ ['*'], rfl⟩

/-- What is found is a single comment unless it begins with an empty one. -/
theorem isComment_slice_iff (hoffset : offset ≤ text.length) (h : docCommentStart text offset = some pos) :
    IsComment (text.slice pos offset) ↔ text[pos + 3]? ≠ some '/' := by
  constructor
  · intro hcomment hslash
    obtain ⟨hpos, body, blanks, hslice, -, -⟩ := docCommentStart_eq_some h hoffset
    have hbehind : text.drop pos = '/' :: '*' :: '*' :: (body ++ '*' :: '/' :: (blanks ++ text.drop offset)) := by
      rw [Text.drop_eq_slice_append hpos hoffset, hslice]
      simp
    rw [← List.getElem?_drop, hbehind] at hslash
    cases body with
    | nil => cases hslash
    | cons c body =>
        obtain rfl : c = '/' := Option.some.inj hslash
        rw [hslice] at hcomment
        exact not_isComment_of_empty hcomment
  · intro hopen
    obtain ⟨-, hlead⟩ := lead_of_docCommentStart hoffset fun p hp => by
      obtain rfl := Option.some.inj (h.symm.trans hp)
      exact hopen
    rw [h, Option.getD_some] at hlead
    have hne := slice_ne_nil_of_docComment hoffset h
    generalize text.slice pos offset = found at hlead hne ⊢
    cases hlead with
    | nothing => exact absurd rfl hne
    | comment hbody hblanks => exact ⟨_, _, rfl, hbody, hblanks⟩

theorem IsComment.lead (h : IsComment text) : Lead text := by
  obtain ⟨body, blanks, rfl, hbody, hblanks⟩ := h
  exact .comment hbody hblanks

/-- What is found in front of a declaration is not far away, and it is a single comment exactly if it does not begin with
an empty one. Then whatever is balanced from the declaration on is balanced from the comment on. -/
theorem docComment_isComment_iff (hoffset : offset ≤ text.length) (h : docCommentStart text offset = some pos) :
    pos < offset ∧ offset - pos ≤ 300 ∧
      (IsComment (text.slice pos offset) ↔ text[pos + 3]? ≠ some '/') ∧
      (text[pos + 3]? ≠ some '/' →
        ∀ stop, isBalanced text offset stop = true → isBalanced text pos stop = true) := by
  have hpos := lt_of_docComment hoffset h
  have hwindow : offset - 300 ≤ pos := docCommentStart_window h
  refine ⟨hpos, by omega, isComment_slice_iff hoffset h, fun hopen stop hbalanced => ?_⟩
  have hlead := ((isComment_slice_iff hoffset h).2 hopen).lead
  have hlength : (text.slice pos offset).length = offset - pos := Text.length_slice hoffset
  rw [isBalanced_lead hlead (Text.drop_eq_slice_append hpos.le hoffset) (by omega) (start_le_of_isBalanced hbalanced)]
  exact hbalanced

/-- A function behind a doc comment, and one behind an empty comment, a call and a remark that a closing mark ends. -/
def remarked : Text :=
  "/** one */\nf = () => 1;\n/**/ g(\x7b // */\nh = () => 2;\n".toList

/-- The doc comment of the first function belongs to it, and the function is balanced with it. What is found in front of
the second one is the call as well, with a brace that is still open. -/
theorem docComment_isComment_iff_remarked :
    (docCommentStart remarked 11 = some 0 ∧ IsComment (remarked.slice 0 11) ∧
      isBalanced remarked 11 23 = true ∧ isBalanced remarked 0 23 = true) ∧
    (docCommentStart remarked 39 = some 24 ∧ ¬ IsComment (remarked.slice 24 39) ∧
      isBalanced remarked 39 51 = true ∧ isBalanced remarked 24 51 = false) := by
  have hfirst : docCommentStart remarked 11 = some 0 := by decide +kernel
  have hsecond : docCommentStart remarked 39 = some 24 := by decide +kernel
  have hbalanced : isBalanced remarked 11 23 = true := by decide +kernel
  obtain ⟨-, -, hsingle, htogether⟩ := docComment_isComment_iff (by decide) hfirst
  obtain ⟨-, -, hempty, -⟩ := docComment_isComment_iff (by decide) hsecond
  have hopen : remarked[0 + 3]? ≠ some '/' := by decide
  refine ⟨⟨hfirst, hsingle.2 hopen, hbalanced, htogether hopen 23 hbalanced⟩, hsecond, ?_, by decide +kernel,
    by decide +kernel⟩
  exact fun hcomment => absurd (hempty.1 hcomment) (by decide)

end ScriptSplit
