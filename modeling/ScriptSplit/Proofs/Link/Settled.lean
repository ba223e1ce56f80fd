import ScriptSplit.Proofs.Link.Inserted

/-!
# Modules with their imports

A module that has the imports it needs needs the same ones again, and misses none of them. Names are found again by
their imports; the statements bring no other name with them, unless it is the word `from`.
-/

namespace ScriptSplit

open Text (Unbroken)

namespace Layout

structure OneLine (layout : Layout) : Prop where
  closed : layout.Closed
  names : ∀ name target, layout.moduleOfName.get? name = some target →
    isExportable name = true ∧ '\n' ∉ name.toList
  slugs : ∀ slug ∈ layout.slugs, isSlug slug = true ∧ '\n' ∉ slug.toList
  basename : '/' ∉ layout.basename.toList ∧ Unbroken layout.basename.toList

/-- Whether no import mentions more than the name that it imports. -/
structure Quiet (layout : Layout) : Prop extends layout.OneLine where
  noFrom : layout.moduleOfName.get? "from" = none
  noQuote : '\'' ∉ layout.basename.toList

def withImports (layout : Layout) (slug : String) (names : List String) (text : Text) : Text :=
  (insertImports text (layout.importLines slug names)).1

variable {layout : Layout} {slug name line : String} {names : List String} {text : Text}

theorem unbroken_of_isSlug {slug : String} (hslug : isSlug slug = true) (hfeed : '\n' ∉ slug.toList) :
    Unbroken slug.toList := by
  intro c hc
  have hpart : isSlugPart c = true := (mem_of_isSlug hslug hc).resolve_right (by rintro rfl; exact hfeed hc)
  have hcode : 36 ≤ c.toNat ∧ c.toNat ≤ 122 := by
    simp only [isSlugPart, isSlugStart, Text.isAsciiLetter, Text.isAsciiLower, Text.isAsciiUpper,
      Text.isAsciiDigit, Bool.or_eq_true, Bool.and_eq_true, decide_eq_true_eq, beq_iff_eq, Char.le_def,
      UInt32.le_iff_toNat_le] at hpart
    rcases hpart with ((((((⟨hlow, hhigh⟩ | ⟨hlow, hhigh⟩) | ⟨hlow, hhigh⟩) | rfl) | rfl) | rfl) | rfl)
    · exact ⟨Nat.le_trans (by decide) hlow, hhigh⟩
    · exact ⟨Nat.le_trans (by decide) hlow, Nat.le_trans hhigh (by decide)⟩
    · exact ⟨Nat.le_trans (by decide) hlow, Nat.le_trans hhigh (by decide)⟩
    all_goals decide
  unfold Text.isLineBoundary
  simp
  omega

theorem mem_moduleFileName {target basename : String} {c : Char}
    (hc : c ∈ (moduleFileName target basename ".js").toList) :
    c ∈ basename.toList ∨ c ∈ target.toList ∨ c ∈ ".js".toList := by
  unfold moduleFileName at hc
  split at hc
  · rw [String.toList_append] at hc
    rcases List.mem_append.1 hc with hc | hc
    · exact Or.inl hc
    · exact Or.inr (Or.inr hc)
  · rw [String.toList_append] at hc
    exact Or.inr (List.mem_append.1 hc)

theorem OneLine.imports (h : layout.OneLine) (hslug : slug ∈ layout.slugs)
    (hline : layout.importLine? slug name = some line) :
    ∃ target ∈ layout.slugs, layout.moduleOfName.get? name = some target ∧
      Imports name (moduleFileName target layout.basename ".js") line := by
  cases hget : layout.moduleOfName.get? name with
  | none => simp [importLine?, hget] at hline
  | some target =>
      have htarget := h.closed.moduleOfName _ (Table.mem_of_get? hget)
      obtain ⟨hslugTarget, hfeed⟩ := h.slugs target htarget
      obtain ⟨hexportable, hbreak⟩ := h.names name target hget
      rw [importLine?_eq (h.slugs slug hslug).1 h.basename.1 hget hslugTarget] at hline
      refine ⟨target, htarget, rfl, (Option.some.inj hline).symm,
        Text.isName_of_isExportable hexportable hbreak, fun c hc => ?_⟩
      have hending : ∀ c ∈ ".js".toList, Text.isLineBoundary c = false := by
        simp
        decide
      rcases mem_moduleFileName hc with hc | hc | hc
      · exact h.basename.2 c hc
      · exact unbroken_of_isSlug hslugTarget hfeed c hc
      · exact hending c hc

theorem OneLine.missing_withImports (h : layout.OneLine) (hslug : slug ∈ layout.slugs)
    (names : List String) (text : Text) :
    Insertion.missing (layout.withImports slug names text) (layout.importLines slug names) = [] := by
  apply missing_insertImports
  intro line hline
  obtain ⟨name, -, hline⟩ := List.mem_filterMap.1 hline
  obtain ⟨target, -, -, himports⟩ := h.imports hslug hline
  exact himports.importLine

theorem Quiet.eq_of_mentions (h : layout.Quiet) {other target : String} (hslug : slug ∈ layout.slugs)
    (hline : layout.importLine? slug name = some line)
    (hget : layout.moduleOfName.get? other = some target)
    (hmentions : Mentions line.toList other.toList) : other = name := by
  obtain ⟨file, hfile, -, himports⟩ := h.imports hslug hline
  obtain ⟨hexportable, hbreak⟩ := h.names other target hget
  have hquote : '\'' ∉ (moduleFileName file layout.basename ".js").toList := by
    intro hmem
    rcases mem_moduleFileName hmem with hmem | hmem | hmem
    · exact h.noQuote hmem
    · rcases mem_of_isSlug (h.slugs file hfile).1 hmem with hpart | heq
      · exact absurd hpart (by decide)
      · exact absurd heq (by decide)
    · exact absurd hmem (by decide)
  rcases himports.eq_of_mentions hquote (Text.isName_of_isExportable hexportable hbreak) hmentions with
    heq | rfl | rfl
  · exact heq
  · exact absurd hexportable (by decide)
  · rw [h.noFrom] at hget
    cases hget

/-- Whether names are those of other modules that a text mentions and its module does not declare. -/
def Needs (layout : Layout) (slug : String) (text : Text) (names : List String) : Prop :=
  ∀ name, name ∈ names ↔ (∃ target, layout.moduleOfName.get? name = some target ∧ target ≠ slug) ∧
    name ∉ layout.names slug ∧ (firstReference? text name.toList).isSome = true

/-- With the imports that it needs, a module mentions the same names of other modules. -/
theorem Quiet.firstReference?_withImports (h : layout.Quiet) (hslug : slug ∈ layout.slugs)
    (hfeeds : text.BrokenByFeeds) (hneeds : layout.Needs slug text names) {target : String}
    (hget : layout.moduleOfName.get? name = some target) (hother : target ≠ slug)
    (hown : name ∉ layout.names slug) :
    (firstReference? (layout.withImports slug names text) name.toList).isSome =
      (firstReference? text name.toList).isSome := by
  obtain ⟨hexportable, hbreak⟩ := h.names name target hget
  have hname := Text.isName_of_isExportable hexportable hbreak
  rw [Bool.eq_iff_iff]
  constructor
  · intro hmentions
    rw [firstReference?_isSome_iff hname] at hmentions
    rcases mentions_of_insertImports hfeeds hname hmentions with hbefore | ⟨line, hline, himport⟩
    · exact (firstReference?_isSome_iff hname).2 hbefore
    · obtain ⟨imported, himported, hline⟩ := List.mem_filterMap.1 hline
      obtain rfl := h.eq_of_mentions hslug hline hget himport
      exact ((hneeds _).1 himported).2.2
  · intro hmentions
    have hneeded : name ∈ names := (hneeds name).2 ⟨⟨target, hget, hother⟩, hown, hmentions⟩
    obtain ⟨line, hline⟩ : ∃ line, layout.importLine? slug name = some line := by
      simp [importLine?, hget]
    obtain ⟨_, -, -, himports⟩ := h.imports hslug hline
    exact (firstReference?_isSome_iff hname).2 (mentions_insertImports hfeeds hname himports
      (List.mem_filterMap.2 ⟨name, hneeded, hline⟩))

/-- A module that has its imports is proposed the same import lines. -/
theorem Quiet.mentionedLines_withImports (h : layout.Quiet) (hunambiguous : Unambiguous layout.moduleOfName)
    (hslug : slug ∈ layout.slugs) (hfeeds : text.BrokenByFeeds) (hneeds : layout.Needs slug text names) :
    layout.mentionedLines slug (layout.withImports slug names text) =
      layout.mentionedLines slug text := by
  unfold mentionedLines
  simp only
  congr 1
  apply List.filterMap_congr
  rintro ⟨name, target⟩ hentry
  have hget := hunambiguous _ (List.mem_mergeSort.1 hentry)
  simp only
  by_cases hother : target = slug
  · simp [hother]
  by_cases hown : name ∈ layout.names slug
  · simp [hown]
  have hsame := h.firstReference?_withImports hslug hfeeds hneeds hget hother hown
  rw [← Option.not_isSome, ← Option.not_isSome, hsame]

end Layout

end ScriptSplit
