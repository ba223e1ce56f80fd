import ScriptSplit.Proofs.Plan.Reading
import ScriptSplit.Proofs.Plan.Slug

/-!
# Slugs as names of files

What passes for a slug is a safe name of a file, or one with a line feed behind it. A slug that is made from a name or a
number is safe, so that the line feed can only be one of a slug that the document gives. Apart from it the files of a
plan can be told from each other and from other files, whatever case they are written in.
-/

namespace ScriptSplit

/-! ## Safe names -/

def IsSafe (c : Char) : Prop :=
  'A' ≤ c ∧ c ≤ 'Z' ∨ 'a' ≤ c ∧ c ≤ 'z' ∨ '0' ≤ c ∧ c ≤ '9' ∨ c ∈ ['_', '$', '.', '-']

/-- A name of a file that is neither hidden, nor taken for an option, nor leads anywhere else. -/
structure SafeName (name : String) : Prop where
  nonempty : name ≠ ""
  safe : ∀ c ∈ name.toList, IsSafe c
  head : ∀ c ∈ name.toList.head?, c ≠ '.' ∧ c ≠ '-'

theorem isSlugPart_iff {c : Char} : isSlugPart c = true ↔ IsSafe c := by
  simp only [isSlugPart, isSlugStart, Text.isAsciiLetter, Text.isAsciiLower, Text.isAsciiUpper, Text.isAsciiDigit,
    Bool.or_eq_true, Bool.and_eq_true, decide_eq_true_eq, beq_iff_eq, IsSafe, List.mem_cons, List.not_mem_nil, or_false]
  tauto

theorem isSlugStart_iff {c : Char} : isSlugStart c = true ↔ IsSafe c ∧ c ≠ '.' ∧ c ≠ '-' := by
  rw [← isSlugPart_iff, isSlugPart, Bool.or_eq_true, Bool.or_eq_true, beq_iff_eq, beq_iff_eq]
  constructor
  · intro hstart
    refine ⟨Or.inl (Or.inl hstart), ?_, ?_⟩ <;> rintro rfl <;> exact absurd hstart (by decide)
  · rintro ⟨(hstart | hpoint) | hhyphen, hnone⟩
    · exact hstart
    · exact absurd hpoint hnone.1
    · exact absurd hhyphen hnone.2

theorem safeName_iff {name : String} : SafeName name ↔
    ∃ c rest, name.toList = c :: rest ∧ isSlugStart c = true ∧ ∀ d ∈ rest, isSlugPart d = true := by
  simp only [isSlugStart_iff, isSlugPart_iff]
  constructor
  · rintro ⟨hne, hsafe, hhead⟩
    obtain ⟨c, rest, hname⟩ := List.exists_cons_of_ne_nil (mt String.toList_eq_nil_iff.1 hne)
    rw [hname] at hsafe hhead
    rw [List.forall_mem_cons] at hsafe
    exact ⟨c, rest, hname, ⟨hsafe.1, hhead c rfl⟩, hsafe.2⟩
  · rintro ⟨c, rest, hname, ⟨hsafe, hhead⟩, hrest⟩
    refine ⟨fun hempty => ?_, ?_, ?_⟩
    · rw [hempty] at hname
      cases hname
    · rw [hname]
      exact List.forall_mem_cons.2 ⟨hsafe, hrest⟩
    · rw [hname]
      rintro d ⟨⟩
      exact hhead

theorem SafeName.noFeed {name : String} (h : SafeName name) : '\n' ∉ name.toList := by
  intro hfeed
  have hsafe := h.safe '\n' hfeed
  rw [← isSlugPart_iff] at hsafe
  exact absurd hsafe (by decide)

theorem isSlug_eq_true {slug : String} : isSlug slug = true ↔ ∃ c rest,
    Text.dropFinalNewline slug.toList = c :: rest ∧ isSlugStart c = true ∧ ∀ d ∈ rest, isSlugPart d = true := by
  unfold isSlug
  cases Text.dropFinalNewline slug.toList with
  | nil => simp
  | cons c rest => simp

theorem isSlug_append_feed (name : String) : isSlug (name ++ "\n") = true ↔ SafeName name := by
  have hdropped : Text.dropFinalNewline (name ++ "\n").toList = name.toList := by
    have hfeed : (name ++ "\n").toList = name.toList ++ ['\n'] := String.toList_append
    rw [Text.dropFinalNewline, hfeed, List.getLast?_concat, if_pos (beq_self_eq_true _), List.dropLast_concat]
  rw [isSlug_eq_true, hdropped, safeName_iff]

theorem isSlug_of_noFeed {slug : String} (hfeed : slug.toList.getLast? ≠ some '\n') :
    isSlug slug = true ↔ SafeName slug := by
  have hkept : Text.dropFinalNewline slug.toList = slug.toList := by
    rw [Text.dropFinalNewline, if_neg (by simpa using hfeed)]
  rw [isSlug_eq_true, hkept, safeName_iff]

theorem isSlug_iff {slug : String} :
    isSlug slug = true ↔ SafeName slug ∨ ∃ name, SafeName name ∧ slug = name ++ "\n" := by
  by_cases hfeed : slug.toList.getLast? = some '\n'
  · obtain ⟨front, hfront⟩ := List.getLast?_eq_some_iff.1 hfeed
    obtain rfl : slug = String.ofList front ++ "\n" := by
      rw [← String.toList_inj, hfront, String.toList_append, String.toList_ofList]
      rfl
    rw [isSlug_append_feed]
    refine ⟨fun hsafe => Or.inr ⟨_, hsafe, rfl⟩, ?_⟩
    rintro (hsafe | ⟨name, hsafe, heq⟩)
    · exact absurd (List.mem_of_getLast? hfeed) hsafe.noFeed
    · rwa [(String.append_left_inj _).1 heq]
  · rw [isSlug_of_noFeed hfeed]
    refine ⟨Or.inl, ?_⟩
    rintro (hsafe | ⟨name, -, rfl⟩)
    · exact hsafe
    · rw [String.toList_append] at hfeed
      exact absurd (List.getLast?_concat ..) hfeed

theorem MadeSlug.safeName {slug : String} (h : MadeSlug slug) : SafeName slug := by
  rcases isSlug_iff.1 h.isSlug with hsafe | ⟨name, -, rfl⟩
  · exact hsafe
  · have hfeed := h.2 '\n' (by rw [String.toList_append]; exact List.mem_append_right _ List.mem_cons_self)
    exact absurd hfeed (by decide)

/-! ## Case -/

theorem IsSafe.ascii {c : Char} (h : IsSafe c) : c.toNat < 128 := by
  rcases h with ⟨-, hhigh⟩ | ⟨-, hhigh⟩ | ⟨-, hhigh⟩ | hmem
  · exact lt_of_le_of_lt (show c.toNat ≤ 'Z'.toNat from hhigh) (by decide)
  · exact lt_of_le_of_lt (show c.toNat ≤ 'z'.toNat from hhigh) (by decide)
  · exact lt_of_le_of_lt (show c.toNat ≤ '9'.toNat from hhigh) (by decide)
  · simp only [List.mem_cons, List.not_mem_nil, or_false] at hmem
    rcases hmem with rfl | rfl | rfl | rfl <;> decide

theorem lowerAfter_ascii (before : List Char) {text : List Char} (htext : ∀ c ∈ text, c.toNat < 128) :
    Text.lowerAfter before text = text.map Char.toLower := by
  induction text generalizing before with
  | nil => rfl
  | cons c text ih =>
      rw [List.forall_mem_cons] at htext
      have hsigma : c ≠ 'Σ' := by
        rintro rfl
        exact absurd htext.1 (by decide)
      rw [Text.lowerAfter, if_neg (by simpa using hsigma), Text.lowerChar, if_pos htext.1, ih _ htext.2]
      rfl

theorem lower_of_isSlug {slug : String} (hslug : isSlug slug = true) : Text.lower slug = slug.toLower := by
  have hascii : ∀ c ∈ slug.toList, c.toNat < 128 := by
    intro c hc
    rcases mem_of_isSlug hslug hc with hpart | rfl
    · exact (isSlugPart_iff.1 hpart).ascii
    · decide
  rw [← String.toList_inj, Text.lower, String.toList_ofList, lowerAfter_ascii [] hascii, String.toLower,
    String.toList_map]

namespace Plan

/-! ## Where slugs come from -/

def moduleDocs : Json → List Json
  | .object members =>
    match members.lookup "modules" with
    | some (.array docs) => docs
    | _ => []
  | .array docs => docs
  | _ => []

def givenSlug? (doc : Json) : Option String :=
  match doc.member? "slug" with
  | some (.string slug) => some slug
  | _ => none

def givenSlugs (doc : Json) : List String :=
  (moduleDocs doc).filterMap givenSlug?

/-- A module has the slug that its document gives. If it gives none or an empty one, the slug is made. -/
def HasSlug (doc : Json) (m : ModuleSpec) : Prop :=
  givenSlug? doc = some m.slug ∨ MadeSlug m.slug ∧ ∀ slug ∈ givenSlug? doc, slug = ""

theorem givenSlug?_of_optionalText {doc : Json} {error : PlanError} {slug : Option String}
    (hread : optionalText doc "slug" error = .ok slug) : givenSlug? doc = slug := by
  unfold optionalText at hread
  unfold givenSlug?
  split at hread
  · next hnone =>
      cases hread
      rw [hnone]
  · next hnull =>
      cases hread
      rw [hnull]
  · next value hvalue =>
      cases hread
      rw [hvalue]
  · cases hread

theorem firstNonempty_pair (first second last : String) : firstNonempty [first, second] last =
    if first ≠ "" then first else if second ≠ "" then second else last := by
  unfold firstNonempty
  split_ifs <;> simp_all

theorem hasSlug_of_firstNonempty {doc : Json} {m : ModuleSpec} {name : String} {n : Nat}
    (hm : m.slug = firstNonempty [(givenSlug? doc).getD "", slugify name] ("mod" ++ toString n)) : HasSlug doc m := by
  have hmade : MadeSlug (if slugify name ≠ "" then slugify name else "mod" ++ toString n) := by
    split
    · next hname => exact madeSlug_slugify hname
    · exact madeSlug_mod n
  rw [firstNonempty_pair] at hm
  unfold HasSlug
  split at hm
  · next hgiven =>
      cases hslug : givenSlug? doc with
      | none => exact absurd (by rw [hslug]; rfl) hgiven
      | some slug => exact Or.inl (congrArg some (by rw [hm, hslug]; rfl))
  · next hempty =>
      refine Or.inr ⟨hm ▸ hmade, fun slug hslug => ?_⟩
      rw [Option.mem_def.1 hslug] at hempty
      simpa using hempty

theorem hasSlug_of_moduleOfDoc {n : Nat} {taken taken' : Taken} {doc : Json} {m : ModuleSpec}
    (hread : moduleOfDoc n taken doc = .ok (m, taken')) : HasSlug doc m := by
  unfold moduleOfDoc at hread
  simp only [bind, Except.bind, throw, throwThe, MonadExceptOf.throw, pure, Except.pure] at hread
  repeat' (split at hread <;> try contradiction)
  next slug hslug _ name hname _ _ _ ids hids =>
    cases hread
    exact hasSlug_of_firstNonempty (by rw [givenSlug?_of_optionalText hslug])

theorem hasSlug_of_modulesOfDocs {n : Nat} {taken : Taken} {docs : List Json} {modules : List ModuleSpec}
    (hread : modulesOfDocs n taken docs = .ok modules) : List.Forall₂ HasSlug docs modules := by
  induction docs generalizing n taken modules with
  | nil =>
      cases hread
      exact .nil
  | cons doc docs ih =>
      obtain ⟨m, taken', more, hfirst, hmore, rfl⟩ := modulesOfDocs_cons_eq_ok hread
      exact .cons (hasSlug_of_moduleOfDoc hfirst) (ih hmore)

theorem modulesOfDocs_moduleDocs {doc : Json} {plan : Plan} (hread : ofDoc doc = .ok plan) :
    modulesOfDocs 1 {} (moduleDocs doc) = .ok plan.modules := by
  unfold ofDoc at hread
  unfold moduleDocs
  simp only [bind, Except.bind, throw, throwThe, MonadExceptOf.throw, pure, Except.pure] at hread
  repeat' (split at hread <;> try contradiction)
  · next hlist _ modules hmodules =>
      cases hread
      simp only [hlist]
      exact hmodules
  · next hmodules =>
      cases hread
      exact hmodules

/-- A slug is safe unless its document gives it with a line feed at the end. -/
theorem HasSlug.safeName_iff {doc : Json} {m : ModuleSpec} (h : HasSlug doc m) (hslug : isSlug m.slug = true) :
    SafeName m.slug ↔ ∀ slug ∈ givenSlug? doc, slug.toList.getLast? ≠ some '\n' := by
  rcases h with hgiven | ⟨hmade, hempty⟩
  · simp only [hgiven, Option.mem_some_iff, forall_eq']
    constructor
    · exact fun hsafe hfeed => hsafe.noFeed (List.mem_of_getLast? hfeed)
    · exact fun hfeed => (isSlug_of_noFeed hfeed).1 hslug
  · refine iff_of_true hmade.safeName fun slug hgiven => ?_
    rw [hempty slug hgiven]
    decide

theorem safeNames_iff {docs : List Json} {modules : List ModuleSpec} (h : List.Forall₂ HasSlug docs modules)
    (hslugs : ∀ m ∈ modules, isSlug m.slug = true) : (∀ m ∈ modules, SafeName m.slug) ↔
      ∀ slug ∈ docs.filterMap givenSlug?, slug.toList.getLast? ≠ some '\n' := by
  induction h with
  | nil => simp
  | @cons doc _ docs _ hfirst _ ih =>
      rw [List.forall_mem_cons] at hslugs
      rw [List.forall_mem_cons, hfirst.safeName_iff hslugs.1, ih hslugs.2, List.filterMap_cons]
      cases givenSlug? doc <;> simp

/-- The slugs of a plan that is read are safe names of files exactly if its document gives none with a line feed at the
end. Each of them is a safe name, or one with a line feed behind it, and no two differ in case only. -/
theorem ofDoc_safeNames_iff {doc : Json} {plan : Plan} (hread : ofDoc doc = .ok plan) :
    ((∀ m ∈ plan.modules, SafeName m.slug) ↔
      ∀ slug ∈ givenSlugs doc, slug.toList.getLast? ≠ some '\n') ∧
    (∀ m ∈ plan.modules, SafeName m.slug ∨ ∃ name, SafeName name ∧ m.slug = name ++ "\n") ∧
    (plan.modules.map (·.slug.toLower)).Nodup := by
  have hslugs : ∀ m ∈ plan.modules, isSlug m.slug = true := fun m hm => isSlug_of_ofDoc hread hm
  have hmodules := modulesOfDocs_moduleDocs hread
  obtain ⟨-, hnodup, -⟩ := modulesOfDocs_eq_ok hmodules
  refine ⟨safeNames_iff (hasSlug_of_modulesOfDocs hmodules) hslugs, fun m hm => isSlug_iff.1 (hslugs m hm), ?_⟩
  rwa [← List.map_congr_left fun m hm => lower_of_isSlug (hslugs m hm)]

/-- A plan of three modules: the first is given the slug, the second has a name, and the third has only its number. -/
def threeModules (slug : String) : Json :=
  .array [.object [("slug", .string slug), ("functions", .array [])],
    .object [("name", .string "Data: Utils"), ("functions", .array [.string "f0000"])],
    .object [("slug", .string ""), ("functions", .array [])]]

/-- A line feed at the end of a slug that is given passes, so that not all slugs are safe; without it they are. -/
theorem ofDoc_safeNames_fed :
    (∃ plan, ofDoc (threeModules "data\n") = .ok plan ∧
      plan.modules.map (·.slug) = ["data\n", "data-utils", "mod3"] ∧ ¬ ∀ m ∈ plan.modules, SafeName m.slug) ∧
    ∃ plan, ofDoc (threeModules "data") = .ok plan ∧
      plan.modules.map (·.slug) = ["data", "data-utils", "mod3"] ∧ ∀ m ∈ plan.modules, SafeName m.slug := by
  have hread (slug : String) (hslug : slug ∈ ["data\n", "data"]) : ofDoc (threeModules slug) = .ok { modules := [
      { name := slug, slug, functions := [] },
      { name := "Data: Utils", slug := "data-utils", functions := ["f0000"] },
      { name := "mod3", slug := "mod3", functions := [] }] } := by
    simp only [List.mem_cons, List.not_mem_nil, or_false] at hslug
    rcases hslug with rfl | rfl <;> decide +kernel
  have hgiven (slug : String) : givenSlugs (threeModules slug) = [slug, ""] := rfl
  refine ⟨⟨_, hread "data\n" (by simp), rfl, fun hsafe => ?_⟩, _, hread "data" (by simp), rfl, ?_⟩
  · have hfeed := (ofDoc_safeNames_iff (hread "data\n" (by simp))).1.1 hsafe
    rw [hgiven] at hfeed
    exact hfeed "data\n" List.mem_cons_self (by decide)
  · refine (ofDoc_safeNames_iff (hread "data" (by simp))).1.2 ?_
    rw [hgiven]
    decide

end Plan

end ScriptSplit
