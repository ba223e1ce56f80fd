import ScriptSplit.Proofs.Path.Names
import ScriptSplit.Run.StoredPlan

/-!
# Plans as they are read

A plan that has been read names files by its slugs: none of them leads out of the directory of the modules.
-/

namespace ScriptSplit

theorem mem_of_isSlug {slug : String} (hslug : isSlug slug = true) {c : Char} (hc : c ∈ slug.toList) :
    isSlugPart c = true ∨ c = '\n' := by
  have hdropped : ∀ c ∈ Text.dropFinalNewline slug.toList, isSlugPart c = true := by
    unfold isSlug at hslug
    cases hlist : Text.dropFinalNewline slug.toList with
    | nil => simp
    | cons c rest =>
        rw [hlist] at hslug
        simp only [Bool.and_eq_true, List.all_eq_true] at hslug
        exact List.forall_mem_cons.2 ⟨by simp [isSlugPart, hslug.1], hslug.2⟩
  unfold Text.dropFinalNewline at hdropped
  split at hdropped
  · next hlast =>
      -- the character dropped is a line feed
      have hlast' : slug.toList.getLast? = some '\n' := by simpa using hlast
      obtain ⟨front, hfront⟩ := List.getLast?_eq_some_iff.1 hlast'
      rw [hfront] at hc hdropped
      rw [List.dropLast_concat] at hdropped
      rcases List.mem_append.1 hc with hc | hc
      · exact Or.inl (hdropped c hc)
      · exact Or.inr (List.mem_singleton.1 hc)
  · exact Or.inl (hdropped c hc)

theorem noSlash_of_isSlug {slug : String} (hslug : isSlug slug = true) : '/' ∉ slug.toList := by
  intro hmem
  rcases mem_of_isSlug hslug hmem with hpart | hfeed
  · exact absurd hpart (by decide)
  · exact absurd hfeed (by decide)

theorem moduleFileName_isName {slug basename : String} (hslug : isSlug slug = true)
    (hbasename : '/' ∉ basename.toList) (ending : String) (hslash : '/' ∉ ending.toList) {c : Char}
    (hc : c ∈ ending.toList) (hpoint : c ≠ '.') :
    Path.IsName (moduleFileName slug basename ending) := by
  unfold moduleFileName
  split
  · exact Path.Named.isName_append hbasename hslash hc hpoint
  · exact Path.Named.isName_append (noSlash_of_isSlug hslug) hslash hc hpoint

namespace Plan

theorem firstNonempty_ne_empty {texts : List String} {last : String} (hlast : last ≠ "") :
    firstNonempty texts last ≠ "" := by
  unfold firstNonempty
  cases hfound : texts.find? (· != "") with
  | none => simpa using hlast
  | some text => simpa using List.find?_some hfound

theorem ne_empty_of_isSlug {slug : String} (hslug : isSlug slug = true) : slug ≠ "" := by
  rintro rfl
  revert hslug
  decide

/-- What reading a module has checked and what it has noted. -/
structure Checked (taken : Taken) (m : ModuleSpec) (taken' : Taken) : Prop where
  slug : isSlug m.slug = true
  name : m.name ≠ ""
  free : Text.lower m.slug ∉ taken.slugs
  slugs : taken'.slugs = Text.lower m.slug :: taken.slugs
  ids : takeIds taken.ids m.functions = .ok taken'.ids

theorem moduleOfDoc_eq_ok {n : Nat} {taken taken' : Taken} {doc : Json} {m : ModuleSpec}
    (hread : moduleOfDoc n taken doc = .ok (m, taken')) : Checked taken m taken' := by
  unfold moduleOfDoc at hread
  simp only [bind, Except.bind, throw, throwThe, MonadExceptOf.throw, pure, Except.pure] at hread
  repeat' (split at hread <;> try contradiction)
  next hslug hfree _ ids hids =>
    cases hread
    have hslug' := by simpa using hslug
    exact ⟨hslug', firstNonempty_ne_empty (ne_empty_of_isSlug hslug'), by simpa using hfree, rfl,
      hids⟩

theorem modulesOfDocs_cons_eq_ok {n : Nat} {taken : Taken} {doc : Json} {docs : List Json}
    {modules : List ModuleSpec} (hread : modulesOfDocs n taken (doc :: docs) = .ok modules) :
    ∃ m taken' more, moduleOfDoc n taken doc = .ok (m, taken') ∧
      modulesOfDocs (n + 1) taken' docs = .ok more ∧ modules = m :: more := by
  unfold modulesOfDocs at hread
  simp only [bind, Except.bind, pure, Except.pure] at hread
  split at hread
  · cases hread
  · next found hfirst =>
      split at hread
      · cases hread
      · next more hmore =>
          cases hread
          exact ⟨found.1, found.2, more, hfirst, hmore, rfl⟩

theorem modulesOfDocs_eq_ok {n : Nat} {taken : Taken} {docs : List Json}
    {modules : List ModuleSpec} (hread : modulesOfDocs n taken docs = .ok modules) :
    (∀ m ∈ modules, isSlug m.slug = true ∧ m.name ≠ "") ∧
      (modules.map (Text.lower ·.slug)).Nodup ∧
        ∀ m ∈ modules, Text.lower m.slug ∉ taken.slugs := by
  induction docs generalizing n taken modules with
  | nil =>
      cases hread
      simp
  | cons doc docs ih =>
      obtain ⟨m, taken', more, hfirst, hmore, rfl⟩ := modulesOfDocs_cons_eq_ok hread
      have hchecked := moduleOfDoc_eq_ok hfirst
      obtain ⟨hslugs, hnodup, hfrees⟩ := ih hmore
      rw [hchecked.slugs] at hfrees
      refine ⟨?_, ?_, ?_⟩
      · intro m' hm'
        rcases List.mem_cons.1 hm' with rfl | hm'
        · exact ⟨hchecked.slug, hchecked.name⟩
        · exact hslugs m' hm'
      · rw [List.map_cons, List.nodup_cons]
        refine ⟨?_, hnodup⟩
        intro hmem
        obtain ⟨m', hm', heq⟩ := List.mem_map.1 hmem
        exact hfrees m' hm' (heq ▸ List.mem_cons_self)
      · intro m' hm'
        rcases List.mem_cons.1 hm' with rfl | hm'
        · exact hchecked.free
        · exact fun hmem => hfrees m' hm' (List.mem_cons_of_mem _ hmem)

theorem ofDoc_eq_ok {doc : Json} {plan : Plan} (hread : ofDoc doc = .ok plan) :
    ∃ docs, modulesOfDocs 1 {} docs = .ok plan.modules := by
  unfold ofDoc at hread
  simp only [bind, Except.bind, throw, throwThe, MonadExceptOf.throw, pure, Except.pure] at hread
  repeat' (split at hread <;> try contradiction)
  all_goals
    next hmodules =>
      cases hread
      exact ⟨_, hmodules⟩

theorem isSlug_of_ofDoc {doc : Json} {plan : Plan} (hread : ofDoc doc = .ok plan) {m : ModuleSpec}
    (hm : m ∈ plan.modules) : isSlug m.slug = true := by
  obtain ⟨docs, hdocs⟩ := ofDoc_eq_ok hread
  exact ((modulesOfDocs_eq_ok hdocs).1 m hm).1

end Plan

end ScriptSplit
