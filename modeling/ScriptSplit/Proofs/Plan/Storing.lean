import ScriptSplit.Proofs.Facts.Reading
import ScriptSplit.Proofs.Json.RoundTrip
import ScriptSplit.Proofs.Plan.Reading

/-!
# Plans that are stored

Whatever reading accepts as a plan has names, safe and different slugs and no function twice. A plan with
these properties is read back from its document form.
-/

namespace ScriptSplit.Plan

/-- A plan that is read back once it is stored. -/
structure Storable (plan : Plan) : Prop where
  named : ∀ m ∈ plan.modules, m.name ≠ ""
  slugs : ∀ m ∈ plan.modules, isSlug m.slug = true
  /-- No two slugs are the same file name where case does not count. -/
  apart : (plan.modules.map (Text.lower ·.slug)).Nodup
  once : plan.assigned.Nodup

/-! ## What reading accepts -/

theorem takeIds_eq_ok {taken taken' ids : List String} (htake : takeIds taken ids = .ok taken') :
    ids.Nodup ∧ (∀ id ∈ ids, id ∉ taken) ∧ ∀ id, id ∈ taken' ↔ id ∈ ids ∨ id ∈ taken := by
  induction ids generalizing taken with
  | nil =>
      cases htake
      simp
  | cons id ids ih =>
      unfold takeIds at htake
      split at htake
      · cases htake
      · next hfree =>
          obtain ⟨hnodup, hfrees, hmem⟩ := ih htake
          have hfree' : id ∉ taken := by simpa using hfree
          refine ⟨?_, ?_, ?_⟩
          · refine List.nodup_cons.2 ⟨fun hid => hfrees id hid (by simp), hnodup⟩
          · intro other hother
            rcases List.mem_cons.1 hother with rfl | hother
            · exact hfree'
            · exact fun htaken => hfrees other hother (by simp [htaken])
          · intro other
            rw [hmem, List.mem_cons, List.mem_cons]
            tauto

theorem modulesOfDocs_assigned {n : Nat} {taken : Taken} {docs : List Json}
    {modules : List ModuleSpec} (hread : modulesOfDocs n taken docs = .ok modules) :
    (modules.flatMap (·.functions)).Nodup ∧ ∀ m ∈ modules, ∀ id ∈ m.functions, id ∉ taken.ids := by
  induction docs generalizing n taken modules with
  | nil =>
      cases hread
      simp
  | cons doc docs ih =>
      obtain ⟨m, taken', more, hfirst, hmore, rfl⟩ := modulesOfDocs_cons_eq_ok hread
      obtain ⟨hnodup, hfree, hmem⟩ := takeIds_eq_ok (moduleOfDoc_eq_ok hfirst).ids
      obtain ⟨hnodups, hfrees⟩ := ih hmore
      refine ⟨?_, ?_⟩
      · rw [List.flatMap_cons, List.nodup_append]
        refine ⟨hnodup, hnodups, ?_⟩
        rintro id hid _ hother rfl
        obtain ⟨m', hm', hid'⟩ := List.mem_flatMap.1 hother
        exact hfrees m' hm' id hid' ((hmem id).2 (Or.inl hid))
      · intro m' hm' id hid
        rcases List.mem_cons.1 hm' with rfl | hm'
        · exact hfree id hid
        · exact fun htaken => hfrees m' hm' id hid ((hmem id).2 (Or.inr htaken))

theorem storable_of_ofDoc {doc : Json} {plan : Plan} (hread : ofDoc doc = .ok plan) :
    plan.Storable := by
  obtain ⟨docs, hdocs⟩ := ofDoc_eq_ok hread
  obtain ⟨hchecked, hapart, -⟩ := modulesOfDocs_eq_ok hdocs
  exact ⟨fun m hm => (hchecked m hm).2, fun m hm => (hchecked m hm).1, hapart,
    (modulesOfDocs_assigned hdocs).1⟩

/-! ## Reading back -/

theorem takeIds_of_free {ids : List String} (hnodup : ids.Nodup) {taken : List String}
    (hfree : ∀ id ∈ ids, id ∉ taken) : ∃ taken', takeIds taken ids = .ok taken' := by
  induction ids generalizing taken with
  | nil => exact ⟨taken, rfl⟩
  | cons id ids ih =>
      obtain ⟨hid, hnodup⟩ := List.nodup_cons.1 hnodup
      have hfree' := hfree id (by simp)
      rw [takeIds, if_neg (by simpa using hfree')]
      apply ih hnodup
      intro other hother htaken
      rcases List.mem_cons.1 htaken with rfl | htaken
      · exact hid hother
      · exact hfree other (by simp [hother]) htaken

theorem firstNonempty_cons {text : String} (htext : text ≠ "") (texts : List String)
    (last : String) : firstNonempty (text :: texts) last = text := by
  simp [firstNonempty, htext]

theorem moduleOfDoc_toDoc {m : ModuleSpec} (hname : m.name ≠ "") (hslug : isSlug m.slug = true)
    {taken : Taken} (hfree : Text.lower m.slug ∉ taken.slugs) {ids : List String}
    (hids : takeIds taken.ids m.functions = .ok ids) (n : Nat) :
    moduleOfDoc n taken m.toDoc =
      .ok (m, { slugs := Text.lower m.slug :: taken.slugs, ids }) := by
  have hfunctions : m.toDoc.member? "functions" = some (.array (m.functions.map .string)) := by
    simp [ModuleSpec.toDoc, Json.member?, Table.get?_cons, Json.ofStrings]
  have hstrings : Json.strings? (m.functions.map .string) = some m.functions :=
    Json.strings?_eq_some.2 rfl
  have hslugText : optionalText m.toDoc "slug" (.slugNotText n) = .ok (some m.slug) := by
    simp [optionalText, ModuleSpec.toDoc, Json.member?, Table.get?_cons]
  have hnameText : optionalText m.toDoc "name" (.nameNotText n) = .ok (some m.name) := by
    simp [optionalText, ModuleSpec.toDoc, Json.member?, Table.get?_cons]
  have hempty := ne_empty_of_isSlug hslug
  unfold moduleOfDoc
  simp only [hfunctions, hslugText, hnameText, hstrings, bind, Except.bind, pure, Except.pure,
    Option.getD_some, firstNonempty_cons hname, firstNonempty_cons hempty, hslug, hids]
  simp [hfree, ModuleSpec.toDoc]

theorem modulesOfDocs_toDoc {modules : List ModuleSpec}
    (hnamed : ∀ m ∈ modules, m.name ≠ "") (hslugs : ∀ m ∈ modules, isSlug m.slug = true)
    (hapart : (modules.map (Text.lower ·.slug)).Nodup)
    (honce : (modules.flatMap (·.functions)).Nodup) {taken : Taken}
    (hfree : ∀ m ∈ modules, Text.lower m.slug ∉ taken.slugs)
    (hids : ∀ m ∈ modules, ∀ id ∈ m.functions, id ∉ taken.ids) (n : Nat) :
    modulesOfDocs n taken (modules.map ModuleSpec.toDoc) = .ok modules := by
  induction modules generalizing n taken with
  | nil => rfl
  | cons m modules ih =>
      rw [List.map_cons, List.nodup_cons] at hapart
      rw [List.flatMap_cons, List.nodup_append] at honce
      obtain ⟨hfirst, hrest, hdisjoint⟩ := honce
      obtain ⟨ids, htake⟩ := takeIds_of_free hfirst (hids m (by simp))
      obtain ⟨-, -, hmem⟩ := takeIds_eq_ok htake
      rw [List.map_cons, modulesOfDocs, moduleOfDoc_toDoc (hnamed m (by simp)) (hslugs m (by simp))
        (hfree m (by simp)) htake]
      simp only [bind, Except.bind]
      rw [ih (fun m' hm' => hnamed m' (by simp [hm'])) (fun m' hm' => hslugs m' (by simp [hm']))
        hapart.2 hrest]
      · rfl
      · intro m' hm' htaken
        rcases List.mem_cons.1 htaken with heq | htaken
        · exact hapart.1 (heq ▸ List.mem_map_of_mem hm')
        · exact hfree m' (by simp [hm']) htaken
      · intro m' hm' id hid htaken
        rcases (hmem id).1 htaken with hother | htaken
        · exact hdisjoint id hother id (List.mem_flatMap.2 ⟨m', hm', hid⟩) rfl
        · exact hids m' (by simp [hm']) id hid htaken

theorem Storable.ofDoc_toDoc {plan : Plan} (h : plan.Storable) : ofDoc plan.toDoc = .ok plan := by
  have hmodules : modulesOfDocs 1 {} (plan.modules.map ModuleSpec.toDoc) = .ok plan.modules :=
    modulesOfDocs_toDoc h.named h.slugs h.apart h.once (by simp) (by simp) 1
  have hlookup : (([("modules", .array (plan.modules.map ModuleSpec.toDoc))] :
      List (String × Json))).lookup "modules" = some (.array (plan.modules.map ModuleSpec.toDoc)) := by
    simp [List.lookup]
  simp only [ofDoc, toDoc, hlookup, bind, Except.bind, pure, Except.pure, hmodules]

theorem readable_ofStrings (texts : List String) : (Json.ofStrings texts).Readable := by
  refine .array _ ?_
  intro item hitem
  obtain ⟨text, -, rfl⟩ := List.mem_map.1 hitem
  exact .string text

theorem readable_module (m : ModuleSpec) : m.toDoc.Readable := by
  refine .object _ (by simp) ?_
  simp only [List.mem_cons, List.not_mem_nil, or_false]
  rintro _ (rfl | rfl | rfl)
  · exact .string _
  · exact .string _
  · exact readable_ofStrings _

theorem readable_toDoc (plan : Plan) : plan.toDoc.Readable := by
  refine .object _ (by simp) ?_
  simp only [List.mem_singleton]
  rintro _ rfl
  refine .array _ ?_
  intro doc hdoc
  obtain ⟨m, -, rfl⟩ := List.mem_map.1 hdoc
  exact readable_module m

end ScriptSplit.Plan
