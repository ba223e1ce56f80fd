import ScriptSplit.Link.Insertion
import ScriptSplit.Proofs.Analysis.Invariants
import ScriptSplit.Proofs.Link.Names
import ScriptSplit.Proofs.Plan.Validity

/-!
# Names that a moved function finds

A function that is moved uses nothing but its own name and names of the top level. Those that it calls it
finds in its module: as a function there or by an import. Nothing is promised for other names of the top
level: they are not imported.
-/

namespace ScriptSplit

/-! ## Inserted lines -/

theorem Text.strip_cons {c : Char} (hc : isBlank c = false) (rest : Text) :
    ∃ rest', strip (c :: rest) = c :: rest' := by
  unfold strip stripLeft stripRight
  rw [List.dropWhile_cons_of_neg (by simp [hc]), List.reverse_cons, List.dropWhile_append]
  split
  · exact ⟨[], by simp [hc]⟩
  · rw [List.reverse_append]
    exact ⟨_, rfl⟩

namespace Insertion

def StandsIn (line : String) (text : Text) : Prop :=
  ∃ above newline below, text = above ++ line.toList ++ newline ++ below ∧
    (above = [] ∨ endsInNewline above = true) ∧ endsInNewline newline = true

theorem endsInNewline_append {line rest : Text} (h : endsInNewline rest = true) :
    endsInNewline (line ++ rest) = true := by
  unfold endsInNewline at h ⊢
  rw [List.getLast?_append]
  cases hlast : rest.getLast? with
  | none =>
      rw [hlast] at h
      cases h
  | some c =>
      rw [hlast] at h
      exact h

theorem endsInNewline_newline (lines : List Text) : endsInNewline (newline lines) = true := by
  unfold newline
  split
  · split <;> rfl
  · rfl

theorem endsInNewline_flatten {lines : List Text} (h : ∀ line ∈ lines, endsInNewline line = true) :
    lines.flatten = [] ∨ endsInNewline lines.flatten = true := by
  rcases List.eq_nil_or_concat lines with rfl | ⟨front, last, rfl⟩
  · exact Or.inl rfl
  · rw [List.concat_eq_append, List.flatten_append, List.flatten_singleton]
    exact Or.inr (endsInNewline_append (h last (by simp)))

theorem dropPlaceholder_sublist (lines : List Text) : (dropPlaceholder lines).Sublist lines := by
  induction lines with
  | nil => exact List.Sublist.refl _
  | cons line lines ih =>
      unfold dropPlaceholder
      split
      · split
        · split
          · exact (List.sublist_cons_self _ _).trans (List.sublist_cons_self _ _)
          · exact List.sublist_cons_self _ _
        · exact List.nil_sublist _
      · exact ih.cons_cons _

theorem dropPlaceholder_append {line : Text} (hline : (line.strip == importsPlaceholder.toList) = false)
    (hblank : line.isBlankText = false) (front back : List Text) :
    ∃ front' back', front'.Sublist front ∧ back'.Sublist back ∧
      dropPlaceholder (front ++ line :: back) = front' ++ line :: back' := by
  have hrefl := List.Sublist.refl back
  induction front with
  | nil =>
      exact ⟨[], dropPlaceholder back, List.Sublist.refl _, dropPlaceholder_sublist back,
        by simp [dropPlaceholder, hline]⟩
  | cons first front ih =>
      rw [List.cons_append]
      by_cases hfirst : (first.strip == importsPlaceholder.toList) = true
      · cases front with
        | nil => exact ⟨[], back, List.nil_sublist _, hrefl, by simp [dropPlaceholder, hfirst, hblank]⟩
        | cons next front =>
            by_cases hnext : next.isBlankText = true
            · exact ⟨front, back, (List.sublist_cons_self _ _).trans (List.sublist_cons_self _ _),
                hrefl, by simp [dropPlaceholder, hfirst, hnext]⟩
            · exact ⟨next :: front, back, List.sublist_cons_self _ _, hrefl,
                by simp [dropPlaceholder, hfirst, hnext]⟩
      · obtain ⟨front', back', hfront, hback, heq⟩ := ih
        exact ⟨first :: front', back', hfront.cons_cons _, hback,
          by simp [dropPlaceholder, hfirst, heq]⟩

/-- Every added line stands below the first one, on a line of its own. -/
theorem below_eq {newline : Text} (hnewline : endsInNewline newline = true) {before : List Text}
    (hbefore : ∀ line ∈ before, endsInNewline line = true) (line : Text) (after lines : List Text) :
    ∃ front back, (∀ x ∈ front, endsInNewline x = true) ∧
      below newline (before ++ line :: after) lines = front ++ line :: back := by
  cases lines with
  | nil => exact ⟨before, after, hbefore, rfl⟩
  | cons first rest =>
      refine ⟨(if endsInNewline first then first else first ++ newline) :: before, after ++ rest,
        ?_, by simp [below]⟩
      intro x hx
      rcases List.mem_cons.1 hx with rfl | hx
      · split
        · next hends => exact hends
        · exact endsInNewline_append hnewline
      · exact hbefore x hx

end Insertion

/-- A line that begins with a letter is inserted unless the text has it. -/
theorem standsIn_insertImports {text : Text} {wanted : List String} {line : String} {rest : Text}
    (hline : line.toList = 'i' :: rest) (hwanted : line ∈ wanted)
    (hfresh : line.toList ∉ text.lines.map Text.strip) :
    Insertion.StandsIn line (insertImports text wanted).1 := by
  have hmissing : line ∈ Insertion.missing text wanted := by
    unfold Insertion.missing
    simpa [hwanted] using hfresh
  unfold insertImports
  have hsome : (Insertion.missing text wanted).isEmpty = false := by
    rw [List.isEmpty_eq_false_iff]
    exact List.ne_nil_of_mem hmissing
  simp only [hsome, Bool.false_eq_true, if_false]
  generalize Insertion.missing text wanted = added at hmissing
  have hnewline := Insertion.endsInNewline_newline text.lines
  generalize Insertion.newline text.lines = newline at hnewline
  obtain ⟨before, after, rfl⟩ := List.append_of_mem hmissing
  rw [List.map_append, List.map_cons]
  have hbefore : ∀ x ∈ before.map fun line => line.toList ++ newline,
      Insertion.endsInNewline x = true := by
    intro x hx
    obtain ⟨other, -, rfl⟩ := List.mem_map.1 hx
    exact Insertion.endsInNewline_append hnewline
  obtain ⟨front, back, hfront, hbelow⟩ := Insertion.below_eq hnewline hbefore
    (line.toList ++ newline) (after.map fun line => line.toList ++ newline) text.lines
  have hi : Text.isBlank 'i' = false := by decide
  have hstrip : (Text.strip (line.toList ++ newline) == importsPlaceholder.toList) = false := by
    obtain ⟨rest', hstrip⟩ := Text.strip_cons hi (rest ++ newline)
    rw [hline, List.cons_append, hstrip]
    rfl
  have hblank : Text.isBlankText (line.toList ++ newline) = false := by
    simp [hline, Text.isBlankText, hi]
  obtain ⟨front', back', hsub, -, hdrop⟩ := Insertion.dropPlaceholder_append hstrip hblank front back
  refine ⟨front'.flatten, newline, back'.flatten, ?_, ?_, hnewline⟩
  · rw [hbelow, hdrop]
    simp
  · exact Insertion.endsInNewline_flatten fun x hx => hfront x (hsub.subset hx)

/-! ## Names of a module -/

namespace Layout

variable {plan : Plan} {facts : Facts} {directory : Path} {basename : String} {m : ModuleSpec}
  {name : String}

def calledLines (layout : Layout) (calls : List CallEdge) (slug : String) : List String :=
  layout.importLines slug (((layout.calledNames calls).get? slug).getD [])

/-- How a name gets a binding at the top level of a module that was written with a text: a function there
has the name, or the line that imports it is inserted. -/
inductive Binds (layout : Layout) (facts : Facts) (m : ModuleSpec) (written : Text) (name : String) :
    Prop where
  | declared {f : FunctionRecord} (member : f ∈ Emission.records facts m) (named : f.name = name)
  | imported {line : String} (found : layout.importLine? m.slug name = some line)
      (inserted : Insertion.StandsIn line
        (insertImports written (layout.calledLines facts.calls m.slug)).1)

/-- A module needs a name exactly if one of its functions calls it and only other modules declare it. -/
theorem mem_needed_iff (honce : plan.assigned.Nodup) (hslugs : (plan.modules.map (·.slug)).Nodup)
    (hm : m ∈ plan.modules) (hother : m.isOriginal = false) :
    name ∈ (((ofPlan plan facts directory basename).calledNames facts.calls).get? m.slug).getD [] ↔
      (∃ id ∈ m.functions, { caller := id, callee := name } ∈ facts.calls) ∧
        name ∉ exportNames (Emission.records facts m) ∧
          ∃ m' ∈ plan.modules, name ∈ exportNames (Emission.records facts m') := by
  have hnamed := ofPlan_named plan facts directory basename
  have hsame : ∀ m' ∈ plan.modules, m.slug = m'.slug → m' = m := fun m' hm' hslug =>
    List.inj_on_of_nodup_map hslugs hm' hm hslug.symm
  have hdeclared : name ∈ (ofPlan plan facts directory basename).names m.slug ↔
      name ∈ exportNames (Emission.records facts m) := by
    rw [mem_names_ofPlan]
    constructor
    · rintro ⟨m', hm', hslug, hname⟩
      rwa [hsame m' hm' hslug] at hname
    · exact fun hname => ⟨m, hm, rfl, hname⟩
  have hfound : ((ofPlan plan facts directory basename).moduleOfName.get? name).isSome = true ↔
      ∃ m' ∈ plan.modules, name ∈ exportNames (Emission.records facts m') := by
    constructor
    · intro hsome
      obtain ⟨slug, hslug⟩ := Option.isSome_iff_exists.1 hsome
      obtain ⟨m', hm', -, hname⟩ := mem_names_ofPlan.1 (hnamed.declared _ _ hslug)
      exact ⟨m', hm', hname⟩
    · rintro ⟨m', hm', hname⟩
      exact hnamed.found _ _ (mem_names_ofPlan.2 ⟨m', hm', rfl, hname⟩)
  rw [mem_calledNames, ← hfound]
  constructor
  · rintro ⟨edge, hedge, himporter, rfl⟩
    obtain ⟨hid, -, hnames, hsome⟩ := (importerOf?_eq_some hnamed).1 himporter
    obtain ⟨m', hm', hslug, hcaller⟩ := mem_of_moduleOfId_ofPlan hid
    rw [hsame m' hm' hslug.symm] at hcaller
    exact ⟨⟨edge.caller, hcaller, hedge⟩, fun hname => hnames (hdeclared.2 hname), hsome⟩
  · rintro ⟨⟨id, hid, hcall⟩, hnames, hsome⟩
    refine ⟨_, hcall, (importerOf?_eq_some hnamed).2 ⟨moduleOfId_ofPlan honce hm hid,
      acceptsImports_ofPlan hother, fun hname => hnames (hdeclared.1 hname), hsome⟩, rfl⟩

/-- The line for a needed name is inserted. -/
theorem binds_of_needed {layout : Layout} {written : Text}
    (hneeded : name ∈ ((layout.calledNames facts.calls).get? m.slug).getD []) {line : String}
    (hline : layout.importLine? m.slug name = some line)
    (hfresh : line.toList ∉ written.lines.map Text.strip) : layout.Binds facts m written name := by
  have hletter : line.toList = 'i' :: line.toList.tail := by
    unfold importLine? at hline
    obtain ⟨target, -, rfl⟩ := Option.map_eq_some_iff.1 hline
    simp [String.toList_append]
  exact .imported hline (standsIn_insertImports hletter
    (List.mem_filterMap.2 ⟨name, hneeded, hline⟩) hfresh)

end Layout

/-! ## Names that a function uses -/

theorem function?_of_nodup {facts : Facts} (hdistinct : (facts.functions.map (·.id)).Nodup)
    {f : FunctionRecord} (hf : f ∈ facts.functions) : facts.function? f.id = some f := by
  unfold Facts.function?
  cases hfind : facts.functions.reverse.find? (·.id == f.id) with
  | none =>
      have hnot := List.find?_eq_none.1 hfind f (List.mem_reverse.2 hf)
      simp at hnot
  | some g =>
      have hid : g.id = f.id := by simpa using List.find?_some hfind
      have hg : g ∈ facts.functions := List.mem_reverse.1 (List.mem_of_find?_eq_some hfind)
      rw [List.inj_on_of_nodup_map hdistinct hg hf hid]

theorem facts_of_analyzeTree {reader : Script.Reader} {program : Option Script.Tree} {text : Text}
    {path : String} {closureCalls : Bool} {analysis : Analysis}
    (hrun : analyzeTree reader program text path closureCalls = .ok analysis) :
    analysis.facts.functions =
        (Candidate.dedupe (Candidate.ofText reader text program closureCalls)).mapIdx Candidate.record ∧
      analysis.facts.calls =
          ((Candidate.dedupe (Candidate.ofText reader text program closureCalls)).mapIdx
            Candidate.calls).flatten ∧
        analysis.facts.topLevel =
          topLevelNames program (Candidate.ofText reader text program closureCalls) := by
  unfold analyzeTree at hrun
  simp only at hrun
  split at hrun
  · cases hrun
  · next kept hkept =>
      cases hrun
      exact ⟨rfl, rfl, rfl⟩

theorem Candidate.mem_free_ofProgram {reader : Script.Reader} {text : Text} {program : Script.Tree}
    {closureCalls : Bool} {c : Candidate} (hc : c ∈ ofProgram reader text program closureCalls) {name : String} :
    name ∈ c.free ↔ name ∈ c.used ∧ name ∉ c.params ∧ name ∉ c.locals ∧ name ∉ builtins ∧
      name ∉ c.name :: (SymbolTable.ofProgram program).topLevel := by
  obtain ⟨d, -, rfl⟩ := List.mem_map.1 hc
  exact Scope.mem_free

/-- What a function that can be moved uses is bound by itself, built in or known at the top level. -/
theorem used_of_moveable {reader : Script.Reader} {program : Script.Tree} {text : Text} {path : String}
    {closureCalls : Bool} {analysis : Analysis}
    (hrun : analyzeTree reader (some program) text path closureCalls = .ok analysis)
    {f : FunctionRecord} (hf : f ∈ analysis.facts.functions) (hmoveable : f.moveable = true)
    {name : String} (hused : name ∈ f.used) (hparams : name ∉ f.params) (hlocals : name ∉ f.locals)
    (hbuiltins : name ∉ builtins) : name = f.name ∨ name ∈ analysis.facts.topLevel := by
  obtain ⟨hfunctions, -, htopLevel⟩ := facts_of_analyzeTree hrun
  rw [hfunctions] at hf
  obtain ⟨n, hn, rfl⟩ := List.mem_mapIdx.1 hf
  have hc := Candidate.mem_of_mem_dedupe (List.getElem_mem hn)
  rw [htopLevel]
  by_contra hfree
  have hmem := (Candidate.mem_free_ofProgram hc).2
    ⟨hused, hparams, hlocals, hbuiltins, fun hexempt => hfree (List.mem_cons.1 hexempt)⟩
  rw [(Candidate.moveable_ofProgram hc).1 hmoveable] at hmem
  cases hmem

/-- What a moved function uses is a name of the top level or its own, and where it calls a function that
can be exported, its module has a binding for the name of that. -/
theorem used_name_bound {reader : Script.Reader} {program : Script.Tree} {text : Text} {path : String}
    {closureCalls : Bool} {analysis : Analysis}
    (hrun : analyzeTree reader (some program) text path closureCalls = .ok analysis) {plan : Plan}
    {maxFiles : Int} {basename : String}
    (hvalid : plan.validate analysis.facts.functions maxFiles (some basename) = .ok ())
    (hslugs : (plan.modules.map (·.slug)).Nodup) {m : ModuleSpec} (hm : m ∈ plan.modules)
    (hother : m.isOriginal = false) {f : FunctionRecord} (hf : f ∈ analysis.facts.functions)
    (hmoved : f.id ∈ m.functions) {name : String} (hused : name ∈ f.used) (hparams : name ∉ f.params)
    (hlocals : name ∉ f.locals) (hbuiltins : name ∉ builtins) (directory : Path)
    (banner source : Text) :
    let layout := Layout.ofPlan plan analysis.facts directory basename
    let written := (Emission.moduleText reader banner source m (Emission.records analysis.facts m)).1
    (name = f.name ∨ name ∈ analysis.facts.topLevel) ∧
      ({ caller := f.id, callee := name } ∈ analysis.facts.calls →
        name ∈ analysis.facts.functions.map (·.name) → isExportable name = true →
          (∀ line, layout.importLine? m.slug name = some line →
            line.toList ∉ written.lines.map Text.strip) →
              layout.Binds analysis.facts m written name) := by
  have hfits := Plan.fits_of_validate hvalid
  have hdistinct : (analysis.facts.functions.map (·.id)).Nodup := by
    rw [(facts_of_analyzeTree hrun).1, ids_mapIdx]
    exact List.nodup_range.map functionId_injective
  have hmoveable : f.moveable = true := by
    cases horiginal : plan.original? with
    | none => exact hfits.moveable horiginal f hf
    | some m' =>
        by_contra hfixed
        have hid := (hfits.original m' horiginal f.id).2
          (List.mem_map_of_mem (List.mem_filter.2 ⟨hf, by simpa using hfixed⟩))
        have hm' := List.mem_of_find?_eq_some horiginal
        have hslug : (Layout.ofPlan plan analysis.facts directory basename).moduleOfId.get? f.id =
            some m'.slug := Layout.moduleOfId_ofPlan hfits.once hm' hid
        rw [Layout.moduleOfId_ofPlan hfits.once hm hmoved, Option.some.injEq] at hslug
        have hthis : m'.isOriginal = true := by simpa using List.find?_some horiginal
        rw [List.inj_on_of_nodup_map hslugs hm' hm hslug.symm, hother] at hthis
        cases hthis
  refine ⟨used_of_moveable hrun hf hmoveable hused hparams hlocals hbuiltins, ?_⟩
  intro hcalled hfunction hexportable hfresh
  obtain ⟨g, hg, rfl⟩ := List.mem_map.1 hfunction
  -- the function that is called is in some module
  obtain ⟨m', hm', hid⟩ := List.mem_flatMap.1 (hfits.complete g.id (List.mem_map_of_mem hg))
  have hrecord : g ∈ Emission.records analysis.facts m' :=
    List.mem_filterMap.2 ⟨g.id, hid, function?_of_nodup hdistinct hg⟩
  by_cases hown : g.name ∈ exportNames (Emission.records analysis.facts m)
  · obtain ⟨-, own, hmember, hnamed⟩ := mem_exportNames.1 hown
    exact .declared hmember hnamed
  · have hneeded : g.name ∈ (((Layout.ofPlan plan analysis.facts directory basename).calledNames
        analysis.facts.calls).get? m.slug).getD [] :=
      (Layout.mem_needed_iff hfits.once hslugs hm hother).2 ⟨⟨f.id, hmoved, hcalled⟩, hown, m', hm',
        mem_exportNames.2 ⟨hexportable, g, hrecord, rfl⟩⟩
    obtain ⟨slug, hslug⟩ := Option.isSome_iff_exists.1 <|
      (Layout.ofPlan_named plan analysis.facts directory basename).found g.name m'.slug
        (Layout.mem_names_ofPlan.2 ⟨m', hm', rfl, mem_exportNames.2 ⟨hexportable, g, hrecord, rfl⟩⟩)
    obtain ⟨line, hline⟩ : ∃ line, (Layout.ofPlan plan analysis.facts directory basename).importLine?
        m.slug g.name = some line := by simp [Layout.importLine?, hslug]
    exact Layout.binds_of_needed hneeded hline (hfresh line hline)

def pairCaller : FunctionRecord where
  id := "f0000"
  name := "a"
  start := 0
  stop := 29
  moveable := true
  used := ["b", "x"]
  params := ["x"]

def pairCallee : FunctionRecord where
  id := "f0001"
  name := "b"
  start := 30
  stop := 45
  moveable := true

def callerModule : ModuleSpec where
  name := "a"
  slug := "a"
  functions := ["f0000"]

/-- A plan that moves the two functions of the pair apart. -/
def pairPlan : Plan where
  modules := [callerModule, { name := "b", slug := "b", functions := ["f0001"] }]

private theorem dedupe_pair : Candidate.dedupe (Candidate.ofText .ofGrammar pair (some pairTree) false) =
    Candidate.ofText .ofGrammar pair (some pairTree) false := by
  have hsorted : (Candidate.ofText .ofGrammar pair (some pairTree) false).Pairwise
      fun a b => Candidate.before a b = true := by decide +kernel
  unfold Candidate.dedupe
  rw [List.mergeSort_of_pairwise hsorted]
  decide +kernel

theorem used_name_bound_pair :
    ∃ analysis f m, analyzeTree .ofGrammar (some pairTree) pair "pair.js" false = .ok analysis ∧
      pairPlan.validate analysis.facts.functions 2 (some "pair") = .ok () ∧
      (pairPlan.modules.map (·.slug)).Nodup ∧ m ∈ pairPlan.modules ∧ m.isOriginal = false ∧
      f ∈ analysis.facts.functions ∧ f.id ∈ m.functions ∧ "b" ∈ f.used ∧ "b" ∉ f.params ∧
      "b" ∉ f.locals ∧ "b" ∉ builtins ∧ "b" ≠ f.name ∧ "b" ∈ analysis.facts.topLevel ∧
      "b" ∉ exportNames (Emission.records analysis.facts m) ∧
      (Layout.ofPlan pairPlan analysis.facts { slashes := 1, parts := ["out"] } "pair").Binds
        analysis.facts m
        (Emission.moduleText .ofGrammar "'use strict';".toList pair m (Emission.records analysis.facts m)).1
        "b" := by
  obtain ⟨analysis, hrun⟩ : ∃ analysis,
      analyzeTree .ofGrammar (some pairTree) pair "pair.js" false = .ok analysis := by
    have hsome : (Candidate.ofText .ofGrammar pair (some pairTree) false).isEmpty = false := by decide +kernel
    unfold analyzeTree
    simp only [dedupe_pair]
    split
    · next hnone =>
        rw [hnone] at hsome
        cases hsome
    · exact ⟨_, rfl⟩
  obtain ⟨hfunctions, hcalls, htopLevel⟩ := facts_of_analyzeTree hrun
  rw [dedupe_pair] at hfunctions hcalls
  have hrecords : (Candidate.ofText .ofGrammar pair (some pairTree) false).mapIdx Candidate.record =
      [pairCaller, pairCallee] := by
    decide +kernel
  have hedges : ((Candidate.ofText .ofGrammar pair (some pairTree) false).mapIdx Candidate.calls).flatten =
      [{ caller := "f0000", callee := "b" }] := by decide +kernel
  rw [hrecords] at hfunctions
  rw [hedges] at hcalls
  have hmem : pairCaller ∈ analysis.facts.functions := by
    rw [hfunctions]
    decide
  have hmember : Emission.records analysis.facts callerModule = [pairCaller] := by
    have hfound : analysis.facts.function? pairCaller.id = some pairCaller :=
      function?_of_nodup (by rw [hfunctions]; decide) hmem
    simp only [Emission.records, callerModule, List.filterMap_cons, List.filterMap_nil]
    rw [show analysis.facts.function? "f0000" = some pairCaller from hfound]
  have hvalid : pairPlan.validate analysis.facts.functions 2 (some "pair") = .ok () := by
    rw [hfunctions]
    decide +kernel
  have hbound := used_name_bound hrun hvalid (by decide) (m := callerModule) (by decide)
    (by decide +kernel) hmem (by decide) (show "b" ∈ pairCaller.used by decide) (by decide)
    (by decide) (by decide) { slashes := 1, parts := ["out"] } "'use strict';".toList pair
  have hfresh : ∀ line, (Layout.ofPlan pairPlan analysis.facts { slashes := 1, parts := ["out"] }
      "pair").importLine? callerModule.slug "b" = some line →
        line.toList ∉ (Emission.moduleText .ofGrammar "'use strict';".toList pair callerModule
          (Emission.records analysis.facts callerModule)).1.lines.map Text.strip := by
    intro line hline hmem
    rw [hmember] at hmem
    obtain ⟨target, -, rfl⟩ := Option.map_eq_some_iff.1 hline
    have hnone : ∀ shown ∈ (Emission.moduleText .ofGrammar "'use strict';".toList pair callerModule
        [pairCaller]).1.lines.map Text.strip, "import".toList.isPrefixOf shown = false := by
      decide +kernel
    have hprefix := hnone _ hmem
    simp [String.toList_append] at hprefix
  refine ⟨analysis, pairCaller, callerModule, hrun, hvalid, by decide, by decide, by decide +kernel,
    hmem, by decide, by decide, by decide, by decide, by decide, by decide, ?_, ?_,
    hbound.2 ?_ ?_ (by decide +kernel) hfresh⟩
  · rw [htopLevel]
    decide +kernel
  · rw [hmember]
    decide +kernel
  · rw [hcalls]
    decide
  · rw [hfunctions]
    decide

end ScriptSplit
