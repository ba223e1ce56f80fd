import Mathlib.Logic.Basic
import ScriptSplit.Proofs.Link.Declared
import ScriptSplit.Proofs.Link.Mentions
import ScriptSplit.Proofs.Run.Places
import ScriptSplit.Stage.Link

/-!
# What modules need

A module needs a name of another module because a function of it calls that name or, where no calls are
known, because its text mentions the name. It never needs a name that it declares itself.
-/

namespace ScriptSplit

def NeededNames.names (needed : NeededNames) (slug : String) : List String :=
  (needed.get? slug).getD []

/-! ## The name in an import line -/

namespace ImportPreview

theorem importedName_line {name : Text} (hname : Text.isName name = true) (rest : Text) :
    ∃ n, importedName none ("import \x7b ".toList ++ (name ++ ' ' :: '\x7d' :: rest)) =
      some (String.ofList name, n) := by
  have hbrace : Text.isBlank '\x7b' = false := by decide
  have hclose : Text.isBlank '\x7d' = false := by decide
  have hspace : Text.isNamePart ' ' = false := by decide
  have hline : "import \x7b ".toList ++ (name ++ ' ' :: '\x7d' :: rest) =
      "import".toList ++ (' ' :: '\x7b' :: ' ' :: (name ++ ' ' :: '\x7d' :: rest)) := by simp
  have hskip : Text.skipBlanks (name ++ ' ' :: '\x7d' :: rest) = name ++ ' ' :: '\x7d' :: rest := by
    cases name with
    | nil => simp [Text.isName] at hname
    | cons first name =>
        simp only [Text.isName, Bool.and_eq_true] at hname
        exact Text.skipBlanks_cons (Text.isBlank_of_isNameStart hname.1) _
  rw [hline]
  unfold importedName
  simp only [Text.afterWord?_append, Option.bind_eq_bind, Option.bind_some, Text.skipBlanks_space,
    Text.skipBlanks_cons hbrace, hskip, Text.spanName?_append hname hspace,
    Text.skipBlanks_cons hclose]
  exact ⟨_, rfl⟩

theorem nameIn?_importLine {layout : Layout} {importer name line : String}
    (hexportable : isExportable name = true) (hbreak : '\n' ∉ name.toList)
    (hline : layout.importLine? importer name = some line) : nameIn? line = some name := by
  obtain ⟨target, -, rfl⟩ := Option.map_eq_some_iff.1 hline
  generalize Path.specifierFrom (layout.file importer).parent (layout.file target) = specifier
  have htext : ("import \x7b " ++ name ++ " \x7d from '" ++ specifier ++ "';").toList =
      "import \x7b ".toList ++ (name.toList ++ ' ' :: '\x7d' ::
        (" from '".toList ++ (specifier.toList ++ "';".toList))) := by
    simp [String.toList_append]
  obtain ⟨n, hfound⟩ := importedName_line (Text.isName_of_isExportable hexportable hbreak)
    (" from '".toList ++ (specifier.toList ++ "';".toList))
  rw [← htext] at hfound
  unfold nameIn? Text.findAll
  cases hcs : ("import \x7b " ++ name ++ " \x7d from '" ++ specifier ++ "';").toList with
  | nil => simp [htext] at hcs
  | cons c rest =>
      rw [hcs] at hfound
      rw [Text.findAllFrom, if_neg (Nat.lt_irrefl 0), hfound]
      simp

end ImportPreview

/-! ## What texts mention -/

namespace Layout

variable {layout : Layout} {slug name line : String} {text : Text} {files : Files}

theorem mem_mentionedLines (h : Unambiguous layout.moduleOfName) :
    line ∈ layout.mentionedLines slug text ↔
      ∃ name target, layout.moduleOfName.get? name = some target ∧ target ≠ slug ∧
        name ∉ layout.names slug ∧ (firstReference? text name.toList).isSome = true ∧
          layout.importLine? slug name = some line := by
  unfold mentionedLines
  simp only [List.mem_eraseDups, List.mem_filterMap, List.mem_mergeSort, Prod.exists]
  constructor
  · rintro ⟨name, target, hmem, hline⟩
    split at hline
    · cases hline
    · next hguard =>
        simp only [Bool.or_eq_true, decide_eq_true_eq, List.contains_iff_mem, Option.isNone_iff_eq_none,
          not_or] at hguard
        exact ⟨name, target, h _ hmem, hguard.1.1, hguard.1.2,
          Option.isSome_iff_ne_none.2 hguard.2, hline⟩
  · rintro ⟨name, target, hget, hne, hnames, hreference, hline⟩
    refine ⟨name, target, Table.mem_of_get? hget, ?_⟩
    rw [if_neg]
    · exact hline
    · simp [hne, hnames, Option.isSome_iff_ne_none.1 hreference]

def proposed (layout : Layout) (files : Files) (slug : String) : List String :=
  ((files.textAt? (layout.file slug)).map (layout.mentionedLines slug)).getD []

theorem proposed_eq (htext : files.textAt? (layout.file slug) = some text) :
    layout.proposed files slug = layout.mentionedLines slug text := by
  rw [proposed, htext, Option.map_some, Option.getD_some]

theorem proposed_eq_nil (htext : files.textAt? (layout.file slug) = none) :
    layout.proposed files slug = [] := by
  rw [proposed, htext, Option.map_none, Option.getD_none]

def Readable (layout : Layout) (files : Files) : Prop :=
  ∀ slug ∈ layout.slugs, layout.acceptsImports slug = true →
    files.has (layout.file slug) = true → (files.textAt? (layout.file slug)).isSome = true

def extendPreview (layout : Layout) (files : Files) (preview : ImportPreview) (slug : String) :
    ImportPreview :=
  if (layout.proposed files slug).isEmpty then preview
  else preview.put slug (layout.proposed files slug)

def preview (layout : Layout) (files : Files) : ImportPreview :=
  (layout.slugs.filter layout.acceptsImports).foldl (layout.extendPreview files) []

theorem get?_extendPreview (preview : ImportPreview) (first slug : String) :
    (layout.extendPreview files preview first).get? slug =
      if slug = first ∧ layout.proposed files slug ≠ [] then some (layout.proposed files slug)
      else preview.get? slug := by
  unfold extendPreview
  by_cases hempty : layout.proposed files first = []
  · rw [if_pos (by simpa using hempty), if_neg]
    rintro ⟨rfl, hne⟩
    exact hne hempty
  · rw [if_neg (by simpa using hempty), Table.get?_put]
    by_cases hslug : slug = first
    · subst hslug
      simp [hempty]
    · simp [hslug]

theorem get?_foldl_extendPreview (slugs : List String) (preview : ImportPreview) (slug : String) :
    (slugs.foldl (layout.extendPreview files) preview).get? slug =
      if slug ∈ slugs ∧ layout.proposed files slug ≠ [] then some (layout.proposed files slug)
      else preview.get? slug := by
  induction slugs generalizing preview with
  | nil => simp
  | cons first slugs ih =>
      rw [List.foldl_cons, ih, get?_extendPreview]
      by_cases hslugs : slug ∈ slugs
      · by_cases hlines : layout.proposed files slug = [] <;> simp [hslugs, hlines]
      · simp [hslugs]

theorem mem_foldl_extendPreview {slugs : List String} {preview : ImportPreview}
    {lines : List String}
    (hentry : (slug, lines) ∈ slugs.foldl (layout.extendPreview files) preview) :
    (slug, lines) ∈ preview ∨ slug ∈ slugs ∧ lines = layout.proposed files slug := by
  induction slugs generalizing preview with
  | nil => exact Or.inl hentry
  | cons first slugs ih =>
      rw [List.foldl_cons] at hentry
      rcases ih hentry with hold | ⟨hslug, hlines⟩
      · unfold extendPreview at hold
        split at hold
        · exact Or.inl hold
        · rcases Table.mem_put hold with hnew | hold
          · obtain ⟨hslug, hlines⟩ := Prod.mk.inj hnew
            exact Or.inr ⟨hslug ▸ List.mem_cons_self, hslug ▸ hlines⟩
          · exact Or.inl hold
      · exact Or.inr ⟨List.mem_cons_of_mem _ hslug, hlines⟩

theorem exists_mem_preview :
    (∃ lines, (slug, lines) ∈ layout.preview files ∧ line ∈ lines) ↔
      slug ∈ layout.slugs ∧ layout.acceptsImports slug = true ∧ line ∈ layout.proposed files slug := by
  unfold preview
  constructor
  · rintro ⟨lines, hmem, hline⟩
    rcases mem_foldl_extendPreview hmem with hnone | ⟨hslug, hlines⟩
    · exact absurd hnone List.not_mem_nil
    · obtain ⟨hslug, haccepts⟩ := List.mem_filter.1 hslug
      exact ⟨hslug, haccepts, hlines ▸ hline⟩
  · rintro ⟨hslug, haccepts, hline⟩
    refine ⟨layout.proposed files slug, Table.mem_of_get? ?_, hline⟩
    rw [get?_foldl_extendPreview, if_pos]
    exact ⟨List.mem_filter.2 ⟨hslug, haccepts⟩, List.ne_nil_of_mem hline⟩

end Layout

namespace ImportPreview

variable {slug name : String}

private theorem mem_foldl_add {names : List String} {needed : NeededNames} {other : String} :
    name ∈ (names.foldl (fun needed name => NeededNames.add needed other name) needed).names slug ↔
      name ∈ needed.names slug ∨ slug = other ∧ name ∈ names := by
  induction names generalizing needed with
  | nil => simp
  | cons first names ih =>
      rw [List.foldl_cons, ih]
      unfold NeededNames.names
      rw [Layout.mem_add, List.mem_cons]
      tauto

theorem mem_needed {preview : ImportPreview} :
    name ∈ preview.needed.names slug ↔
      ∃ line, (∃ lines, (slug, lines) ∈ preview ∧ line ∈ lines) ∧ nameIn? line = some name := by
  suffices hfold : ∀ needed : NeededNames,
      name ∈ NeededNames.names (preview.foldl (fun needed (entry : String × List String) =>
        (entry.2.filterMap nameIn?).foldl (fun needed name => needed.add entry.1 name)
          needed) needed) slug ↔ name ∈ needed.names slug ∨
            ∃ lines, (slug, lines) ∈ preview ∧ name ∈ lines.filterMap nameIn? by
    have hstart : name ∉ NeededNames.names [] slug := by simp [NeededNames.names, Table.get?]
    rw [ImportPreview.needed, hfold]
    simp only [hstart, false_or, List.mem_filterMap]
    constructor
    · rintro ⟨lines, hmem, line, hline, hname⟩
      exact ⟨line, ⟨lines, hmem, hline⟩, hname⟩
    · rintro ⟨line, ⟨lines, hmem, hline⟩, hname⟩
      exact ⟨lines, hmem, line, hline, hname⟩
  induction preview with
  | nil => simp
  | cons entry preview ih =>
      intro needed
      obtain ⟨other, lines⟩ := entry
      rw [List.foldl_cons, ih, mem_foldl_add, or_assoc]
      refine or_congr_right ?_
      constructor
      · rintro (⟨rfl, hname⟩ | ⟨lines', hmem, hname⟩)
        · exact ⟨lines, List.mem_cons_self, hname⟩
        · exact ⟨lines', List.mem_cons_of_mem _ hmem, hname⟩
      · rintro ⟨lines', hmem, hname⟩
        rcases List.mem_cons.1 hmem with heq | hmem
        · obtain ⟨rfl, rfl⟩ := Prod.mk.inj heq
          exact Or.inl ⟨rfl, hname⟩
        · exact Or.inr ⟨lines', hmem, hname⟩

end ImportPreview

/-! ## Finding imports -/

namespace Run

variable {surroundings : Surroundings} {s s' : RunState} {layout : Layout} {preview : ImportPreview}

theorem foldlM_eq_ok_of_step {α β : Type} {step : β → α → Run β} {next : β → α → β}
    {passes : α → Prop}
    (hstep : ∀ b a b' s', step b a surroundings s = .ok b' s' ↔ passes a ∧ b' = next b a ∧ s' = s)
    (list : List α) (b b' : β) (s' : RunState) :
    list.foldlM step b surroundings s = .ok b' s' ↔
      (∀ a ∈ list, passes a) ∧ b' = list.foldl next b ∧ s' = s := by
  induction list generalizing b with
  | nil =>
      rw [List.foldlM_nil]
      constructor
      · rintro ⟨⟩
        exact ⟨by simp, rfl, rfl⟩
      · rintro ⟨-, rfl, rfl⟩
        rfl
  | cons a list ih =>
      rw [List.foldlM_cons, bind_eq_ok]
      constructor
      · rintro ⟨c, s₁, hfirst, hrest⟩
        obtain ⟨hpasses, rfl, rfl⟩ := (hstep _ _ _ _).1 hfirst
        obtain ⟨hall, hresult, hsame⟩ := (ih _).1 hrest
        exact ⟨List.forall_mem_cons.2 ⟨hpasses, hall⟩, hresult, hsame⟩
      · rintro ⟨hall, hresult, hsame⟩
        obtain ⟨hpasses, hall⟩ := List.forall_mem_cons.1 hall
        exact ⟨_, s, (hstep _ _ _ _).2 ⟨hpasses, rfl, rfl⟩, (ih _).2 ⟨hall, hresult, hsame⟩⟩

theorem previewImports_eq_ok :
    previewImports layout surroundings s = .ok preview s' ↔
      layout.Readable s.files ∧ preview = layout.preview s.files ∧ s' = s := by
  have hreadable : layout.Readable s.files ↔ ∀ slug ∈ layout.slugs.filter layout.acceptsImports,
      s.files.has (layout.file slug) = true →
        (s.files.textAt? (layout.file slug)).isSome = true := by
    simp only [Layout.Readable, List.mem_filter, and_imp]
  rw [hreadable]
  unfold previewImports
  apply foldlM_eq_ok_of_step
  intro before slug after s₁
  rw [bind_files_eq]
  by_cases hhas : s.files.has (layout.file slug) = true
  · rw [if_pos hhas, bind_eq_ok]
    constructor
    · rintro ⟨text, s₂, hstored, hafter⟩
      obtain ⟨files, hread, rfl⟩ := storing_eq_ok.1 hstored
      obtain ⟨rfl, htext⟩ := Storage.readText_eq_ok.1 hread
      obtain ⟨hlines, hsame⟩ := EStateM.Result.ok.inj hafter
      refine ⟨fun _ => by simp [htext], ?_, hsame.symm⟩
      rw [← hlines, Layout.extendPreview, Layout.proposed_eq htext]
    · rintro ⟨hsome, hafter, hsame⟩
      obtain ⟨text, htext⟩ := Option.isSome_iff_exists.1 (hsome hhas)
      refine ⟨text, s, storing_eq (Storage.readText_eq_ok.2 ⟨rfl, htext⟩), ?_⟩
      rw [hafter, hsame, Layout.extendPreview, Layout.proposed_eq htext]
      rfl
  · have hnone : s.files.textAt? (layout.file slug) = none := by
      have hat : s.files.at? (layout.file slug) = none := by simpa [Files.has] using hhas
      simp [Files.textAt?, hat]
    have hproposed : layout.extendPreview s.files before slug = before := by
      rw [Layout.extendPreview, Layout.proposed_eq_nil hnone]
      rfl
    rw [if_neg hhas, hproposed]
    constructor
    · rintro ⟨⟩
      exact ⟨fun h => absurd h hhas, rfl, rfl⟩
    · rintro ⟨-, rfl, rfl⟩
      rfl

variable {config : Config} {plans : Path} {facts : Facts} {found : ImportPlan × List Warning}

theorem needed_of_findImports
    (hrun : findImports config plans facts layout surroundings s = .ok found s') :
    found.1.needed =
      if facts.calls = [] then (layout.preview s.files).needed else layout.calledNames facts.calls := by
  unfold findImports at hrun
  split at hrun
  · next hcalls =>
      have hne : facts.calls ≠ [] := by simpa using hcalls
      obtain ⟨hfound, -⟩ := EStateM.Result.ok.inj hrun
      rw [if_neg hne, ← hfound]
      rfl
  · next hcalls =>
      have hnil : facts.calls = [] := by simpa using hcalls
      obtain ⟨preview, s₁, hpreview, hrun⟩ := bind_eq_ok.1 hrun
      obtain ⟨-, rfl, rfl⟩ := previewImports_eq_ok.1 hpreview
      obtain ⟨-, s₂, -, hrun⟩ := bind_eq_ok.1 hrun
      rw [if_pos hnil]
      split at hrun
      · obtain ⟨hfound, -⟩ := EStateM.Result.ok.inj hrun
        rw [← hfound]
        rfl
      · obtain ⟨outcome, s₃, -, hrun⟩ := bind_eq_ok.1 hrun
        split at hrun
        · obtain ⟨hfound, -⟩ := EStateM.Result.ok.inj hrun
          rw [← hfound]
          rfl
        · obtain ⟨-, s₄, -, hrun⟩ := bind_eq_ok.1 hrun
          obtain ⟨hfound, -⟩ := EStateM.Result.ok.inj hrun
          rw [← hfound]
          rfl

end Run

/-! ## What is needed -/

namespace Layout

variable {layout : Layout} {slug name : String} {files : Files}

/-- A text makes its module need the names of other modules that it mentions. -/
theorem mem_needed_preview (hunambiguous : Unambiguous layout.moduleOfName)
    (hnames : ∀ name target, layout.moduleOfName.get? name = some target →
      isExportable name = true ∧ '\n' ∉ name.toList) :
    name ∈ (layout.preview files).needed.names slug ↔
      slug ∈ layout.slugs ∧ layout.acceptsImports slug = true ∧ name ∉ layout.names slug ∧
        (∃ target, layout.moduleOfName.get? name = some target ∧ target ≠ slug) ∧
          ∃ text, files.textAt? (layout.file slug) = some text ∧
            (firstReference? text name.toList).isSome = true := by
  rw [ImportPreview.mem_needed]
  simp only [exists_mem_preview]
  constructor
  · rintro ⟨line, ⟨hslug, haccepts, hline⟩, hname⟩
    cases htext : files.textAt? (layout.file slug) with
    | none => simp [proposed_eq_nil htext] at hline
    | some text =>
        rw [proposed_eq htext] at hline
        obtain ⟨other, target, hget, hne, hown, hreference, hother⟩ :=
          (mem_mentionedLines hunambiguous).1 hline
        obtain ⟨hexportable, hbreak⟩ := hnames other target hget
        have hsame : other = name := by
          rw [ImportPreview.nameIn?_importLine hexportable hbreak hother] at hname
          exact Option.some.inj hname
        subst hsame
        exact ⟨hslug, haccepts, hown, ⟨target, hget, hne⟩, text, rfl, hreference⟩
  · rintro ⟨hslug, haccepts, hown, ⟨target, hget, hne⟩, text, htext, hreference⟩
    obtain ⟨hexportable, hbreak⟩ := hnames name target hget
    obtain ⟨line, hline⟩ : ∃ line, layout.importLine? slug name = some line := by
      simp [importLine?, hget]
    refine ⟨line, ⟨hslug, haccepts, ?_⟩, ImportPreview.nameIn?_importLine hexportable hbreak hline⟩
    rw [proposed_eq htext]
    exact (mem_mentionedLines hunambiguous).2 ⟨name, target, hget, hne, hown, hreference, hline⟩

theorem mem_slugs_of_calledNames (h : layout.Closed) {calls : List CallEdge}
    (hname : name ∈ (layout.calledNames calls).names slug) : slug ∈ layout.slugs := by
  obtain ⟨edge, -, himporter, -⟩ := mem_calledNames.1 hname
  exact h.importerOf? himporter

theorem mem_slugs_of_preview (hname : name ∈ (layout.preview files).needed.names slug) :
    slug ∈ layout.slugs := by
  obtain ⟨line, hline, -⟩ := ImportPreview.mem_needed.1 hname
  exact (exists_mem_preview.1 hline).1

theorem exportable_of_moduleOfName {plan : Plan} {facts : Facts} {directory : Path}
    {basename target : String} (hbreaks : ∀ f ∈ facts.functions, '\n' ∉ f.name.toList)
    (hget : (ofPlan plan facts directory basename).moduleOfName.get? name = some target) :
    isExportable name = true ∧ '\n' ∉ name.toList := by
  obtain ⟨m, -, -, hname⟩ :=
    mem_names_ofPlan.1 ((ofPlan_named plan facts directory basename).declared _ _ hget)
  obtain ⟨hexportable, f, hf, rfl⟩ := mem_exportNames.1 hname
  obtain ⟨id, -, hfound⟩ := List.mem_filterMap.1 hf
  exact ⟨hexportable, hbreaks f (List.mem_reverse.1 (List.mem_of_find?_eq_some hfound))⟩

/-- Whether a module takes imports and only another module declares a name. -/
structure Lacks (layout : Layout) (m : ModuleSpec) (name : String) : Prop where
  other : m.isOriginal = false
  own : name ∉ layout.names m.slug
  found : ∃ target, layout.moduleOfName.get? name = some target ∧ target ≠ m.slug ∧
    name ∈ layout.names target

section Plan

variable {plan : Plan} (hplan : plan.Storable) {facts : Facts} {directory : Path} {basename : String}
  {m : ModuleSpec}

include hplan

theorem lacks_iff (hm : m ∈ plan.modules) :
    (ofPlan plan facts directory basename).Lacks m name ↔
      (ofPlan plan facts directory basename).acceptsImports m.slug = true ∧
        name ∉ (ofPlan plan facts directory basename).names m.slug ∧
          ((ofPlan plan facts directory basename).moduleOfName.get? name).isSome = true := by
  rw [acceptsImports_eq hplan facts directory basename hm]
  constructor
  · rintro ⟨hother, hown, target, hget, -, -⟩
    exact ⟨by simp [hother], hown, by simp [hget]⟩
  · rintro ⟨hother, hown, hsome⟩
    obtain ⟨target, hget⟩ := Option.isSome_iff_exists.1 hsome
    have hdeclared := (ofPlan_named plan facts directory basename).declared _ _ hget
    refine ⟨by simpa using hother, hown, target, hget, ?_, hdeclared⟩
    rintro rfl
    exact hown hdeclared

/-- A call makes the module of the caller need exactly what it lacks. -/
theorem mem_calledNames_iff (hm : m ∈ plan.modules) :
    name ∈ ((ofPlan plan facts directory basename).calledNames facts.calls).names m.slug ↔
      (ofPlan plan facts directory basename).Lacks m name ∧
        ∃ edge ∈ facts.calls, edge.caller ∈ m.functions ∧ edge.callee = name := by
  have hnamed := ofPlan_named plan facts directory basename
  rw [NeededNames.names, mem_calledNames, lacks_iff hplan hm]
  constructor
  · rintro ⟨edge, hedge, himporter, rfl⟩
    obtain ⟨hcaller, haccepts, hown, hsome⟩ := (importerOf?_eq_some hnamed).1 himporter
    obtain ⟨m', hm', hslug, hid⟩ := mem_of_moduleOfId_ofPlan hcaller
    have hsame := eq_of_lower_slug hplan hm' hm (congrArg Text.lower hslug)
    exact ⟨⟨haccepts, hown, hsome⟩, edge, hedge, hsame ▸ hid, rfl⟩
  · rintro ⟨⟨haccepts, hown, hsome⟩, edge, hedge, hid, rfl⟩
    exact ⟨edge, hedge, (importerOf?_eq_some hnamed).2
      ⟨moduleOfId_ofPlan hplan.once hm hid, haccepts, hown, hsome⟩, rfl⟩

/-- A text makes its module need exactly what it lacks and mentions. -/
theorem mem_needed_preview_iff (hbreaks : ∀ f ∈ facts.functions, '\n' ∉ f.name.toList)
    (hm : m ∈ plan.modules) :
    name ∈ ((ofPlan plan facts directory basename).preview files).needed.names m.slug ↔
      (ofPlan plan facts directory basename).Lacks m name ∧
        ∃ text, files.textAt? ((ofPlan plan facts directory basename).file m.slug) = some text ∧
          (firstReference? text name.toList).isSome = true := by
  have hslug : m.slug ∈ (ofPlan plan facts directory basename).slugs := by
    rw [ofPlan_slugs]
    exact List.mem_map_of_mem hm
  rw [mem_needed_preview (moduleOfName_unambiguous plan facts directory basename)
    fun _ _ hget => exportable_of_moduleOfName hbreaks hget, lacks_iff hplan hm]
  constructor
  · rintro ⟨-, haccepts, hown, ⟨target, hget, -⟩, hmentioned⟩
    exact ⟨⟨haccepts, hown, by simp [hget]⟩, hmentioned⟩
  · rintro ⟨⟨haccepts, hown, hsome⟩, hmentioned⟩
    obtain ⟨-, -, target, hget, hne, -⟩ := (lacks_iff hplan hm).2 ⟨haccepts, hown, hsome⟩
    exact ⟨hslug, haccepts, hown, ⟨target, hget, hne⟩, hmentioned⟩

end Plan

end Layout

/-- For a plan that was read, a layout gives every module the names that it exports, and every name to the
first module that has it. The imports that are found for a module are for names that it lacks: those that
its functions call or, where no calls are known, those that its text mentions. -/
theorem found_imports_exact {doc : Json} {plan : Plan} (hread : Plan.ofDoc doc = .ok plan)
    {facts : Facts} (hbreaks : ∀ f ∈ facts.functions, '\n' ∉ f.name.toList) (directory : Path)
    (basename : String) :
    let layout := Layout.ofPlan plan facts directory basename
    (∀ m ∈ plan.modules, layout.names m.slug = exportNames (Emission.records facts m)) ∧
      (∀ name, layout.moduleOfName.get? name =
        (plan.modules.find? fun m => (exportNames (Emission.records facts m)).contains name).map
          (·.slug)) ∧
      ∀ config plans surroundings s,
        (facts.calls ≠ [] →
          ∃ found, Run.findImports config plans facts layout surroundings s = .ok found s) ∧
        ∀ found s', Run.findImports config plans facts layout surroundings s = .ok found s' →
          (∀ slug, ∀ name ∈ found.1.needed.names slug,
            ∃ m ∈ plan.modules, m.slug = slug ∧ layout.Lacks m name) ∧
          (facts.calls ≠ [] →
            (∀ edge ∈ facts.calls, ∀ m ∈ plan.modules, m.isOriginal = false →
              edge.caller ∈ m.functions →
              (∃ m' ∈ plan.modules, edge.callee ∈ exportNames (Emission.records facts m')) →
                Xor (edge.callee ∈ layout.names m.slug)
                  (edge.callee ∈ found.1.needed.names m.slug)) ∧
            ∀ m ∈ plan.modules, ∀ name ∈ found.1.needed.names m.slug,
              ∃ edge ∈ facts.calls, edge.caller ∈ m.functions ∧ edge.callee = name) ∧
          (facts.calls = [] → ∀ m ∈ plan.modules, ∀ name,
            name ∈ found.1.needed.names m.slug ↔ layout.Lacks m name ∧
              ∃ text, s.files.textAt? (layout.file m.slug) = some text ∧
                (firstReference? text name.toList).isSome = true) := by
  intro layout
  have hplan := Plan.storable_of_ofDoc hread
  have hnamed : layout.Named := Layout.ofPlan_named plan facts directory basename
  refine ⟨fun m hm => Layout.names_ofPlan hplan facts directory basename hm,
    fun name => Layout.moduleOfName_ofPlan plan facts directory basename, ?_⟩
  intro config plans surroundings s
  refine ⟨fun hcalls => ⟨(.ofCalls layout facts.calls, []), ?_⟩, fun found s' hrun => ?_⟩
  · have hsome : (!facts.calls.isEmpty) = true := by simpa using hcalls
    unfold Run.findImports
    rw [if_pos hsome]
    rfl
  have hneeded := Run.needed_of_findImports hrun
  have hcalled : ∀ {m name}, facts.calls ≠ [] → m ∈ plan.modules →
      (name ∈ found.1.needed.names m.slug ↔ layout.Lacks m name ∧
        ∃ edge ∈ facts.calls, edge.caller ∈ m.functions ∧ edge.callee = name) := by
    intro m name hcalls hm
    rw [hneeded, if_neg hcalls]
    exact Layout.mem_calledNames_iff hplan hm
  have hmentioned : ∀ {m name}, facts.calls = [] → m ∈ plan.modules →
      (name ∈ found.1.needed.names m.slug ↔ layout.Lacks m name ∧
        ∃ text, s.files.textAt? (layout.file m.slug) = some text ∧
          (firstReference? text name.toList).isSome = true) := by
    intro m name hcalls hm
    rw [hneeded, if_pos hcalls]
    exact Layout.mem_needed_preview_iff hplan hbreaks hm
  have hmodule : ∀ slug, ∀ name ∈ found.1.needed.names slug, ∃ m ∈ plan.modules, m.slug = slug := by
    intro slug name hname
    have hslug : slug ∈ layout.slugs := by
      rw [hneeded] at hname
      split at hname
      · exact Layout.mem_slugs_of_preview hname
      · exact Layout.mem_slugs_of_calledNames (Layout.ofPlan_closed ..) hname
    rw [Layout.ofPlan_slugs] at hslug
    exact List.mem_map.1 hslug
  refine ⟨?_, fun hcalls => ⟨?_, ?_⟩, fun hcalls m hm name => hmentioned hcalls hm⟩
  · intro slug name hname
    obtain ⟨m, hm, rfl⟩ := hmodule slug name hname
    by_cases hcalls : facts.calls = []
    · exact ⟨m, hm, rfl, ((hmentioned hcalls hm).1 hname).1⟩
    · exact ⟨m, hm, rfl, ((hcalled hcalls hm).1 hname).1⟩
  · rintro edge hedge m hm hother hcaller ⟨m', hm', hcallee⟩
    by_cases hown : edge.callee ∈ layout.names m.slug
    · exact Or.inl ⟨hown, fun hname => ((hcalled hcalls hm).1 hname).1.own hown⟩
    · have hsome := hnamed.found _ _ (Layout.mem_names_ofPlan.2 ⟨m', hm', rfl, hcallee⟩)
      have hlacks : layout.Lacks m edge.callee := by
        apply (Layout.lacks_iff hplan hm).2
        exact ⟨Layout.acceptsImports_ofPlan hother, hown, hsome⟩
      exact Or.inr ⟨(hcalled hcalls hm).2 ⟨hlacks, edge, hedge, hcaller, rfl⟩, hown⟩
  · exact fun m hm name hname => ((hcalled hcalls hm).1 hname).2

/-- A function in one module calls a function in the other. -/
def callerFacts : Facts where
  source := "app.js"
  functions := [{ id := "f0", name := "a", start := 0, stop := 1 },
    { id := "f1", name := "b", start := 1, stop := 2 }]
  calls := [{ caller := "f0", callee := "b" }]

def callerPlan : Plan where
  modules := [{ name := "a", slug := "a", functions := ["f0"] },
    { name := "b", slug := "b", functions := ["f1"] }]

theorem found_imports_of_call :
    let layout := Layout.ofPlan callerPlan callerFacts (Path.ofString "/work/out") "app"
    let surroundings : Surroundings := { environment := [], now := ⟨2024, 1, 2, 9, 0, 0⟩ }
    let s : RunState := { files := { current := ["work"], entries := [] } }
    Plan.ofDoc callerPlan.toDoc = .ok callerPlan ∧
      (∀ f ∈ callerFacts.functions, '\n' ∉ f.name.toList) ∧
      ∃ found, Run.findImports Run.workspaceConfig (Path.ofString "/work/plans") callerFacts layout
          surroundings s = .ok found s ∧
        "b" ∈ found.1.needed.names "a" := by
  intro layout surroundings s
  have hread : Plan.ofDoc callerPlan.toDoc = .ok callerPlan := by decide +kernel
  have hbreaks : ∀ f ∈ callerFacts.functions, '\n' ∉ f.name.toList := by
    simp [callerFacts]
  obtain ⟨hnames, -, hfinds⟩ := found_imports_exact hread hbreaks (Path.ofString "/work/out") "app"
  obtain ⟨hruns, hexact⟩ := hfinds Run.workspaceConfig (Path.ofString "/work/plans") surroundings s
  obtain ⟨found, hrun⟩ := hruns (by decide)
  obtain ⟨-, hcalls, -⟩ := hexact found s hrun
  have hown : "b" ∉ layout.names "a" := by
    rw [hnames { name := "a", slug := "a", functions := ["f0"] } (by decide)]
    decide +kernel
  rcases (hcalls (by decide)).1 { caller := "f0", callee := "b" } (by decide)
    { name := "a", slug := "a", functions := ["f0"] } (by decide) (by decide +kernel) (by decide)
    ⟨{ name := "b", slug := "b", functions := ["f1"] }, by decide, by decide +kernel⟩ with
    hdeclared | hneeded
  · exact absurd hdeclared.1 hown
  · exact ⟨hread, hbreaks, found, hrun, hneeded.1⟩

end ScriptSplit
