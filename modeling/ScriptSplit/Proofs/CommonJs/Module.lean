import ScriptSplit.Proofs.CommonJs.Mirror
import ScriptSplit.Stage.Write

/-!
# Written modules and their mirrors

A written module gets its imports below its banner, and its mirror is the same module with a `require` for each of
them. Both find a name in the same module: the one among the modules, the other in the mirror.
-/

namespace ScriptSplit

open Text (OpensNoLine Unbroken isName unlines)

/-! ## A written module with its imports -/

theorem Text.stripRight_prefix (text : Text) : stripRight text <+: text := by
  obtain ⟨blanks, hblanks⟩ := List.dropWhile_suffix (l := text.reverse) isBlank
  exact ⟨blanks.reverse, by rw [stripRight, ← List.reverse_append, hblanks, List.reverse_reverse]⟩

def functionLines (slices : List Text) (names : List String) : List Text :=
  slices.flatMap (fun slice => [slice, []]) ++ if names.isEmpty then [] else [exportsComment.toList]

theorem renderModule_eq (banner : Text) (slices : List Text) (names : List String) :
    renderModule banner slices names = unlines ([banner, [], importsPlaceholder.toList, []] ++
      functionLines slices names ++ CommonJs.listLines names) := by
  unfold renderModule functionLines CommonJs.listLines
  split <;> simp

namespace Insertion

theorem missing_eq_self {word : String} {text : Text} {wanted : List String} (htext : OpensNoLine word text)
    (hwanted : ∀ line ∈ wanted, word.toList <+: line.toList) : missing text wanted = wanted := by
  unfold missing
  rw [List.filter_eq_self]
  intro line hline
  suffices hfresh : line.toList ∉ text.lines.map Text.strip by simpa using hfresh
  intro hmem
  obtain ⟨present, hpresent, hstrip⟩ := List.mem_map.1 hmem
  have hstart := hwanted line hline
  rw [← hstrip] at hstart
  exact htext present hpresent (hstart.trans (Text.stripRight_prefix _))

theorem dropPlaceholder_keeps {front : List Text}
    (hfront : ∀ line ∈ front, line.strip ≠ importsPlaceholder.toList) (back : List Text) :
    dropPlaceholder (front ++ back) = front ++ dropPlaceholder back := by
  induction front with
  | nil => rfl
  | cons line front ih =>
      obtain ⟨hline, hfront⟩ := List.forall_mem_cons.1 hfront
      rw [List.cons_append, dropPlaceholder.eq_def]
      simp only [beq_eq_false_iff_ne.2 hline, Bool.false_eq_true, if_false, ih hfront, List.cons_append]

theorem newline_eq_feed {row : Text} (hrow : Unbroken row) (lines : List Text) :
    newline ((row ++ ['\n']) :: lines) = ['\n'] := by
  have hsuffix : ['\r', '\n'].isSuffixOf (row ++ ['\n']) = false := by
    rw [← Bool.not_eq_true, List.isSuffixOf_iff_suffix]
    rintro ⟨front, hfront⟩
    have hreturn : '\r' ∈ row := by
      have heq : front ++ ['\r'] = row := by
        rw [show ['\r', '\n'] = ['\r'] ++ ['\n'] from rfl, ← List.append_assoc] at hfront
        exact (List.append_inj' hfront rfl).1
      rw [← heq]
      simp
    exact absurd (hrow _ hreturn) (by decide)
  rw [newline, hsuffix]
  rfl

end Insertion

section Insertion

variable {banner : Text} {slices : List Text} {names wanted : List String}

theorem lines_renderModule (hbanner : Unbroken banner) : (renderModule banner slices names).lines =
    [banner ++ ['\n'], ['\n'], importsPlaceholder.toList ++ ['\n'], ['\n']] ++
      (unlines (functionLines slices names ++ CommonJs.listLines names)).lines := by
  have hempty : Unbroken [] := by simp [Unbroken]
  have hplace : Unbroken importsPlaceholder.toList := Text.unbroken_of_all (by decide)
  have htext : renderModule banner slices names = banner ++ '\n' :: ([] ++ '\n' :: (importsPlaceholder.toList ++
      '\n' :: ([] ++ '\n' :: unlines (functionLines slices names ++ CommonJs.listLines names)))) := by
    rw [renderModule_eq]
    simp [unlines]
  rw [htext, Text.lines_row hbanner, Text.lines_row hempty, Text.lines_row hplace,
    Text.lines_row hempty]
  rfl

/-- With lines below the banner, the place for imports goes, or the banner if it looks like that place. -/
theorem dropPlaceholder_below {added : List Text} (hne : added ≠ [])
    (hadded : ∀ line ∈ added, Text.strip line ≠ importsPlaceholder.toList ∧ Text.isBlankText line = false)
    (banner : Text) (more : List Text) : ∃ above gap : List Text,
      Insertion.dropPlaceholder ((banner ++ ['\n']) :: (added ++ ['\n'] ::
          (importsPlaceholder.toList ++ ['\n']) :: ['\n'] :: more)) =
        above.map (· ++ ['\n']) ++ added ++ gap.map (· ++ ['\n']) ++ more ∧
      (above ++ gap).Sublist [banner, [], importsPlaceholder.toList, []] ∧ gap ≠ [] := by
  have hblank : Text.strip ['\n'] ≠ importsPlaceholder.toList := by decide
  have hplace : Text.strip (importsPlaceholder.toList ++ ['\n']) = importsPlaceholder.toList := by decide
  have hfeed : Text.isBlankText ['\n'] = true := by decide
  by_cases hbanner : Text.strip (banner ++ ['\n']) = importsPlaceholder.toList
  · refine ⟨[], [[], importsPlaceholder.toList, []], ?_, List.sublist_cons_self _ _, by simp⟩
    obtain ⟨first, others, rfl⟩ := List.exists_cons_of_ne_nil hne
    have hfirst := (hadded first List.mem_cons_self).2
    rw [List.cons_append, Insertion.dropPlaceholder.eq_def]
    simp [hbanner, hfirst]
  · refine ⟨[banner], [[]], ?_, by simp, by simp⟩
    have hfront : ∀ line ∈ (banner ++ ['\n']) :: (added ++ [['\n']]),
        Text.strip line ≠ importsPlaceholder.toList := by
      simp only [List.forall_mem_cons, List.forall_mem_append, List.mem_singleton]
      exact ⟨hbanner, fun line hline => (hadded line hline).1, by simpa using hblank⟩
    have hkept := Insertion.dropPlaceholder_keeps hfront
      ((importsPlaceholder.toList ++ ['\n']) :: ['\n'] :: more)
    have hdropped : Insertion.dropPlaceholder ((importsPlaceholder.toList ++ ['\n']) :: ['\n'] :: more) =
        more := by
      rw [Insertion.dropPlaceholder.eq_def]
      simp [hplace, hfeed]
    rw [hdropped] at hkept
    simpa using hkept

/-- Imports stand below the banner of a written module, and what goes for them is the place that was kept. -/
theorem insertImports_renderModule (hbanner : Unbroken banner)
    (htext : OpensNoLine "import" (renderModule banner slices names))
    (hwanted : ∀ line ∈ wanted, "import".toList <+: line.toList) : ∃ above gap,
      (insertImports (renderModule banner slices names) wanted).1 = unlines (above ++
        wanted.map String.toList ++ (gap ++ functionLines slices names) ++ CommonJs.listLines names) ∧
      (above ++ gap).Sublist [banner, [], importsPlaceholder.toList, []] ∧ gap ≠ [] := by
  have hmissing := Insertion.missing_eq_self htext hwanted
  by_cases hnone : wanted = []
  · refine ⟨[banner], [[], importsPlaceholder.toList, []], ?_, List.Sublist.refl _, by simp⟩
    rw [hnone] at hmissing
    rw [insertImports, hnone, hmissing, renderModule_eq]
    simp
  · have hlines := @lines_renderModule banner slices names hbanner
    have hnewline : Insertion.newline (renderModule banner slices names).lines = ['\n'] := by
      rw [hlines]
      exact Insertion.newline_eq_feed hbanner _
    have hends : Insertion.endsInNewline (banner ++ ['\n']) = true := by
      simp [Insertion.endsInNewline, Text.isNewline]
    have hadded : ∀ line ∈ wanted.map fun line => line.toList ++ ['\n'],
        Text.strip line ≠ importsPlaceholder.toList ∧ Text.isBlankText line = false := by
      intro line hline
      obtain ⟨added, hadded, rfl⟩ := List.mem_map.1 hline
      obtain ⟨rest, hrest⟩ := hwanted added hadded
      have hi : Text.isBlank 'i' = false := by decide
      obtain ⟨rest', hstrip⟩ := Text.strip_cons hi ("mport".toList ++ rest ++ ['\n'])
      have htext : added.toList ++ ['\n'] = 'i' :: ("mport".toList ++ rest ++ ['\n']) := by
        rw [← hrest]
        rfl
      rw [htext, hstrip]
      refine ⟨fun heq => ?_, ?_⟩
      · have hhead : some 'i' = importsPlaceholder.toList.head? := congrArg List.head? heq
        exact absurd hhead (by decide)
      · simp [Text.isBlankText, hi]
    obtain ⟨above, gap, hdrop, hsublist, hgap⟩ := dropPlaceholder_below (by simpa using hnone) hadded banner
      (unlines (functionLines slices names ++ CommonJs.listLines names)).lines
    refine ⟨above, gap, ?_, hsublist, hgap⟩
    rw [Insertion.insertImports_fst, Insertion.merged, hmissing, if_neg (by simpa using hnone), hnewline,
      hlines]
    simp only [Insertion.below, List.cons_append, List.nil_append, hends, if_true] at hdrop ⊢
    rw [hdrop]
    simp [unlines, Text.flatten_lines, List.flatMap_def, Function.comp_def]

end Insertion

/-! ## The mirror of a written module -/

def moduleStem (slug basename : String) : String :=
  moduleFileName slug basename ""

theorem moduleFileName_stem (slug basename ending : String) :
    moduleFileName slug basename ending = moduleStem slug basename ++ ending := by
  unfold moduleStem moduleFileName
  split <;> rw [String.append_empty]

namespace Layout

def import? (layout : Layout) (name : String) : Option CommonJs.Import :=
  (layout.moduleOfName.get? name).map fun target =>
    { name, stem := moduleStem target layout.basename }

/-- Whether a line imports a name from the file of its module and another requires the name from the file that the
module has in the mirror. -/
def Corresponds (layout : Layout) (mirror : Path) (line : String) (required : Text) : Prop :=
  ∃ name target specifier counterpart, layout.moduleOfName.get? name = some target ∧
    line = "import \x7b " ++ name ++ " \x7d from '" ++ specifier ++ "';" ∧
    layout.directory / specifier = layout.file target ∧
    required = ("const \x7b " ++ name ++ " \x7d = require('" ++ counterpart ++ "');").toList ∧
    mirror / counterpart = mirror / moduleFileName target layout.basename ".cjs"

end Layout

section Mirror

variable {doc : Json} {plan : Plan} (hread : Plan.ofDoc doc = .ok plan)
  (hslugs : ∀ m ∈ plan.modules, '\n' ∉ m.slug.toList) {facts : Facts}
  (hnames : ∀ f ∈ facts.functions, '\n' ∉ f.name.toList) {source : Path} (hsource : source.Named)
  (hbasename : ∀ c ∈ ['\'', '"', '\n'], c ∉ source.basename.toList) (directory : Path)

section Read

include hread hsource

theorem importLines_ofPlan {m : ModuleSpec} (hm : m ∈ plan.modules) (names : List String) :
    let layout := Layout.ofPlan plan facts directory source.basename
    layout.importLines m.slug names = (names.filterMap layout.import?).map CommonJs.Import.statement := by
  intro layout
  unfold Layout.importLines
  rw [List.map_filterMap]
  refine List.filterMap_congr fun name _ => ?_
  cases hget : layout.moduleOfName.get? name with
  | none => simp [Layout.importLine?, Layout.import?, hget]
  | some target =>
      obtain ⟨m', hm', rfl⟩ := Layout.exists_module_of_moduleOfName hget
      have hslash : '/' ∉ layout.basename.toList := by
        rw [Layout.ofPlan_basename]
        exact hsource.noSlash.1
      rw [Layout.importLine?_eq (Plan.isSlug_of_ofDoc hread hm) hslash hget
        (Plan.isSlug_of_ofDoc hread hm'), Layout.import?, hget, moduleFileName_stem]
      rfl

theorem corresponds_ofPlan (mirror : Path) {names : List String} :
    let layout := Layout.ofPlan plan facts directory source.basename
    ∀ i ∈ names.filterMap layout.import?, layout.Corresponds mirror i.statement i.require := by
  intro layout i hi
  obtain ⟨name, -, himport⟩ := List.mem_filterMap.1 hi
  obtain ⟨target, hget, rfl⟩ := Option.map_eq_some_iff.1 himport
  obtain ⟨m, hm, rfl⟩ := Layout.exists_module_of_moduleOfName hget
  have hslash : '/' ∉ layout.basename.toList := by
    rw [Layout.ofPlan_basename]
    exact hsource.noSlash.1
  have hfile := moduleFileName_isName (c := 'j') (Plan.isSlug_of_ofDoc hread hm) hslash ".js"
    (by decide) (by decide) (by decide)
  have hmirror := moduleFileName_isName (c := 'c') (Plan.isSlug_of_ofDoc hread hm) hslash ".cjs"
    (by decide) (by decide) (by decide)
  refine ⟨name, m.slug, "./" ++ moduleFileName m.slug layout.basename ".js",
    "./" ++ moduleFileName m.slug layout.basename ".cjs", hget, ?_, ?_, ?_, ?_⟩
  · rw [moduleFileName_stem, CommonJs.Import.statement, importStatement]
    apply String.toList_inj.1
    simp
  · rw [Path.div_point_name _ hfile, Layout.file, Path.div_name _ hfile]
  · rw [moduleFileName_stem]
    rfl
  · rw [Path.div_point_name _ hmirror, Path.div_name _ hmirror]

end Read

include hread hslugs hnames hbasename in
theorem readable_ofPlan {names : List String} :
    ∀ i ∈ names.filterMap (Layout.ofPlan plan facts directory source.basename).import?, i.Readable := by
  intro i hi
  obtain ⟨name, -, himport⟩ := List.mem_filterMap.1 hi
  obtain ⟨target, hget, rfl⟩ := Option.map_eq_some_iff.1 himport
  obtain ⟨m, hm, rfl⟩ := Layout.exists_module_of_moduleOfName hget
  obtain ⟨hexportable, f, hf, rfl⟩ := Layout.exists_function_of_moduleOfName hget
  have hstem : ∀ c ∈ ['\'', '"', '\n'],
      c ∉ (moduleStem m.slug (Layout.ofPlan plan facts directory source.basename).basename).toList := by
    intro c hc hmem
    rw [Layout.ofPlan_basename, moduleStem, moduleFileName] at hmem
    split at hmem
    · rw [String.append_empty] at hmem
      exact hbasename c hc hmem
    · rw [String.append_empty] at hmem
      rcases mem_of_isSlug (Plan.isSlug_of_ofDoc hread hm) hmem with hpart | rfl
      · simp only [List.mem_cons, List.not_mem_nil, or_false] at hc
        rcases hc with rfl | rfl | rfl <;> exact absurd hpart (by decide)
      · exact hslugs m hm hmem
  exact ⟨Text.isName_of_isExportable hexportable (hnames f hf), ⟨hstem _ (by simp), hstem _ (by simp)⟩,
    hstem _ (by simp)⟩

end Mirror

section Written

variable {banner : Text} (hbanner : Unbroken banner) {slices : List Text}
  (hquiet : ∀ word ∈ ["import", "export"], ∀ text ∈ banner :: slices, OpensNoLine word text)

include hquiet in
/-- Nothing that stands in a written module but its export list begins with `import` or `export`. -/
theorem quiet_written (names : List String) : ∀ word ∈ ["import", "export"],
    ∀ text ∈ [banner, [], importsPlaceholder.toList, []] ++ functionLines slices names,
      OpensNoLine word text := by
  intro word hword text htext
  obtain ⟨hbanner, hslices⟩ := List.forall_mem_cons.1 (hquiet word hword)
  have hempty : OpensNoLine word [] := by simp [OpensNoLine, Text.lines]
  have hcomments : ∀ comment ∈ [importsPlaceholder, exportsComment], OpensNoLine word comment.toList := by
    have hunbroken : ∀ comment ∈ [importsPlaceholder, exportsComment],
        (comment.toList.all fun c => !Text.isLineBoundary c) = true := by decide
    have hheads : ∀ word ∈ ["import", "export"], ∀ comment ∈ [importsPlaceholder, exportsComment],
        ¬ word.toList <+: Text.stripLeft comment.toList := by decide
    intro comment hcomment
    exact Text.opensNoLine_of_head (Text.unbroken_of_all (hunbroken comment hcomment))
      (hheads word hword comment hcomment)
  simp only [List.forall_mem_cons, List.not_mem_nil, false_implies, implies_true, and_true] at hcomments
  rcases List.mem_append.1 htext with hhead | hfunctions
  · simp only [List.mem_cons, List.not_mem_nil, or_false] at hhead
    rcases hhead with rfl | rfl | rfl | rfl
    exacts [hbanner, hempty, hcomments.1, hempty]
  · rcases List.mem_append.1 hfunctions with hslice | hcomment
    · obtain ⟨slice, hslice, htext⟩ := List.mem_flatMap.1 hslice
      simp only [List.mem_cons, List.not_mem_nil, or_false] at htext
      rcases htext with rfl | rfl
      exacts [hslices text hslice, hempty]
    · split at hcomment
      · cases hcomment
      · rw [List.mem_singleton.1 hcomment]
        exact hcomments.2

include hquiet in
theorem quiet_renderModule {names : List String} (hnamed : ∀ name ∈ names, isName name.toList = true) :
    OpensNoLine "import" (renderModule banner slices names) := by
  rw [renderModule_eq, Text.opensNoLine_unlines (by decide)]
  intro text htext
  rcases List.mem_append.1 htext with hown | hlist
  · exact quiet_written hquiet names "import" (by simp) text hown
  · unfold CommonJs.listLines at hlist
    split at hlist
    · cases hlist
    · obtain rfl := List.mem_singleton.1 hlist
      have hunbroken := CommonJs.unbroken_exportStatement hnamed
      rw [CommonJs.exportStatement_toList] at hunbroken ⊢
      exact Text.opensNoLine_word (by decide) (by decide) (by decide) hunbroken

end Written

/-- A module gets its imports, and then its CommonJS form. The two are alike up to a `require` in the place of each
of them and `module.exports` in the place of the export list, with the same names. What an import finds among the
modules, its `require` finds in the mirror. -/
theorem ofModule_written {doc : Json} {plan : Plan} (hread : Plan.ofDoc doc = .ok plan)
    (hslugs : ∀ m ∈ plan.modules, '\n' ∉ m.slug.toList) {facts : Facts}
    (hnames : ∀ f ∈ facts.functions, '\n' ∉ f.name.toList) {source : Path} (hsource : source.Named)
    (hbasename : ∀ c ∈ ['\'', '"', '\n'], c ∉ source.basename.toList) (directory mirror : Path)
    {m : ModuleSpec} (hm : m ∈ plan.modules) {banner : Text} (hbanner : Unbroken banner) {slices : List Text}
    (hquiet : ∀ word ∈ ["import", "export"], ∀ text ∈ banner :: slices, OpensNoLine word text)
    (needed : List String) :
    let layout := Layout.ofPlan plan facts directory source.basename
    let exports := exportNames (Emission.records facts m)
    let imports := layout.importLines m.slug needed
    let module := (insertImports (renderModule banner slices exports) imports).1
    ∃ above gap requires,
      (above ++ gap).Sublist [banner, [], importsPlaceholder.toList, []] ∧
      List.Forall₂ (layout.Corresponds mirror) imports requires ∧
      module = unlines (above ++ imports.map String.toList ++ (gap ++ functionLines slices exports) ++
        CommonJs.listLines exports) ∧
      CommonJs.ofModule module = (unlines (above ++ requires ++ (gap ++ functionLines slices exports) ++
        [[], (CommonJs.moduleExports exports).toList]), exports) := by
  intro layout exports imports module
  have hnamed : ∀ name ∈ exports, isName name.toList = true := by
    intro name hname
    obtain ⟨hexportable, f, hf, rfl⟩ := mem_exportNames.1 hname
    obtain ⟨id, -, hid⟩ := List.mem_filterMap.1 hf
    exact Text.isName_of_isExportable hexportable
      (hnames f (List.mem_reverse.1 (List.mem_of_find?_eq_some hid)))
  have himports : imports = (needed.filterMap layout.import?).map CommonJs.Import.statement :=
    importLines_ofPlan hread hsource directory hm needed
  have hwanted : ∀ line ∈ imports, "import".toList <+: line.toList := by
    rw [himports]
    intro line hline
    obtain ⟨i, -, rfl⟩ := List.mem_map.1 hline
    obtain ⟨row, hrow⟩ := CommonJs.exists_line i
    exact ⟨row, hrow.symm⟩
  obtain ⟨above, gap, hmodule, hsublist, hgap⟩ := insertImports_renderModule hbanner
    (quiet_renderModule hquiet hnamed) hwanted
  refine ⟨above, gap, (needed.filterMap layout.import?).map CommonJs.Import.require, hsublist, ?_, hmodule, ?_⟩
  · rw [himports, List.forall₂_map_left_iff, List.forall₂_map_right_iff, List.forall₂_same]
    exact corresponds_ofPlan hread hsource directory mirror
  · have hlines : imports.map String.toList = (needed.filterMap layout.import?).map CommonJs.Import.line := by
      rw [himports, List.map_map]
      rfl
    have hassembled : CommonJs.Assembled above (gap ++ functionLines slices exports)
        (needed.filterMap layout.import?) exports := by
      refine ⟨fun word hword text htext => ?_, readable_ofPlan hread hslugs hnames hbasename directory, hnamed⟩
      refine quiet_written hquiet exports word hword text ?_
      rw [← List.append_assoc] at htext
      exact List.mem_append.2 ((List.mem_append.1 htext).imp_left fun hmem => hsublist.subset hmem)
    rw [show module = _ from hmodule, hlines]
    exact CommonJs.ofModule_unlines hassembled (nodup_eraseDups _) (by simp [hgap])

/-- The caller's module requires in the mirror what it imports among the modules. -/
theorem ofModule_written_caller :
    let source := Path.ofString "/work/app.js"
    let layout := Layout.ofPlan callerPlan callerFacts (Path.ofString "/work/out") source.basename
    let banner := "// put together from app.js".toList
    let slices := ["function a() \x7b\n  return b();\n\x7d".toList]
    let module := (insertImports (renderModule banner slices ["a"]) (layout.importLines "a" ["b"])).1
    Plan.ofDoc callerPlan.toDoc = .ok callerPlan ∧
      (∀ m ∈ callerPlan.modules, '\n' ∉ m.slug.toList) ∧
      (∀ f ∈ callerFacts.functions, '\n' ∉ f.name.toList) ∧
      source.Named ∧ (∀ c ∈ ['\'', '"', '\n'], c ∉ source.basename.toList) ∧ Unbroken banner ∧
      (∀ word ∈ ["import", "export"], ∀ text ∈ banner :: slices, OpensNoLine word text) ∧
      layout.importLines "a" ["b"] = ["import \x7b b \x7d from './b.js';"] ∧
      ∃ above gap requires,
        List.Forall₂ (layout.Corresponds (Path.ofString "/work/out_cjs")) (layout.importLines "a" ["b"]) requires ∧
        CommonJs.ofModule module = (unlines (above ++ requires ++ (gap ++ functionLines slices ["a"]) ++
          [[], "module.exports = \x7b a \x7d;".toList]), ["a"]) := by
  intro source layout banner slices module
  have hread : Plan.ofDoc callerPlan.toDoc = .ok callerPlan := by decide +kernel
  have hslugs : ∀ m ∈ callerPlan.modules, '\n' ∉ m.slug.toList := by simp [callerPlan]
  have hnames : ∀ f ∈ callerFacts.functions, '\n' ∉ f.name.toList := by simp [callerFacts]
  have hparts : source.parts = ["work", "app.js"] := by decide +kernel
  have hsource : source.Named := by
    refine ⟨?_, by simp [hparts]⟩
    rw [hparts]
    simp only [List.forall_mem_cons, List.not_mem_nil, false_implies, implies_true, and_true]
    exact ⟨⟨by decide, by decide, by decide, by decide⟩, ⟨by decide, by decide, by decide, by decide⟩⟩
  have hbasename : ∀ c ∈ ['\'', '"', '\n'], c ∉ source.basename.toList := by
    rw [show source.basename = "app" by decide +kernel]
    simp
  have hbanner : Unbroken banner := Text.unbroken_of_all (by decide)
  have hquiet : ∀ word ∈ ["import", "export"], ∀ text ∈ banner :: slices, OpensNoLine word text := by
    have hrows : ∀ row ∈ ["// put together from app.js", "function a() \x7b", "  return b();", "\x7d"],
        (row.toList.all fun c => !Text.isLineBoundary c) = true ∧
          ∀ word ∈ ["import", "export"], ¬ word.toList <+: Text.stripLeft row.toList := by decide
    have hwords : ∀ word ∈ ["import", "export"], isName word.toList = true := by decide
    intro word hword
    have hrow : ∀ row ∈ ["// put together from app.js", "function a() \x7b", "  return b();", "\x7d"],
        OpensNoLine word row.toList := fun row hrow =>
      Text.opensNoLine_of_head (Text.unbroken_of_all (hrows row hrow).1) ((hrows row hrow).2 word hword)
    simp only [List.forall_mem_cons, List.not_mem_nil, false_implies, implies_true, and_true] at hrow
    have hslice : "function a() \x7b\n  return b();\n\x7d".toList = "function a() \x7b".toList ++
        '\n' :: ("  return b();".toList ++ '\n' :: "\x7d".toList) := rfl
    refine List.forall_mem_cons.2 ⟨hrow.1, List.forall_mem_singleton.2 ?_⟩
    rw [hslice, Text.opensNoLine_feed (hwords word hword), Text.opensNoLine_feed (hwords word hword)]
    exact hrow.2
  have hexports : exportNames (Emission.records callerFacts { name := "a", slug := "a", functions := ["f0"] }) =
      ["a"] := by decide +kernel
  have hlines : layout.importLines "a" ["b"] = ["import \x7b b \x7d from './b.js';"] := by decide +kernel
  obtain ⟨above, gap, requires, -, hrequires, -, hmirror⟩ := ofModule_written hread hslugs hnames hsource hbasename
    (Path.ofString "/work/out") (Path.ofString "/work/out_cjs")
    (m := { name := "a", slug := "a", functions := ["f0"] }) (by decide) hbanner hquiet ["b"]
  rw [hexports] at hmirror
  exact ⟨hread, hslugs, hnames, hsource, hbasename, hbanner, hquiet, hlines, above, gap, requires, hrequires,
    hmirror⟩

end ScriptSplit
