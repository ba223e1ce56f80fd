import ScriptSplit.Proofs.CommonJs.Statements
import ScriptSplit.Proofs.Link.Declared
import ScriptSplit.Proofs.Link.Settled

/-!
# The CommonJS form of a module

A module whose own lines begin with neither `import` nor `export` changes at its statements alone when it gets its
CommonJS form: every import gives its place to a `require` of the same name, and the export list to `module.exports`
with the same names. A `require` finds in the mirror what the import finds among the modules.
-/

namespace ScriptSplit

open Text (Keyed OpensNoLine Recogniser Scans Unbroken isName unlines)

namespace CommonJs

structure Import where
  name : String
  stem : String

namespace Import

def statement (i : Import) : String :=
  importStatement i.name (i.stem ++ ".js")

def line (i : Import) : Text :=
  i.statement.toList

def require (i : Import) : Text :=
  (requireStatement i.name ("./" ++ (i.stem ++ ".cjs"))).toList

/-- Whether an import can be read back. -/
structure Readable (i : Import) : Prop where
  name : isName i.name.toList = true
  noQuote : '\'' ∉ i.stem.toList ∧ '"' ∉ i.stem.toList
  noFeed : '\n' ∉ i.stem.toList

end Import

theorem requireSpecifier_js (stem : String) :
    requireSpecifier ("./" ++ (stem ++ ".js")) = "./" ++ (stem ++ ".cjs") := by
  have htext : ("./" ++ (stem ++ ".js")).toList = ("./" ++ stem).toList ++ ".js".toList := by simp
  have hhead : ("./" ++ (stem ++ ".js")).toList.head? = some '.' := by simp
  have hends : ".js".toList.isSuffixOf ("./" ++ (stem ++ ".js")).toList = true := by
    rw [htext]
    exact List.isSuffixOf_iff_suffix.2 (List.suffix_append _ _)
  have htake : ("./" ++ (stem ++ ".js")).toList.take (("./" ++ (stem ++ ".js")).toList.length - 3) =
      ("./" ++ stem).toList := by
    rw [htext, List.length_append, show ".js".toList.length = 3 from rfl, Nat.add_sub_cancel,
      List.take_left]
  rw [requireSpecifier]
  simp only [hhead, hends, htake, beq_self_eq_true, Bool.and_self, if_true, String.ofList_toList]
  exact String.append_assoc ..

def moduleExports (names : List String) : String :=
  "module.exports = \x7b " ++ ", ".intercalate names ++ " \x7d;"

def listLines (names : List String) : List Text :=
  if names.isEmpty then [] else [(exportStatement names).toList]

section Scanning

variable {α : Type} {recognise : Recogniser α} {word : String}

theorem flatMap_map_inr (put : α → Text) (text : Text) :
    (text.map Sum.inr).flatMap (Sum.elim put fun c => [c]) = text := by
  induction text with
  | nil => rfl
  | cons c text ih => exact congrArg (c :: ·) ih

theorem filterMap_map_inr (text : Text) :
    (text.map (Sum.inr : Char → α ⊕ Char)).filterMap Sum.getLeft? = [] := by
  induction text with
  | nil => rfl
  | cons c text ih => exact ih

theorem unlines_append (texts more : List Text) : unlines (texts ++ more) = unlines texts ++ unlines more :=
  List.flatMap_append

theorem scans_unlines {texts : List Text}
    (h : ∀ text ∈ texts, Scans recognise (text ++ ['\n']) ((text ++ ['\n']).map .inr)) :
    Scans recognise (unlines texts) ((unlines texts).map .inr) := by
  unfold unlines
  rw [List.map_flatMap]
  exact Scans.flatMap h

theorem getLast?_unlines {texts : List Text} (hne : texts ≠ []) : (unlines texts).getLast? = some '\n' := by
  rcases List.eq_nil_or_concat texts with rfl | ⟨front, last, rfl⟩
  · exact absurd rfl hne
  · simp [unlines]

end Scanning

theorem replacing_eq (recognise : Recogniser (Text × Option Text)) :
    replacing recognise = recognise.putting (·.1) := by
  funext before text
  exact congrArg (Option.map · _) (funext fun found => rfl)

theorem putting_id (recognise : Recogniser Text) : recognise.putting id = recognise := by
  funext before text
  exact Option.map_id' ..

theorem findAll_of_passes {α : Type} {recognise : Recogniser α} {text : Text}
    (h : Scans recognise text (text.map .inr)) :
    Text.findAll recognise text = [] ∧ ∀ put, Text.replaceAll (recognise.putting put) text = text := by
  refine ⟨?_, fun put => by rw [h.replaced, flatMap_map_inr]⟩
  have hvalues := h.values
  rwa [filterMap_map_inr, List.map_eq_nil_iff] at hvalues

theorem exists_line (i : Import) : ∃ row, i.line = "import".toList ++ row := by
  rw [Import.line, Import.statement, importStatement_toList]
  exact ⟨" \x7b ".toList ++ _, (List.append_assoc ..).symm.trans rfl⟩

theorem exists_require (i : Import) : ∃ row, i.require = "const".toList ++ row := by
  simp only [Import.require, requireStatement, String.toList_append, List.append_assoc]
  exact ⟨" \x7b ".toList ++ _, (List.append_assoc ..).symm.trans rfl⟩

theorem feed_not_mem_import {i : Import} (h : i.Readable) : '\n' ∉ i.line := by
  have hname := Text.not_mem_of_isName h.name (c := '\n') (by decide)
  have hstem := h.noFeed
  rw [Import.line, Import.statement, importStatement_toList]
  simp [hname, hstem]

theorem feed_not_mem_require {i : Import} (h : i.Readable) : '\n' ∉ i.require := by
  have hname := Text.not_mem_of_isName h.name (c := '\n') (by decide)
  have hstem := h.noFeed
  simp [Import.require, requireStatement, hname, hstem]

theorem unbroken_exportStatement {names : List String} (h : ∀ name ∈ names, isName name.toList = true) :
    Unbroken (exportStatement names).toList := by
  have hlist : Unbroken ([',', ' '].intercalate (names.map String.toList)) := by
    intro c hc
    rcases Text.mem_intercalate_comma hc with rfl | rfl | ⟨entry, hentry, hc⟩
    · decide
    · decide
    · obtain ⟨name, hname, rfl⟩ := List.mem_map.1 hentry
      exact Text.unbroken_of_isName (h name hname) c hc
  have hfront : Unbroken "export \x7b ".toList := Text.unbroken_of_all (by decide)
  have hback : Unbroken " \x7d;".toList := Text.unbroken_of_all (by decide)
  have htext : (exportStatement names).toList = "export \x7b ".toList ++
      ([',', ' '].intercalate (names.map String.toList) ++ " \x7d;".toList) := by
    rw [exportStatement_toList, braces]
    simp
  rw [htext]
  exact hfront.append (hlist.append hback)

theorem feed_not_mem_exportStatement {names : List String} (h : ∀ name ∈ names, isName name.toList = true) :
    '\n' ∉ (exportStatement names).toList := fun hfeed =>
  absurd (unbroken_exportStatement h _ hfeed) (by decide)

section Rewriting

variable {above below : List Text} {imports : List Import} {names : List String}

/-- What makes up the text of a module. -/
structure Assembled (above below : List Text) (imports : List Import) (names : List String) : Prop where
  quiet : ∀ word ∈ ["import", "export"], ∀ text ∈ above ++ below, OpensNoLine word text
  readable : ∀ i ∈ imports, i.Readable
  named : ∀ name ∈ names, isName name.toList = true

namespace Assembled

variable (h : Assembled above below imports names)

include h

theorem passes {α : Type} {recognise : Recogniser α} (hkeyed : Keyed "export" recognise)
    (hnone : ∀ before rest, recognise before ((exportStatement names).toList ++ rest) = none) :
    let text := unlines (above ++ imports.map Import.line ++ below ++ listLines names)
    Scans recognise text (text.map .inr) := by
  apply scans_unlines
  simp only [List.mem_append, List.mem_map]
  rintro text (((habove | ⟨i, hi, rfl⟩) | hbelow) | hlist)
  · exact hkeyed.passes (by decide) (h.quiet _ (by simp) _ (List.mem_append_left _ habove))
  · have hfeed := feed_not_mem_import (h.readable i hi)
    obtain ⟨row, hrow⟩ := exists_line i
    rw [hrow] at hfeed ⊢
    exact hkeyed.passes_word (by decide) (by decide) (by decide) hfeed
  · exact hkeyed.passes (by decide) (h.quiet _ (by simp) _ (List.mem_append_right _ hbelow))
  · unfold listLines at hlist
    split at hlist
    · cases hlist
    · rw [List.mem_singleton.1 hlist]
      exact hkeyed.passes_row (feed_not_mem_exportStatement h.named) fun before rest => hnone before _

/-- Every import is found, and nothing else. -/
theorem scans_imports :
    Scans namedImport (unlines (above ++ imports.map Import.line ++ below ++ listLines names))
      ((unlines above).map .inr ++ imports.flatMap (fun i => [.inl i.require, .inr '\n']) ++
        (unlines below).map .inr ++ (unlines (listLines names)).map .inr) := by
  have hpasses : ∀ texts : List Text, (∀ text ∈ texts, OpensNoLine "import" text) →
      Scans namedImport (unlines texts) ((unlines texts).map .inr) := fun texts htexts =>
    scans_unlines fun text htext => keyed_namedImport.passes (by decide) (htexts text htext)
  have himports : Scans namedImport (unlines (imports.map Import.line))
      (imports.flatMap fun i => [.inl i.require, .inr '\n']) := by
    rw [unlines, List.flatMap_map]
    apply Scans.flatMap
    intro i hi
    obtain ⟨hname, hquote, hfeed⟩ := h.readable i hi
    have hquotes : '\'' ∉ (i.stem ++ ".js").toList ∧ '"' ∉ (i.stem ++ ".js").toList := by simpa using hquote
    refine Scans.found_row keyed_namedImport (feed_not_mem_import (h.readable i hi)) ?_ ?_
    · obtain ⟨row, hrow⟩ := exists_line i
      simp [hrow]
    · intro before rest hbefore
      rw [Import.line, Import.statement, namedImport_importStatement before rest hname hquotes hbefore,
        requireSpecifier_js]
      rfl
  have hlist : Scans namedImport (unlines (listLines names)) ((unlines (listLines names)).map .inr) := by
    apply scans_unlines
    intro text htext
    have hfeed := feed_not_mem_exportStatement h.named
    unfold listLines at htext
    split at htext
    · cases htext
    · obtain ⟨row, hrow⟩ := exists_exportStatement names []
      rw [List.append_nil] at hrow
      rw [List.mem_singleton.1 htext]
      rw [hrow] at hfeed ⊢
      exact keyed_namedImport.passes_word (by decide) (by decide) (by decide) hfeed
  unfold unlines at hpasses himports hlist ⊢
  simp only [List.flatMap_append]
  exact (((hpasses above fun text htext => h.quiet _ (by simp) _ (List.mem_append_left _ htext)).append
    himports).append (hpasses below fun text htext =>
      h.quiet _ (by simp) _ (List.mem_append_right _ htext))).append hlist

theorem exists_scans_exportList : ∃ clauses : List Text,
    Scans exportList (unlines (above ++ imports.map Import.require ++ below ++ listLines names))
      ((unlines (above ++ imports.map Import.require ++ below)).map .inr ++ clauses.map .inl) ∧
      clauses.flatMap Text.commaList = names.map String.toList := by
  have hfront : Scans exportList (unlines (above ++ imports.map Import.require ++ below))
      ((unlines (above ++ imports.map Import.require ++ below)).map .inr) := by
    apply scans_unlines
    simp only [List.mem_append, List.mem_map]
    rintro text ((habove | ⟨i, hi, rfl⟩) | hbelow)
    · exact keyed_exportList.passes (by decide) (h.quiet _ (by simp) _ (List.mem_append_left _ habove))
    · have hfeed := feed_not_mem_require (h.readable i hi)
      obtain ⟨row, hrow⟩ := exists_require i
      rw [hrow] at hfeed ⊢
      exact keyed_exportList.passes_word (by decide) (by decide) (by decide) hfeed
    · exact keyed_exportList.passes (by decide) (h.quiet _ (by simp) _ (List.mem_append_right _ hbelow))
  unfold unlines at hfront ⊢
  rw [@List.flatMap_append _ _ _ (listLines names)]
  by_cases hempty : names.isEmpty = true
  · refine ⟨[], hfront.append ?_, by simp [List.isEmpty_iff.1 hempty]⟩
    rw [listLines, if_pos hempty]
    exact Scans.nil
  · obtain ⟨clause, hfound, hlist⟩ := exportList_exportStatement h.named
    refine ⟨[clause], hfront.append ?_, by simp [hlist]⟩
    rw [listLines, if_neg hempty, List.flatMap_singleton]
    exact Scans.found_line hfound

theorem replaceAll_namedImport :
    Text.replaceAll namedImport (unlines (above ++ imports.map Import.line ++ below ++ listLines names)) =
      unlines (above ++ imports.map Import.require ++ below ++ listLines names) := by
  have hreplaced := h.scans_imports.replaced id
  rw [putting_id] at hreplaced
  rw [hreplaced]
  simp only [List.flatMap_append, unlines, List.flatMap_assoc, List.flatMap_map]
  simp

/-- What an export list leaves to the end of the module: its names. -/
theorem entries_exportList :
    (Text.findAll exportList
      (unlines (above ++ imports.map Import.require ++ below ++ listLines names))).flatMap (fun found =>
        (Text.commaList found.value).map fun item => ((Text.splitAlias? item).map (·.1)).getD item) =
      names.map String.toList := by
  obtain ⟨clauses, hexport, hclauses⟩ := h.exists_scans_exportList
  have hvalues := hexport.values
  rw [List.filterMap_append, filterMap_map_inr, List.nil_append, List.filterMap_map] at hvalues
  have hsome : clauses.filterMap (Sum.getLeft? ∘ (Sum.inl : Text → Text ⊕ Char)) = clauses := by
    simp [Function.comp_def]
  rw [hsome] at hvalues
  rw [← List.flatMap_map (fun found : Text.Found Text => found.value) fun clause =>
    (Text.commaList clause).map fun item => ((Text.splitAlias? item).map (·.1)).getD item, hvalues,
    ← List.map_flatMap, hclauses, List.map_map]
  refine List.map_congr_left fun name hname => ?_
  rw [Function.comp_apply, Text.splitAlias?_name (h.named name hname)]
  rfl

theorem replaceAll_exportList :
    Text.replaceAll (fun before rest => (exportList before rest).map fun (_, n) => ([], n))
      (unlines (above ++ imports.map Import.require ++ below ++ listLines names)) =
        unlines (above ++ imports.map Import.require ++ below) := by
  obtain ⟨clauses, hexport, -⟩ := h.exists_scans_exportList
  have hnone : clauses.flatMap (fun _ => ([] : Text)) = [] := List.flatMap_eq_nil_iff.2 fun _ _ => rfl
  have hreplaced := hexport.replaced fun _ => []
  rw [List.flatMap_append, flatMap_map_inr, List.flatMap_map] at hreplaced
  simp only [Sum.elim_inl, hnone, List.append_nil] at hreplaced
  exact hreplaced

end Assembled

/-- A module in its CommonJS form has a `require` for every import and lists its exports at the end. -/
theorem ofModule_unlines (h : Assembled above below imports names) (hnodup : names.Nodup)
    (hne : above ++ below ≠ []) :
    ofModule (unlines (above ++ imports.map Import.line ++ below ++ listLines names)) =
      (unlines (above ++ imports.map Import.require ++ below ++ [[], (moduleExports names).toList]), names) := by
  obtain ⟨hdefaults, hkept⟩ := findAll_of_passes
    (h.passes keyed_defaultExport fun before rest => defaultExport_exportStatement names before rest)
  obtain ⟨hdeclared, hkeptToo⟩ := findAll_of_passes
    (h.passes keyed_inlineExport fun before rest => inlineExport_exportStatement names before rest)
  have hlast : (unlines (above ++ imports.map Import.require ++ below)).getLast? = some '\n' := by
    apply getLast?_unlines
    intro hnone
    rw [List.append_eq_nil_iff, List.append_eq_nil_iff] at hnone
    exact hne (by rw [hnone.1.1, hnone.2, List.append_nil])
  have hnames : (names.map String.toList).map String.ofList = names := by
    simp [Function.comp_def]
  unfold ofModule
  simp only [hdefaults, replacing_eq, hkept, hdeclared, hkeptToo, h.replaceAll_namedImport,
    h.entries_exportList, h.replaceAll_exportList, hlast]
  simp only [List.map_nil, List.filterMap_nil, List.nil_append, hnames, eraseDups_eq_self hnodup,
    List.append_nil, beq_self_eq_true, if_true, unlines_append]
  rfl

end Rewriting

end CommonJs

end ScriptSplit
