import ScriptSplit.Proofs.Bridge.Agreement
import ScriptSplit.Proofs.Link.Bindings

/-!
# What a bridge offers

A bridge offers the names of functions that can be exported, whatever else the source exports: it is made
from the records of functions alone. A function at the top level has a record unless it lies inside the span
of another one.
-/

namespace ScriptSplit

open Script

/-! ## Names that stay as they are -/

namespace PublicNames

theorem get?_foldl_put_self (names : List String) (table : Table String) (name : String) :
    (names.foldl (fun table name => Table.put table name name) table).get? name =
      if name ∈ names then some name else table.get? name := by
  induction names generalizing table with
  | nil => simp
  | cons first names ih =>
      rw [List.foldl_cons, ih, Table.get?_put]
      by_cases hname : name = first <;> simp [hname]

theorem Aliases.get?_add {names : List String} {name : String} (hname : name ∉ names) (base : String)
    (n : Nat) (aliases : Aliases) :
    (aliases.add base n names).names.get? name = aliases.names.get? name := by
  induction names generalizing aliases n with
  | nil => rfl
  | cons first names ih =>
      obtain ⟨hfirst, hrest⟩ := not_or.1 (List.mem_cons.not.1 hname)
      rw [Aliases.add, ih hrest, Table.get?_put, if_neg hfirst]

theorem Aliases.get?_addModules {name : String} (hplain : isOpaque name = false) (exports : ModuleExports)
    (aliases : Aliases) : (aliases.addModules exports).names.get? name = aliases.names.get? name := by
  induction exports generalizing aliases with
  | nil => rfl
  | cons m exports ih =>
      exact (ih _).trans (Aliases.get?_add (by simp [hplain]) _ 1 aliases)

end PublicNames

theorem publicName_of_plain {name : String} (hplain : isOpaque name = false) (exports : ModuleExports) :
    publicName (publicNames exports) name = name := by
  rw [publicName, publicNames_eq, PublicNames.Aliases.get?_addModules hplain, PublicNames.Aliases.start,
    PublicNames.get?_foldl_put_self]
  split
  · rfl
  · rfl

/-! ## Names that a bridge offers -/

namespace BridgeContent

/-- Whether a bridge exports a name of a module, under the public name that the table has for it. -/
def Offers (content : BridgeContent) (mapping : Table String) (name : String) : Prop :=
  ∃ specifier, content.origin? (publicName mapping name) = some (specifier, name)

theorem exists_of_origin? {content : BridgeContent} {shown specifier name : String}
    (horigin : content.origin? shown = some (specifier, name)) :
    ∃ binding ∈ content.bindings, binding.name = name := by
  obtain ⟨own, -, hbinding⟩ := Option.bind_eq_some_iff.1 horigin
  obtain ⟨binding, hfind, hsame⟩ := Option.bind_eq_some_iff.1 hbinding
  cases hsame
  exact ⟨binding, List.mem_of_find?_eq_some hfind, rfl⟩

theorem offers_iff {exports : ModuleExports} (h : exports.Proper) (specifier : String → String)
    {name : String} :
    (ofModules exports (publicNames exports) specifier).Offers (publicNames exports) name ↔
      name ∈ exports.flatMap (·.2) := by
  constructor
  · rintro ⟨found, horigin⟩
    obtain ⟨binding, hbinding, rfl⟩ := exists_of_origin? horigin
    obtain ⟨entry, hentry, hmem⟩ := List.mem_flatMap.1 hbinding
    obtain ⟨name, hname, rfl⟩ := List.mem_map.1 hmem
    exact List.mem_flatMap.2 ⟨entry, hentry, hname⟩
  · intro hname
    obtain ⟨entry, hentry, hmem⟩ := List.mem_flatMap.1 hname
    have hagree := agree_publicNames specifier specifier h.once
    exact ⟨specifier entry.1, (hagree.origin entry hentry name hmem).1⟩

end BridgeContent

/-- The modules of a plan that fits export every name of a function that can be exported, once their files
are there. -/
theorem mem_exports_iff {plan : Plan} (hplan : plan.Storable) {facts : Facts} {maxFiles : Int}
    {limit : Option String} (hfits : plan.Fits facts.functions maxFiles limit)
    (hids : (facts.functions.map (·.id)).Nodup) {directory : Path} {basename : String} {files : Files}
    (hfiles : ∀ m ∈ plan.modules, m.functions ≠ [] →
      files.has ((Layout.ofPlan plan facts directory basename).file m.slug) = true) {name : String} :
    name ∈ (Run.moduleExports (Layout.ofPlan plan facts directory basename) files).flatMap (·.2) ↔
      name ∈ exportNames facts.functions := by
  constructor
  · intro hname
    obtain ⟨entry, hentry, hmem⟩ := List.mem_flatMap.1 hname
    exact mem_exportNames.2
      (Layout.exists_function_of_moduleOfName (moduleOfName_of_exports hentry hmem).2)
  · intro hname
    obtain ⟨hexportable, f, hf, rfl⟩ := mem_exportNames.1 hname
    obtain ⟨m, hm, hid⟩ := List.mem_flatMap.1 (hfits.complete f.id (List.mem_map_of_mem hf))
    have hdeclared : f.name ∈ exportNames (Emission.records facts m) :=
      mem_exportNames.2 ⟨hexportable, f,
        List.mem_filterMap.2 ⟨f.id, hid, function?_of_nodup hids hf⟩, rfl⟩
    -- the first module that declares the name exports it
    obtain ⟨first, hfind⟩ : ∃ first, plan.modules.find? (fun m =>
        (exportNames (Emission.records facts m)).contains f.name) = some first :=
      Option.isSome_iff_exists.1 (List.find?_isSome.2 ⟨m, hm, by simpa using hdeclared⟩)
    have hfirst : first ∈ plan.modules := List.mem_of_find?_eq_some hfind
    have hfound : f.name ∈ exportNames (Emission.records facts first) := by
      simpa using List.find?_some hfind
    have hfunctions : first.functions ≠ [] := by
      intro hnone
      simp [Emission.records, hnone, exportNames] at hfound
    have howner : (Layout.ofPlan plan facts directory basename).moduleOfName.get? f.name =
        some first.slug := by
      rw [Layout.moduleOfName_ofPlan, hfind]
      rfl
    have hnames := Layout.names_ofPlan hplan facts directory basename hfirst
    have hmem : f.name ∈ ((Layout.ofPlan plan facts directory basename).names first.slug).filter
        fun name => (Layout.ofPlan plan facts directory basename).moduleOfName.get? name ==
          some first.slug :=
      List.mem_filter.2 ⟨hnames ▸ hfound, by simp [howner]⟩
    refine List.mem_flatMap.2 ⟨(first.slug, _), mem_moduleExports.2 ⟨?_, ?_, ?_, rfl⟩, hmem⟩
    · rw [Layout.ofPlan_slugs]
      exact List.mem_map_of_mem hfirst
    · exact hfiles first hfirst hfunctions
    · exact List.ne_nil_of_mem hmem

/-! ## Names that a source exports -/

namespace TopLevel

def clauseNames (clause : Tree) : List String :=
  if clause.kind == .exportClause then
    (clause.children.filter (·.kind == .exportSpecifier)).filterMap fun specifier =>
      specifier.children.getLast?.map (·.text)
  else []

/-- The names that a statement exports, a default export aside: those that a declaration in it binds, and
those that a clause in it shows. -/
def namedExports (statement : Tree) : List String :=
  if statement.kind == .exportStatement && !statement.children.any (·.kind == .keyword) then
    if (statement.child? .declaration).isSome then declaredNames statement
    else statement.children.flatMap clauseNames
  else []

end TopLevel

/-! ## Functions that have a record -/

namespace Candidate

theorem mem_keepOuter_or_covered (kept : List Candidate) {candidates : List Candidate} {c : Candidate}
    (hc : c ∈ candidates) :
    c ∈ keepOuter kept candidates ∨
      ∃ k, (k ∈ kept ∨ k ∈ keepOuter kept candidates) ∧ k.covers c = true := by
  induction candidates generalizing kept with
  | nil => cases hc
  | cons first candidates ih =>
      unfold keepOuter
      by_cases hcovered : kept.any (·.covers first) = true
      · rw [if_pos hcovered]
        rcases List.mem_cons.1 hc with rfl | hc
        · obtain ⟨k, hk, hcovers⟩ := List.any_eq_true.1 hcovered
          exact Or.inr ⟨k, Or.inl hk, hcovers⟩
        · exact ih kept hc
      · rw [if_neg hcovered]
        rcases List.mem_cons.1 hc with rfl | hc
        · exact Or.inl List.mem_cons_self
        · rcases ih (first :: kept) hc with hmem | ⟨k, hk, hcovers⟩
          · exact Or.inl (List.mem_cons_of_mem _ hmem)
          · refine Or.inr ⟨k, ?_, hcovers⟩
            rcases hk with hk | hk
            · exact (List.mem_cons.1 hk).elim (fun heq => Or.inr (heq ▸ List.mem_cons_self)) Or.inl
            · exact Or.inr (List.mem_cons_of_mem _ hk)

/-- What is not kept lies inside of what is. -/
theorem mem_dedupe_or_covered {candidates : List Candidate} {c : Candidate} (hc : c ∈ candidates) :
    c ∈ dedupe candidates ∨ ∃ k ∈ dedupe candidates, k.covers c = true := by
  rcases mem_keepOuter_or_covered [] (List.mem_mergeSort.2 hc) with hkept | ⟨k, hk, hcovers⟩
  · exact Or.inl hkept
  · exact Or.inr ⟨k, hk.resolve_left (by simp), hcovers⟩

theorem ofDeclared_spans (reader : Reader) (text : Text) (table : SymbolTable) (closureCalls : Bool)
    {d : TopLevel.Declared} (hplaced : d.Placed text.length) :
    (ofDeclared reader text table closureCalls d).start ≤ d.start ∧
      d.stop ≤ (ofDeclared reader text table closureCalls d).stop := by
  have hdoc := docCommentStart_le text d.start
  obtain ⟨hend, -⟩ := validateEnd_bounds text ((docCommentStart text d.start).getD d.start) hplaced.2
    (some reader.isProgram)
  simp only [ofDeclared]
  exact ⟨hdoc, hend⟩

end Candidate

/-- Whether a function is recorded: there is a record of its name, or it lies inside the span of a function
with another name. -/
inductive TopLevel.Declared.Recorded (d : TopLevel.Declared) (name : String)
    (functions : List FunctionRecord) : Prop
  | named {f : FunctionRecord} (member : f ∈ functions) (own : f.name = name)
  | inside {f : FunctionRecord} (member : f ∈ functions) (other : f.name ≠ name) (start : f.start ≤ d.start)
    (stop : (d.stop : Int) ≤ f.stop)

theorem recorded_of_declared {reader : Reader} {program : Tree} {text : Text} {path : String}
    {closureCalls : Bool} {analysis : Analysis}
    (hrun : analyzeTree reader (some program) text path closureCalls = .ok analysis)
    (hplaced : program.Placed text) {statement : Tree} (hstatement : statement ∈ program.children)
    {d : TopLevel.Declared} (hd : d ∈ TopLevel.functions statement) {name : String}
    (hname : d.name = some name) : d.Recorded name analysis.facts.functions := by
  set c := Candidate.ofDeclared reader text (SymbolTable.ofProgram program) closureCalls d with hc
  have hcandidate : c ∈ Candidate.ofText reader text (some program) closureCalls :=
    List.mem_map_of_mem (List.mem_flatMap.2 ⟨statement, hstatement, hd⟩)
  have hown : c.name = name := by simp [hc, Candidate.ofDeclared, hname]
  obtain ⟨hstart, hstop⟩ := Candidate.ofDeclared_spans reader text (SymbolTable.ofProgram program) closureCalls
    (TopLevel.functions_placed ((hplaced.child hstatement).mono le_rfl hplaced.bounds.2.2) hd)
  have hrecord {k : Candidate} (hk : k ∈ Candidate.dedupe (Candidate.ofText reader text (some program)
      closureCalls)) : ∃ f ∈ analysis.facts.functions, f.name = k.name ∧ f.start = k.start ∧
        f.stop = k.stop := by
    obtain ⟨n, hn, rfl⟩ := List.getElem_of_mem hk
    refine ⟨Candidate.record n _, ?_, rfl, rfl, rfl⟩
    rw [(facts_of_analyzeTree hrun).1]
    exact List.mem_mapIdx.2 ⟨n, hn, rfl⟩
  rcases Candidate.mem_dedupe_or_covered hcandidate with hkept | ⟨k, hk, hcovers⟩
  · obtain ⟨f, hf, hsame, -⟩ := hrecord hkept
    exact .named hf (hsame.trans hown)
  · obtain ⟨f, hf, hsame, hfstart, hfstop⟩ := hrecord hk
    by_cases hother : f.name = name
    · exact .named hf hother
    · simp only [Candidate.covers, Bool.and_eq_true, decide_eq_true_eq] at hcovers
      refine .inside hf hother ?_ ?_
      · rw [hfstart]
        exact_mod_cast hcovers.1.trans hstart
      · rw [hfstop]
        exact_mod_cast hstop.trans hcovers.2

end ScriptSplit
