import ScriptSplit.Proofs.Plan.Balance
import ScriptSplit.Proofs.Run.Reread

/-!
# Plans come back from the files

A plan that was read from a document, or that was made without advice, is read back as it is, both from its own
document form and from the file that it is stored in.
-/

namespace ScriptSplit

namespace Storage

variable {directory path : Path} {files after : Files} {plan : Plan}

theorem readPlan_eq (hplan : plan.Storable)
    (htext : files.textAt? (directory.child planFile) = some (plan.toDoc.pretty.toList ++ ['\n'])) :
    readPlan directory files = .ok plan files := by
  rw [readPlan, bind_eq (readDocument_eq planFile_isName (Plan.readable_toDoc plan) htext),
    hplan.ofDoc_toDoc]
  rfl

theorem readPlan_writePlan (hplan : plan.Storable)
    (hwritten : writePlan directory plan files = .ok path after) :
    readPlan directory after = .ok plan after := by
  obtain ⟨_, between, hwrite, hreturn⟩ := bind_eq_ok.1 hwritten
  cases hreturn
  rw [Path.div_name _ planFile_isName, writeDocument] at hwrite
  have hchanges := writeText_changes directory planFile_isName.notUp
    (plan.toDoc.pretty.toList ++ ['\n']) files
  rw [hwrite] at hchanges
  exact readPlan_eq hplan (Files.textAt?_of_at? hchanges.2)

end Storage

namespace Plan

/-- Whether a plan is one that a run can decide on: it was read from a document, or it was made without advice for
functions with different ids. -/
inductive Decided (plan : Plan) : Prop where
  | read (doc : Json) (hread : ofDoc doc = .ok plan)
  | balanced (functions : List FunctionRecord) (maxFiles minClusterSize : Int)
      (basename : Option String) (hids : (functions.map (·.id)).Nodup)
      (hplan : plan = .balanced functions maxFiles minClusterSize basename)

theorem Decided.storable {plan : Plan} (h : plan.Decided) : plan.Storable := by
  cases h with
  | read doc hread => exact storable_of_ofDoc hread
  | balanced functions maxFiles minClusterSize basename hids hplan =>
      rw [hplan]
      exact balanced_storable maxFiles basename hids

/-- An object is read for the array of modules in it, whatever else it holds. -/
theorem ofDoc_object {members : Table Json} {docs : List Json}
    (hmodules : members.lookup "modules" = some (.array docs)) :
    ofDoc (.object members) = ofDoc (.array docs) := by
  simp only [ofDoc, hmodules, bind, Except.bind, pure, Except.pure]

/-- Every plan that a run decides on is read back as it is, from its document form and from the file that it was
stored in. Whether the modules are a bare array or in an object makes no difference. -/
theorem decided_read_back :
    (∀ plan : Plan, plan.Decided →
      ofDoc plan.toDoc = .ok plan ∧
        ∀ directory files path after, Storage.writePlan directory plan files = .ok path after →
          Storage.readPlan directory after = .ok plan after) ∧
      ∀ docs (members : Table Json), members.lookup "modules" = some (.array docs) →
        ofDoc (.object members) = ofDoc (.array docs) :=
  ⟨fun _ hplan => ⟨hplan.storable.ofDoc_toDoc, fun _ _ _ _ hwritten =>
      Storage.readPlan_writePlan hplan.storable hwritten⟩,
    fun _ _ hmodules => ofDoc_object hmodules⟩

def sparseDocs : List Json :=
  [.object [("functions", .ofStrings ["f1", "f0"])],
    .object [("functions", .ofStrings []), ("name", .string "Über uns!"), ("slug", .null)],
    .object [("functions", .ofStrings ["f2"]), ("slug", .string "a\n")]]

def sparsePlan : Plan where
  modules := [{ name := "mod1", slug := "mod1", functions := ["f1", "f0"] },
    { name := "Über uns!", slug := "ber-uns", functions := [] },
    { name := "a\n", slug := "a\n", functions := ["f2"] }]

theorem sparse_read_back : ofDoc (.array sparseDocs) = .ok sparsePlan ∧
    ofDoc sparsePlan.toDoc = .ok sparsePlan ∧
    ofDoc (.object [("name", .null), ("modules", .array sparseDocs)]) = .ok sparsePlan ∧
    ∃ path after, Storage.writePlan (Path.ofString "plans") sparsePlan {} = .ok path after ∧
      Storage.readPlan (Path.ofString "plans") after = .ok sparsePlan after := by
  have hread : ofDoc (.array sparseDocs) = .ok sparsePlan := by decide +kernel
  obtain ⟨hback, hobject⟩ := decided_read_back
  obtain ⟨hdoc, hstored⟩ := hback sparsePlan (.read _ hread)
  have hwritten : (match Storage.writePlan (Path.ofString "plans") sparsePlan {} with
      | .ok _ _ => true
      | .error _ _ => false) = true := by decide +kernel
  refine ⟨hread, hdoc, (hobject sparseDocs _ rfl).trans hread, ?_⟩
  cases hrun : Storage.writePlan (Path.ofString "plans") sparsePlan {} with
  | ok path after => exact ⟨path, after, rfl, hstored _ _ _ _ hrun⟩
  | error cause after =>
      rw [hrun] at hwritten
      cases hwritten

end Plan

end ScriptSplit
