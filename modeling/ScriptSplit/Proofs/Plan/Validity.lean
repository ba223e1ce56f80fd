import ScriptSplit.Plan.Reader
import ScriptSplit.Proofs.Text.Names

/-!
# What a valid plan is

A plan passes the check for a list of functions exactly if it fits them: a partition of their ids into few
enough modules, where one module holds those that cannot be moved and shares its file with no other.
-/

namespace ScriptSplit.Plan

variable {plan : Plan} {functions : List FunctionRecord} {maxFiles : Int} {basename : Option String}

structure Fits (plan : Plan) (functions : List FunctionRecord) (maxFiles : Int)
    (basename : Option String) : Prop where
  known : ∀ id ∈ plan.assigned, id ∈ functions.map (·.id)
  once : plan.assigned.Nodup
  complete : ∀ id ∈ functions.map (·.id), id ∈ plan.assigned
  few : (plan.modules.length : Int) ≤ maxFiles
  /-- Without a module for the source every function can be moved. -/
  moveable : plan.original? = none → ∀ f ∈ functions, f.moveable = true
  original : ∀ m, plan.original? = some m →
    ∀ id, id ∈ m.functions ↔ id ∈ (functions.filter (!·.moveable)).map (·.id)
  apart : ∀ name, basename = some name → name ≠ "" → plan.original?.isSome = true →
    ∀ m ∈ plan.modules, m.isOriginal = false → Text.lower m.slug ≠ Text.lower name

theorem hasRepeated_eq_false {ids : List String} : hasRepeated ids = false ↔ ids.Nodup := by
  induction ids with
  | nil => simp [hasRepeated]
  | cons id ids ih => simp [hasRepeated, ih]

theorem fits_of_validate (h : plan.validate functions maxFiles basename = .ok ()) :
    plan.Fits functions maxFiles basename := by
  unfold validate at h
  simp only [bind, Except.bind, throw, throwThe, MonadExceptOf.throw, pure, Except.pure] at h
  split at h
  · cases h
  next hknown =>
  split at h
  · cases h
  next hrepeated =>
  split at h
  · cases h
  next hcomplete =>
  split at h
  · cases h
  next hmany =>
  simp only [Bool.not_eq_true', Bool.not_eq_false, Names.diff_isEmpty, Names.mem_ofList]
    at hknown hcomplete
  have honce := hasRepeated_eq_false.1 (Bool.not_eq_true _ ▸ hrepeated)
  refine ⟨hknown, honce, hcomplete, Int.not_lt.1 hmany, ?_, ?_, ?_⟩
  · intro hnone f hf
    rw [hnone] at h
    simp only at h
    split at h
    · cases h
    · next hfixed =>
        by_contra hmoveable
        simp only [Bool.not_eq_true', Bool.not_eq_false, List.isEmpty_iff] at hfixed
        have hmem : f.id ∈ Names.ofList ((functions.filter (!·.moveable)).map (·.id)) :=
          Names.mem_ofList.2 (List.mem_map_of_mem (List.mem_filter.2 ⟨hf, by simpa using hmoveable⟩))
        rw [hfixed] at hmem
        cases hmem
  · intro m hm
    rw [hm] at h
    simp only at h
    split at h
    · cases h
    · next hsame => exact Names.ofList_eq_iff.1 (by simpa using hsame)
  · intro name hname hempty hsome m hm hother
    obtain ⟨original, horiginal⟩ := Option.isSome_iff_exists.1 hsome
    rw [horiginal, hname] at h
    simp only at h
    split at h
    · cases h
    · split at h
      · split at h
        · cases h
        · next hnone =>
            have hm' := List.find?_eq_none.1 hnone m hm
            simpa [hother] using hm'
      · next hblank => exact absurd hempty (by simpa using hblank)

theorem validate_of_fits (h : plan.Fits functions maxFiles basename) :
    plan.validate functions maxFiles basename = .ok () := by
  have hknown : (Names.diff (Names.ofList plan.assigned)
      (Names.ofList (functions.map (·.id)))).isEmpty = true := by
    rw [Names.diff_isEmpty]
    simpa only [Names.mem_ofList] using h.known
  have hcomplete : (Names.diff (Names.ofList (functions.map (·.id)))
      (Names.ofList plan.assigned)).isEmpty = true := by
    rw [Names.diff_isEmpty]
    simpa only [Names.mem_ofList] using h.complete
  have honce := hasRepeated_eq_false.2 h.once
  have hfew : ¬ maxFiles < plan.modules.length := by
    have hfew := h.few
    omega
  unfold validate
  simp only [hknown, hcomplete, honce, hfew, Bool.not_true, Bool.false_eq_true, if_false, bind,
    Except.bind, pure, Except.pure, throw, throwThe, MonadExceptOf.throw]
  cases horiginal : plan.original? with
  | none =>
      have hnone : functions.filter (!·.moveable) = [] := by
        rw [List.filter_eq_nil_iff]
        intro f hf
        simp [h.moveable horiginal f hf]
      simp [hnone, Names.ofList]
  | some m =>
      have hsame := Names.ofList_eq_iff.2 (h.original m horiginal)
      simp only [hsame, bne_self_eq_false, Bool.false_eq_true, if_false]
      cases hname : basename with
      | none => rfl
      | some name =>
          by_cases hempty : name = ""
          · simp [hempty]
          · have hnone : plan.modules.find? (fun m =>
                !m.isOriginal && Text.lower m.slug == Text.lower name) = none := by
              rw [List.find?_eq_none]
              intro m' hm'
              have hapart := h.apart name hname hempty (by simp [horiginal]) m' hm'
              simpa using hapart
            simp [hempty, hnone]

theorem validate_eq_ok :
    plan.validate functions maxFiles basename = .ok () ↔ plan.Fits functions maxFiles basename :=
  ⟨fits_of_validate, validate_of_fits⟩

end ScriptSplit.Plan
