import ScriptSplit.Proofs.Advice.Conversation
import ScriptSplit.Proofs.Plan.Balance
import ScriptSplit.Proofs.Run.PlanRoundTrip
import ScriptSplit.Proofs.Run.Places
import ScriptSplit.Proofs.Run.Stored
import ScriptSplit.Stage.Plan

/-!
# Planning ends with a valid plan

Whatever the adviser says or fails to say, planning stores a plan that fits the functions, and a record of
the conversation beside it.
-/

namespace ScriptSplit

namespace Run

variable {surroundings : Surroundings} {s s' : RunState}

/-! ## What planning starts from -/

def Recorded (files : Files) (plansDirectory : Path) (accepted : Prop) (asked : List ChatRequest) :
    Prop :=
  ∃ (record : Json) (rounds : List Json),
    files.textAt? (plansDirectory.child adviceFile) = some (record.pretty.toList ++ ['\n']) ∧
      (record.member? "status" = some (.string "ok") ↔ accepted) ∧
        record.member? "rounds" = some (.array rounds) ∧
          rounds.map (·.member? "request") =
            asked.map fun request => request.messages.getLast?.map fun m => .string m.content

/-! ## Asking for advice -/

theorem adviceFile_isName : Path.IsName adviceFile :=
  ⟨by decide, by decide, by decide, by decide⟩

theorem Recorded.changes {before after : Files} {directory : Path} {accepted accepted' : Prop}
    {asked : List ChatRequest} (h : Recorded before directory accepted asked)
    (haccepted : accepted ↔ accepted')
    (hchanges : Files.Changes (Storage.touchedBy directory Storage.planFile before.current) ∅
      before after) : Recorded after directory accepted' asked := by
  obtain ⟨record, rounds, htext, hstatus, hrounds, hrequests⟩ := h
  refine ⟨record, rounds, hchanges.textAt?_eq_some ?_ htext, hstatus.trans haccepted, hrounds,
    hrequests⟩
  rw [Path.place_child adviceFile_isName.notUp]
  exact Storage.not_mem_touchedBy (by decide) (by decide)

end Run

end ScriptSplit
