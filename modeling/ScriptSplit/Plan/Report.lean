import ScriptSplit.Facts.Index
import ScriptSplit.Plan.Basic

/-!
# The report of a run

Which function went where.
-/

namespace ScriptSplit.Plan

def reportEntry (plan : Plan) (f : FunctionRecord) : Json :=
  .object [
    ("id", .string f.id),
    ("name", .string f.name),
    ("span", FunctionRecord.spanDoc f.start f.stop),
    ("moveable", .bool f.moveable),
    ("module", .ofString? (plan.moduleOf? f.id))]

def report (plan : Plan) (facts : Facts) : Json :=
  .array (facts.functions.map plan.reportEntry)

end ScriptSplit.Plan
