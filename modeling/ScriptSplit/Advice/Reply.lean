import ScriptSplit.Json.Display
import ScriptSplit.Json.Reader
import ScriptSplit.Plan.Basic
import ScriptSplit.Text.Search

/-!
# Replies as documents

A reply is read as a JSON document, with or without a code fence around it. A document that asks for
feature packs is no plan yet.
-/

namespace ScriptSplit.Advice

def fence : Text := "\x60\x60\x60".toList

def unfenced (text : Text) : Text :=
  if fence.isPrefixOf text then
    let inner := text.drop fence.length
    if fence.isSuffixOf inner then
      let inner := inner.take (inner.length - fence.length)
      ((Text.afterWord? "json" inner).getD inner).strip
    else text
  else text

def readReply (reply : String) : Except PlanError Json :=
  let text := unfenced (Text.strip reply.toList)
  match Json.readDocument text with
  | .ok doc => .ok doc
  | .error refusal => .error (.replyNotJson (refusal.message text))

/-- The feature packs that a document asks for, if that is what it does. -/
def requestedPacks? (doc : Json) : Option (List String) :=
  match doc with
  | .object _ =>
    match doc.member? "modules", doc.member? "needs" with
    | none, some (.array items) => some (items.map Json.display)
    | _, _ => none
  | _ => none

end ScriptSplit.Advice
