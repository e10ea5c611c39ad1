import Encumbrance.Interchange.Decode
import Encumbrance.Control.Types

/-!
# Reading lifecycle events from JSON

An event names itself in its `event` field (`reached_target_state`, `secondary_submitted`,
`rejected_or_reopened` or `secondary_cancelled`) and carries the source `document`, the
`secondary` document for the two events that have one, and an optional `context`. A
context names its `principal` (a `user` and optional `roles`) and optionally a
`default_fiscal_period`.

An event is an object, or an array whose first item is the name and whose other items are
the event's fields in order: the document, the secondary document where there is one, and
the context, which may be left off. An event is held as read before its fields are decoded,
so every part of it must be readable, fields nobody asks for included, and the name may be
given only once.
-/

namespace Encumbrance

namespace Decode

/-- A principal: a user and, optionally, roles. -/
def principal (v : JsonValue) : Option Principal := do
  let r ← record ["user", "roles"] v
  pure { user := ← r.req "user" text, roles := ← r.withDefault "roles" (list text) [] }

/-- An event context. -/
def eventContext (v : JsonValue) : Option EventContext := do
  let r ← record ["principal", "default_fiscal_period"] v
  pure {
    principal := ← r.req "principal" principal
    defaultFiscalPeriod := ← r.optOrNone "default_fiscal_period" text }

/-- A source document; `held` says whether it is read from a held event. -/
def sourceDocument (held : Bool) (v : JsonValue) : Option SourceDocument := do
  let r ← record ["doc_ref", "company", "fiscal_period", "cost_center", "project", "branch",
    "posting_date", "workflow_state", "lines", "allocation"] v
  pure {
    docRef := ← r.req "doc_ref" documentRef
    company := ← r.optOrNone "company" text
    fiscalPeriod := ← r.optOrNone "fiscal_period" text
    costCenter := ← r.req "cost_center" text
    project := ← r.optOrNone "project" text
    branch := ← r.optOrNone "branch" text
    postingDate := ← r.req "posting_date" date
    workflowState := ← r.req "workflow_state" text
    lines := ← r.req "lines" (list amountLine)
    allocation := ← r.optOrNone "allocation" (allocation held) }

/-- A secondary document. -/
def secondaryDocument (v : JsonValue) : Option SecondaryDocument := do
  let r ← record ["doc_ref", "posting_date", "lines"] v
  pure {
    docRef := ← r.req "doc_ref" documentRef
    postingDate := ← r.req "posting_date" date
    lines := ← r.req "lines" (list amountLine) }

/-- The fields of the event named `name`, in order. -/
def eventFields (name : String) : Option (List String) :=
  if name = "reached_target_state" || name = "rejected_or_reopened" then
    some ["document", "context"]
  else if name = "secondary_submitted" || name = "secondary_cancelled" then
    some ["document", "secondary", "context"]
  else none

/-- The event named `name`, from its fields. -/
def eventOf (name : String) (r : Fields) : Option LifecycleEvent := do
  let document ← r.req "document" (sourceDocument true)
  let context ← r.withDefault "context" eventContext {}
  if name = "reached_target_state" then pure (.reachedTargetState document context)
  else if name = "rejected_or_reopened" then pure (.rejectedOrReopened document context)
  else
    let secondary ← r.req "secondary" secondaryDocument
    if name = "secondary_submitted" then pure (.secondarySubmitted document secondary context)
    else pure (.secondaryCancelled document secondary context)

/-- A lifecycle event. -/
def lifecycleEvent (v : JsonValue) : Option LifecycleEvent :=
  if !v.readable then none
  else
    match v with
    | .obj fs =>
      match fs.filter (·.1 == "event") with
      | [(_, .str name)] => do
        let names ← eventFields name
        eventOf name (← record names (.obj (fs.filter (·.1 != "event"))))
      | _ => none
    | .arr (.str name :: rest) => do
      let names ← eventFields name
      eventOf name (← record names (.arr rest))
    | _ => none

end Decode

end Encumbrance
