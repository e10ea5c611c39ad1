import Encumbrance.Cli.Script
import Encumbrance.Control.Controller
import Encumbrance.Interchange.Encode

/-!
# Replaying a script

A replay sets up an empty ledger with the script's envelopes and reference data, handles
every event in order, and then reports:

* each event's index, name and document, with its outcome or its error;
* the availability of every key that has an envelope or a ledger row, in key order;
* the number of ledger rows.

The report is written either as JSON or as text. The text form has one line per event,

    #INDEX EVENT DOCUMENT RESULT

with the first three columns padded to 3, 22 and 28 characters, and one line per key with
its scope padded to 48 characters and the four amounts right-aligned in 14.

An arithmetic overflow, in an event or while reading the final availability, ends the replay
without a report.
-/

namespace Encumbrance

/-- What happened to one event of the script. -/
structure EventReport where
  index : Nat
  event : String
  document : String
  result : Except BudgetError Outcome

/-- The outcome of a replay. -/
structure ReplayReport where
  events : List EventReport
  availability : List Availability
  ledgerEntries : Nat

/-- Sorts keys and drops repeats. -/
def sortedKeys (ks : List DimensionKey) : List DimensionKey :=
  (ks.mergeSort fun a b => a.cmp b != .gt).eraseDups

/-- Sends `events` in order, the first numbered `index`, and reports each. An arithmetic
    overflow in a handler stops the replay with that overflow. -/
def replayEvents : List LifecycleEvent → Nat → Engine → Except BudgetError (List EventReport × Engine)
  | [], _, e => .ok ([], e)
  | ev :: rest, index, e =>
    match ((Engine.handle ev).run).run e with
    | (.error (.overflow a), _) => .error (.overflow a)
    | (r, e) => do
      let (reports, e) ← replayEvents rest (index + 1) e
      pure ({ index, event := ev.name, document := ev.document.docRef.toText, result := r } :: reports, e)

/-- Replays a script under the given settings. -/
def replay (config : BudgetConfig) (script : Script) : Except BudgetError ReplayReport := do
  let start := Engine.ledgerBacked config {}
    (EnvelopeBook.ofList (script.envelopes.map fun e => (e.key, e.allocated)))
    script.costCenters script.fiscalPeriods config.actualsCacheTtlSecs
  let (events, engine) ← replayEvents script.events 0 start
  let keys := sortedKeys (engine.books.ledger.entries.map (·.key) ++ script.envelopes.map (·.key))
  match ((keys.mapM Engine.availability).run).run engine with
  | (.ok availability, e) => .ok { events, availability, ledgerEntries := e.books.ledger.size }
  | (.error err, _) => .error err

namespace ReplayReport

/-- How many events failed. -/
def failures (r : ReplayReport) : Nat := (r.events.filter fun e => e.result matches .error _).length

/-! ## Section 1: JSON -/

/-- A clock reading as a UTC time stamp, counting milliseconds from the epoch's first day. -/
def clockText (tick : Nat) : String :=
  let ms := tick % 1000
  let s := tick / 1000
  "1970-01-01T" ++ Date.padded 2 (s / 3600 % 24) ++ ":" ++ Date.padded 2 (s / 60 % 60) ++ ":" ++
    Date.padded 2 (s % 60) ++ "." ++ Date.padded 3 ms ++ "Z"

/-- A ledger row. -/
def entryJson (e : Entry) : JsonValue :=
  .obj [("id", .str e.id.toText), ("batch_id", .str e.batchId.toText),
    ("dimension_key", Encode.dimensionKey e.key), ("entry_type", .str e.entryType.code),
    ("direction", .str e.direction.code), ("amount", Encode.amount e.amount),
    ("source", Encode.documentRef e.source),
    ("against", match e.against with | some d => Encode.documentRef d | none => .null),
    ("posting_date", Encode.date e.postingDate), ("created_at", .str (clockText e.writtenAt))]

/-- An outcome, tagged by `outcome`. -/
def outcomeJson : Outcome → JsonValue
  | .applied u => .obj [("outcome", .str "applied"), ("document", Encode.documentRef u.document),
      ("status", .str u.status.label), ("entries", .arr (u.entries.map entryJson)),
      ("overruns", .arr (u.overruns.map (Encode.shortfall Encode.budgetScope)))]
  | .duplicate => .obj [("outcome", .str "duplicate")]
  | .skipped r => .obj [("outcome", .str "skipped"), ("reason", .str r.code)]

/-- A scope's availability. -/
def availabilityJson (a : Availability) : JsonValue :=
  .obj [("scope", Encode.budgetScope a.scope), ("requested", Encode.amount a.requested),
    ("allocated", Encode.amount a.allocated), ("actual", Encode.amount a.actual),
    ("reserved", Encode.amount a.reserved), ("available", Encode.amount a.available),
    ("ok", .bool a.ok), ("shortfall", Encode.amount a.shortfall)]

/-- One event's line of the report. -/
def eventJson (r : EventReport) : JsonValue :=
  let result := match r.result with
    | .ok o => [("outcome", outcomeJson o)]
    | .error e => [("error", .obj [("code", .str e.code), ("message", .str e.message),
        ("retryable", .bool e.retryable)])]
  .obj ([("index", .int r.index), ("event", .str r.event), ("document", .str r.document)] ++ result)

/-- The whole report. -/
def toJson (r : ReplayReport) : JsonValue :=
  .obj [("events", .arr (r.events.map eventJson)),
    ("availability", .arr (r.availability.map availabilityJson)),
    ("ledger_entries", .int r.ledgerEntries)]

/-! ## Section 2: Text -/

/-- Pads on the right to `width` characters. -/
def padRight (width : Nat) (s : String) : String :=
  s ++ String.ofList (List.replicate (width - s.length) ' ')

/-- Pads on the left to `width` characters. -/
def padLeft (width : Nat) (s : String) : String :=
  String.ofList (List.replicate (width - s.length) ' ') ++ s

/-- An event's result as the text report shows it. -/
def resultText : Except BudgetError Outcome → String
  | .ok (.applied u) => u.status.label ++ " (" ++ toString u.entries.length ++ " entries)"
  | .ok .duplicate => "Duplicate"
  | .ok (.skipped r) => "Skipped \x7b reason: " ++ r.label ++ " \x7d"
  | .error e => e.code ++ ": " ++ e.message

/-- One event's line. -/
def eventLine (r : EventReport) : String :=
  "  #" ++ padRight 3 (toString r.index) ++ " " ++ padRight 22 r.event ++ " " ++
    padRight 28 r.document ++ " " ++ resultText r.result ++ "\n"

/-- One scope's line. -/
def availabilityLine (a : Availability) : String :=
  "  " ++ padRight 48 a.scope.toText ++ " allocated " ++ padLeft 14 a.allocated.toText ++
    " actual " ++ padLeft 14 a.actual.toText ++ " reserved " ++ padLeft 14 a.reserved.toText ++
    " available " ++ padLeft 14 a.available.toText ++ "\n"

/-- The whole report as text. -/
def toText (r : ReplayReport) : String :=
  "Events\n" ++ String.join (r.events.map eventLine) ++ "\n" ++
    "Availability (" ++ toString r.ledgerEntries ++ " ledger entries)\n" ++
    String.join (r.availability.map availabilityLine)

end ReplayReport

end Encumbrance
