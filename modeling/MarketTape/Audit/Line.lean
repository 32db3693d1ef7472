import MarketTape.Audit
import MarketTape.Json.Decode

/-!
# The text of the audit log

A record is one line: a JSON object that starts with the number of the record and the kind of the
event.  Written strings never hold a line break, so the lines of a log are its records.

* `AuditRecord.line` writes a record, `AuditRecord.read?` reads a line.
* `AuditLog.text` is the whole log.
-/

namespace MarketTape

open Json

/-! ## Writing -/

namespace AuditEvent

/-- The members of an event. -/
def members : AuditEvent Float → List (String × Json)
  | order time instrument side offset volume price status traceId =>
    [("kind", .str "order"), ("ts_ns", .int time), ("instrument", .str instrument),
      ("side", .str side.label), ("offset", .str offset.label), ("volume", .int volume),
      ("price", .float price), ("status", .str status.label), ("trace_id", .str traceId)]
  | trade time instrument side offset volume price net average realized traceId =>
    [("kind", .str "trade"), ("ts_ns", .int time), ("instrument", .str instrument),
      ("side", .str side.label), ("offset", .str offset.label), ("volume", .int volume),
      ("price", .float price), ("net_position", .int net), ("avg_open_price", .float average),
      ("realized_pnl", .float realized), ("trace_id", .str traceId)]
  | rollover time symbol instrument leg mode side volume price slippageCost realized =>
    [("kind", .str "rollover"), ("ts_ns", .int time), ("symbol", .str symbol),
      ("instrument", .str instrument), ("leg", .str leg.label), ("mode", .str mode.label),
      ("side", .str side.label), ("volume", .int volume), ("price", .float price),
      ("slippage_cost", .float slippageCost), ("realized_pnl", .float realized)]

end AuditEvent

def AuditRecord.toJson (r : AuditRecord Float) : Json :=
  .obj (("seq", .int r.seq) :: r.event.members)

def AuditRecord.line (r : AuditRecord Float) : String := r.toJson.compactText

/-- The log as text: every record on a line of its own. -/
def AuditLog.text (log : AuditLog Float) : String :=
  String.join (log.records.map fun r => r.line ++ "\n")

/-! ## Reading -/

/-- One of a list of names inside a record.  The object with that name may hold an empty object
instead of no value. -/
def Json.Draft.choiceInRecord? {β : Type} (names : List (String × β)) : Draft → Option β
  | .obj [(some s, .obj [])] => names.lookup s
  | d => d.choice? names

/-- The kinds of events. -/
inductive AuditKind
  | order
  | trade
  | rollover
  deriving DecidableEq, Repr

/-- A kind, by its name or by its place in the list of kinds. -/
def AuditKind.of? : Draft → Option AuditKind
  | .str s => [("order", order), ("trade", trade), ("rollover", rollover)].lookup s
  | .int n => [((0 : Int), order), (1, trade), (2, rollover)].lookup n
  | _ => none

/-- The only member of a name. -/
def onlyMember? (members : List (String × Draft)) (name : String) : Option Draft :=
  match members.filter (·.1 == name) with
  | [(_, value)] => some value
  | _ => none

/-- An event from its members.  Members that the kind of event does not have are passed over. -/
def AuditEvent.ofMembers? (members : List (String × Draft)) : Option (AuditEvent Float) := do
  let kind ← (onlyMember? members "kind").bind AuditKind.of?
  let count (name : String) := (onlyMember? members name).bind Draft.count?
  let float (name : String) := (onlyMember? members name).bind Draft.float?
  let text (name : String) := (onlyMember? members name).bind Draft.text?
  let side ← (onlyMember? members "side").bind (·.choiceInRecord? Side.labels)
  let time ← count "ts_ns"
  let instrument ← text "instrument"
  let volume ← count "volume"
  let price ← float "price"
  match kind with
  | .order =>
    let offset ← (onlyMember? members "offset").bind (·.choiceInRecord? Offset.labels)
    let status ← (onlyMember? members "status").bind (·.choiceInRecord? OrderStatus.labels)
    let traceId ← text "trace_id"
    some (.order time instrument side offset volume price status traceId)
  | .trade =>
    let offset ← (onlyMember? members "offset").bind (·.choiceInRecord? Offset.labels)
    let net ← count "net_position"
    let average ← float "avg_open_price"
    let realized ← float "realized_pnl"
    let traceId ← text "trace_id"
    some (.trade time instrument side offset volume price net average realized traceId)
  | .rollover =>
    let symbol ← text "symbol"
    let leg ← (onlyMember? members "leg").bind (·.choiceInRecord? RolloverLeg.labels)
    let mode ← (onlyMember? members "mode").bind (·.choiceInRecord? RolloverMode.labels)
    let slippageCost ← float "slippage_cost"
    let realized ← float "realized_pnl"
    some (.rollover time symbol instrument leg mode side volume price slippageCost realized)

namespace AuditRecord

/-- Splits the members of a record into those named `seq` and the others.  The others have to be
usable, whatever their names. -/
def splitMembers? : List (Option String × Draft) →
    Option (List Draft × List (String × Draft))
  | [] => some ([], [])
  | (none, _) :: _ => none
  | (some name, value) :: rest =>
    match splitMembers? rest with
    | none => none
    | some (numbers, others) =>
      if name = "seq" then some (value :: numbers, others)
      else if value.isUsable then some (numbers, (name, value) :: others)
      else none

/-- Takes a record out of a text whose structure is known. -/
def ofDraft? : Draft → Option (AuditRecord Float)
  | .obj members =>
    match splitMembers? members with
    | some ([number], others) =>
      match number.word?, AuditEvent.ofMembers? others with
      | some seq, some event => some ⟨seq, event⟩
      | _, _ => none
    | _ => none
  | _ => none

def read? (line : String) : Option (AuditRecord Float) :=
  (Draft.read? line.toList).bind ofDraft?

end AuditRecord

end MarketTape
