import MarketTape.Error
import MarketTape.Records
import MarketTape.Scan

/-!
# Files of ticks

A file of ticks is comma-separated text with a header.  Eight columns are needed, in any order and
among any others.  A row that does not give a sound tick is passed over: it counts as read and has
no other effect.

* `requiredColumns` are the names of the columns.
* `readRow?` makes a tick of a row, given the header.
* `scanRows` scans the records below a header, and `scanFile` scans a file.
-/

namespace MarketTape

/-- The columns that a file of ticks needs. -/
def requiredColumns : List String :=
  ["InstrumentID", "ts_ns", "LastPrice", "Volume", "BidPrice1", "BidVolume1", "AskPrice1",
    "AskVolume1"]

/-! ## Rows -/

/-- The fields of a record as texts without blanks around them, if all of them are text. -/
def textFields? (record : Records.Record) : Option (List String) :=
  record.mapM fun field => (Node.textOf? field).map Text.trimmed

/-- The field of a row that belongs to the only column of a name. -/
def columnField? (header fields : List String) (name : String) : Option String :=
  match (header.zip fields).filter (·.1 == name) with
  | [(_, field)] => some field
  | _ => none

def floatField? (header fields : List String) (name : String) : Option Float :=
  (columnField? header fields name).bind fun field => Decimal.readFloat? field.toList

def countField? (header fields : List String) (name : String) : Option Int :=
  (columnField? header fields name).bind fun field =>
    (Decimal.readInt? field.toList).bind Count.fit

/-- A tick that names its instrument, has a positive price and no number that is missing or
infinite. -/
def isSound (t : Tick Float) : Bool :=
  t.instrument != "" && t.last.isFinite && 0.0 < t.last && t.volume.isFinite && t.bid.isFinite &&
    t.bidSize.isFinite && t.ask.isFinite && t.askSize.isFinite

/-- The tick of a row, if the row is at least as long as the header and sound. -/
def readRow? (header fields : List String) : Option (Tick Float) := do
  if fields.length < header.length then none
  let instrument ← columnField? header fields "InstrumentID"
  let time ← countField? header fields "ts_ns"
  let last ← floatField? header fields "LastPrice"
  let volume ← floatField? header fields "Volume"
  let bid ← floatField? header fields "BidPrice1"
  let bidSize ← floatField? header fields "BidVolume1"
  let ask ← floatField? header fields "AskPrice1"
  let askSize ← floatField? header fields "AskVolume1"
  let t : Tick Float :=
    { instrument := Text.trimmed instrument, time, last, volume, bid, bidSize, ask, askSize }
  if isSound t then some t else none

/-- The tick of a record. -/
def readRecord? (header : List String) (record : Records.Record) : Option (Tick Float) :=
  (textFields? record).bind (readRow? header)

/-! ## Files -/

/-- The columns that a header lacks. -/
def missingColumns (header : List String) : List String :=
  requiredColumns.filter fun name => !header.contains name

/-- The header and the records after it.  An empty file has no columns; a header that is not text
cannot be read. -/
def splitHeader? : List Records.Record → Option (List String × List Records.Record)
  | [] => some ([], [])
  | first :: rest => (textFields? first).map fun header => (header, rest)

/-- The scan of the rows below a header. -/
def scanRows (path : String) (partition size : Nat) (request : ScanRequest) (header : List String)
    (rows : List Records.Record) : PartitionScan Float :=
  let (ticks, earlyStop) := request.select (rows.filterMap (readRecord? header))
  { partition, path := some path, ticks, rowsScanned := rows.length, rowGroupsScanned := 1
    bytesRead := size, earlyStop, pruned := false }

def scanFile (files : FileTree) (path : String) (partition : Nat) (request : ScanRequest) :
    Except Error (PartitionScan Float) :=
  match files.read path with
  | .unopened problem => .error (.file (some path) problem)
  | .unread _ => .error .unreadableHeader
  | .bytes content =>
    match splitHeader? (Records.ofBytes content) with
    | none => .error .unreadableHeader
    | some (header, rows) =>
      if missingColumns header = [] then
        .ok (scanRows path partition content.length request header rows)
      else .error (.missingColumns path (missingColumns header))

end MarketTape
