import MarketTape.Audit
import MarketTape.Book
import MarketTape.Pricing

/-!
# The order desk

The desk takes the intents that a strategy gave for a bar and settles each of them at the close of
that bar.

* An intent for no lots, at a close that is not positive, or in another instrument is rejected.
* Closing trades at most the lots held on the other side; with nothing to close it is rejected.
* Opening against a position on the other side waits for the next bar of the instrument: it trades
  there if the position is flat by then, and is rejected otherwise.

A trade leaves two records in the log, the order and the trade; every other step leaves one.

* `Floor` is the desk together with the book and the log that it writes to.
* `Floor.submit?` settles an intent and `Floor.settle?` the orders that waited for a bar.
* `Floor.cancel` and `Floor.cancelAll` drop waiting orders.
-/

namespace MarketTape

/-- An opening order that waits for its instrument to become flat; `since` is the time of the bar on
which it had to wait. -/
structure Waiting (α : Type) where
  intent : Intent α
  since : Int
  deriving DecidableEq, Repr

/-- Waiting orders by instrument, earliest first, and how often each status was reached. -/
structure Desk (α : Type) where
  waiting : Table (List (Waiting α))
  statuses : StatusCounts

/-- A desk together with the book and the log it writes to. -/
structure Floor (α : Type) where
  desk : Desk α
  book : Book α
  log : AuditLog α

namespace Desk

variable {α : Type}

def start : Desk α := ⟨Table.empty, StatusCounts.none⟩

def waitingCount (d : Desk α) : Nat := d.waiting.values.flatten.length

def waitingFor (d : Desk α) (instrument : String) : List (Waiting α) :=
  (d.waiting.get? instrument).getD []

/-- Adds an order that waits for its instrument. -/
def defer (d : Desk α) (w : Waiting α) : Desk α :=
  { d with
    waiting := d.waiting.insert w.intent.instrument (d.waitingFor w.intent.instrument ++ [w]) }

/-- An order waits behind the others of its instrument. -/
theorem waitingFor_defer (d : Desk α) (w : Waiting α) (instrument : String) :
    (d.defer w).waitingFor instrument =
      if instrument = w.intent.instrument then d.waitingFor instrument ++ [w]
      else d.waitingFor instrument := by
  unfold waitingFor defer
  rw [Table.get?_insert]
  split
  · rename_i h
    simp [h, waitingFor]
  · rfl

end Desk

namespace Floor

variable {α : Type}

def start (logging : Bool) : Floor α := ⟨Desk.start, Book.empty, AuditLog.start logging⟩

/-- Takes an order to a status without a trade. -/
def transition (f : Floor α) (intent : Intent α) (time : Int) (price : α) (status : OrderStatus) :
    Floor α :=
  { f with
    desk := { f.desk with statuses := f.desk.statuses.increment status }
    log := f.log.append (.order time intent.instrument intent.side intent.offset intent.volume
      price status intent.traceId) }

/-- Without a trade the book stays as it is. -/
@[simp] theorem book_transition (f : Floor α) (intent : Intent α) (time : Int) (price : α)
    (status : OrderStatus) : (f.transition intent time price status).book = f.book := rfl

@[simp] theorem waiting_transition (f : Floor α) (intent : Intent α) (time : Int) (price : α)
    (status : OrderStatus) :
    (f.transition intent time price status).desk.waiting = f.desk.waiting := rfl

def reject (f : Floor α) (intent : Intent α) (bar : Bar α) : Floor α :=
  f.transition intent bar.lastTime bar.close .rejected

/-- Lets an intent wait for the next bar of its instrument. -/
def defer (f : Floor α) (intent : Intent α) (bar : Bar α) : Floor α :=
  let f := f.transition intent bar.lastTime bar.close .deferred
  { f with desk := f.desk.defer ⟨intent, bar.lastTime⟩ }

/-- Drops the waiting orders of an instrument and gives how many there were. -/
def cancel (f : Floor α) (instrument : String) (time : Int) : Floor α × Nat :=
  let dropped := f.desk.waitingFor instrument
  let f := { f with desk := { f.desk with waiting := f.desk.waiting.erase instrument } }
  (dropped.foldl
    (fun f w => f.transition w.intent time w.intent.referencePrice .canceled) f,
    dropped.length)

/-- Drops all waiting orders, instrument by instrument, and gives how many there were. -/
def cancelAll (f : Floor α) (time : Int) : Floor α × Nat :=
  f.desk.waiting.names.foldl
    (fun (f, count) instrument =>
      let (f, dropped) := f.cancel instrument time
      (f, count + dropped))
    (f, 0)

variable [Scalar α]

/-- Trades a number of lots of an intent at the close of a bar. -/
def fill? (f : Floor α) (intent : Intent α) (bar : Bar α) (volume : Int) :
    Option (Floor α × Fill α) :=
  let fill := fillAtClose intent bar volume
  let statuses := (f.desk.statuses.increment .accepted).increment .filled
  let accepted := AuditEvent.order fill.time fill.instrument fill.side fill.offset volume
    fill.price .accepted fill.traceId
  (f.book.trade? fill.instrument fill.side volume fill.price).map fun (book, _) =>
    let p := book.position fill.instrument
    let traded := AuditEvent.trade fill.time fill.instrument fill.side fill.offset volume
      fill.price p.net p.average p.realized fill.traceId
    ({ desk := { f.desk with statuses }, book, log := (f.log.append accepted).append traded },
      fill)

/-- What becomes of an intent: it is refused, it waits for the next bar, or it trades a number of
lots. -/
inductive Decision
  | reject
  | wait
  | trade (volume : Int)
  deriving DecidableEq, Repr

/-- What becomes of an intent, given the lots held in its instrument.  There is no answer where the
number of lots held has no distance from zero. -/
def decide? (intent : Intent α) (bar : Bar α) (net : Int) : Option Decision :=
  if intent.volume ≤ 0 ∨ ¬ Scalar.zero < bar.close ∨ intent.instrument ≠ bar.instrument then
    some .reject
  else
    match intent.offset with
    | .closing =>
      if net ≠ 0 ∧ net.sign = -intent.side.sign then
        (Count.abs? net).map fun held => .trade (min intent.volume held)
      else some .reject
    | .opening =>
      if net ≠ 0 ∧ net.sign ≠ intent.side.sign then some .wait
      else some (.trade intent.volume)

/-- Settles an intent on its bar, and gives the fill if it traded. -/
def submit? (f : Floor α) (intent : Intent α) (bar : Bar α) :
    Option (Floor α × Option (Fill α)) :=
  match decide? intent bar (f.book.net intent.instrument) with
  | none => none
  | some .reject => some (f.reject intent bar, none)
  | some .wait => some (f.defer intent bar, none)
  | some (.trade volume) => (f.fill? intent bar volume).map fun (f, fill) => (f, some fill)

/-- Settles a waiting order on the next bar of its instrument. -/
def settleOne? (f : Floor α) (intent : Intent α) (bar : Bar α) :
    Option (Floor α × Option (Fill α)) :=
  if f.book.net intent.instrument = 0 ∧ Scalar.zero < bar.close then
    (f.fill? intent bar intent.volume).map fun (f, fill) => (f, some fill)
  else some (f.reject intent bar, none)

/-- Settles waiting orders one after the other, and gives the fills. -/
def settleEach? (f : Floor α) (bar : Bar α) : List (Waiting α) → Option (Floor α × List (Fill α))
  | [] => some (f, [])
  | w :: rest =>
    match f.settleOne? w.intent bar with
    | none => none
    | some (f, fill) =>
      (f.settleEach? bar rest).map fun (f, fills) => (f, fill.toList ++ fills)

/-- Settles the orders that waited for a bar of this instrument, and gives the fills. -/
def settle? (f : Floor α) (bar : Bar α) : Option (Floor α × List (Fill α)) :=
  let due := f.desk.waitingFor bar.instrument
  let f := { f with desk := { f.desk with waiting := f.desk.waiting.erase bar.instrument } }
  f.settleEach? bar due

end Floor

end MarketTape
