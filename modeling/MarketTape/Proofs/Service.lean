import MarketTape.Proofs.Counters
import MarketTape.Proofs.Upkeep

/-!
# Every order is accounted for

The desk can be asked for five things: to settle an intent, to refuse one, to settle the orders that
waited for a bar, and to drop the waiting orders of one instrument or of all.  Nothing is known of
the order in which this is done, of the instruments and bars it is done with, or of what happened to
the book in between.

An order that is asked for comes to exactly one of three ends, or still waits.  It is not seen which
one from the call that gave it to the desk, since it may have to wait, and then another call settles
it: so the balance is struck over whole sequences of calls, and every call keeps it.

* `DeskCall` is what the desk can be asked for, `Floor.serve?` does it, and `Floor.serveAll?` does
  one thing after the other.
* `Floor.Counted` says what was counted between two floors; `Floor.counted_serve` is the step.
* `Floor.Accounted` is the balance over a sequence of calls, `Floor.accounted_serveAll?` the
  induction.
* `every_order_accounted` is the result.
-/

namespace MarketTape

variable {α : Type}

/-! ## Calls -/

/-- What the desk can be asked for: an intent is to be settled on its bar or to be refused, the
orders that waited for a bar are to be settled, or waiting orders are to be dropped, those of an
instrument or all of them. -/
inductive DeskCall (α : Type) where
  | submit (intent : Intent α) (bar : Bar α)
  | reject (intent : Intent α) (bar : Bar α)
  | settle (bar : Bar α)
  | cancel (instrument : String) (time : Int)
  | cancelAll (time : Int)
  deriving DecidableEq, Repr

namespace DeskCall

/-- Whether an intent is given to the desk. -/
def asks : DeskCall α → Bool
  | .submit .. => true
  | .reject .. => true
  | _ => false

/-- Whether waiting orders are settled. -/
def settles : DeskCall α → Bool
  | .settle _ => true
  | _ => false

end DeskCall

/-- What the desk gives back: the trades that took place, and how many waiting orders were dropped.
-/
structure Answer (α : Type) where
  fills : List (Fill α)
  dropped : Nat
  deriving DecidableEq, Repr

/-- A call with its answer, between the floor before it and the floor after it. -/
structure Service (α : Type) where
  before : Floor α
  call : DeskCall α
  answer : Answer α
  after : Floor α

namespace Service

/-- How many orders were refused in the course of a call. -/
def refused (s : Service α) : Nat :=
  s.after.desk.statuses.rejected - s.before.desk.statuses.rejected

/-- The trades that took place in the course of some calls. -/
def fillsIn (services : List (Service α)) : List (Fill α) := services.flatMap (·.answer.fills)

/-- How many waiting orders were dropped in the course of some calls. -/
def droppedIn (services : List (Service α)) : Nat := (services.map (·.answer.dropped)).sum

/-- How many orders traded after they had waited. -/
def lateFills (services : List (Service α)) : Nat :=
  (fillsIn (services.filter (·.call.settles))).length

/-- How many orders were refused after they had waited. -/
def lateRefusals (services : List (Service α)) : Nat :=
  ((services.filter (·.call.settles)).map refused).sum

variable (s : Service α) (rest : List (Service α))

lemma fillsIn_cons : fillsIn (s :: rest) = s.answer.fills ++ fillsIn rest := rfl

lemma droppedIn_cons : droppedIn (s :: rest) = s.answer.dropped + droppedIn rest := by
  rw [droppedIn, List.map_cons, List.sum_cons]
  rfl

lemma lateFills_cons : lateFills (s :: rest) =
    (if s.call.settles = true then s.answer.fills.length else 0) + lateFills rest := by
  rw [lateFills, List.filter_cons]
  split
  · rw [fillsIn_cons, List.length_append]
    rfl
  · exact (Nat.zero_add _).symm

lemma lateRefusals_cons : lateRefusals (s :: rest) =
    (if s.call.settles = true then s.refused else 0) + lateRefusals rest := by
  rw [lateRefusals, List.filter_cons]
  split
  · rw [List.map_cons, List.sum_cons]
    rfl
  · exact (Nat.zero_add _).symm

end Service

namespace Floor

variable [Scalar α]

/-- Does what the desk is asked for. -/
def serve? (f : Floor α) : DeskCall α → Option (Floor α × Answer α)
  | .submit intent bar => (f.submit? intent bar).map fun (f, fill) => (f, ⟨fill.toList, 0⟩)
  | .reject intent bar => some (f.reject intent bar, ⟨[], 0⟩)
  | .settle bar => (f.settle? bar).map fun (f, fills) => (f, ⟨fills, 0⟩)
  | .cancel instrument time =>
    some ((f.cancel instrument time).1, ⟨[], (f.cancel instrument time).2⟩)
  | .cancelAll time => some ((f.cancelAll time).1, ⟨[], (f.cancelAll time).2⟩)

/-- What the desk does for a call, with the floor it leads to and the answer it gives. -/
inductive Serves (f : Floor α) : DeskCall α → Floor α → Answer α → Prop
  | submit {intent : Intent α} {bar : Bar α} {f' : Floor α} {fill : Option (Fill α)}
      (settled : f.submit? intent bar = some (f', fill)) :
      Serves f (.submit intent bar) f' ⟨fill.toList, 0⟩
  | reject (intent : Intent α) (bar : Bar α) :
      Serves f (.reject intent bar) (f.reject intent bar) ⟨[], 0⟩
  | settle {bar : Bar α} {f' : Floor α} {fills : List (Fill α)}
      (settled : f.settle? bar = some (f', fills)) : Serves f (.settle bar) f' ⟨fills, 0⟩
  | cancel (instrument : String) (time : Int) :
      Serves f (.cancel instrument time) (f.cancel instrument time).1
        ⟨[], (f.cancel instrument time).2⟩
  | cancelAll (time : Int) :
      Serves f (.cancelAll time) (f.cancelAll time).1 ⟨[], (f.cancelAll time).2⟩

/-- A call that was answered has been served. -/
lemma serve?_cases {f f' : Floor α} {call : DeskCall α} {answer : Answer α}
    (h : f.serve? call = some (f', answer)) : f.Serves call f' answer := by
  cases call with
  | submit intent bar =>
    simp only [serve?, Option.map_eq_some_iff, Prod.exists, Prod.mk.injEq] at h
    obtain ⟨g, fill, hsubmit, rfl, rfl⟩ := h
    exact .submit hsubmit
  | reject intent bar =>
    simp only [serve?, Option.some.injEq, Prod.mk.injEq] at h
    obtain ⟨rfl, rfl⟩ := h
    exact .reject intent bar
  | settle bar =>
    simp only [serve?, Option.map_eq_some_iff, Prod.exists, Prod.mk.injEq] at h
    obtain ⟨g, fills, hsettle, rfl, rfl⟩ := h
    exact .settle hsettle
  | cancel instrument time =>
    simp only [serve?, Option.some.injEq, Prod.mk.injEq] at h
    obtain ⟨rfl, rfl⟩ := h
    exact .cancel instrument time
  | cancelAll time =>
    simp only [serve?, Option.some.injEq, Prod.mk.injEq] at h
    obtain ⟨rfl, rfl⟩ := h
    exact .cancelAll time

/-- Does one thing after the other, each of them with the book as it is by then. -/
def serveAll? (f : Floor α) :
    List (Book α × DeskCall α) → Option (Floor α × List (Service α))
  | [] => some (f, [])
  | (book, call) :: rest =>
    match ({ f with book } : Floor α).serve? call with
    | none => none
    | some (g, answer) =>
      (g.serveAll? rest).map fun (f', services) =>
        (f', ⟨{ f with book }, call, answer, g⟩ :: services)

/-- A sequence of calls that has a result is a call that was answered, and the rest. -/
lemma serveAll?_cons {f f' : Floor α} {book : Book α} {call : DeskCall α}
    {rest : List (Book α × DeskCall α)} {services : List (Service α)}
    (h : f.serveAll? ((book, call) :: rest) = some (f', services)) :
    ∃ g answer later, ({ f with book } : Floor α).serve? call = some (g, answer) ∧
      g.serveAll? rest = some (f', later) ∧
        services = ⟨{ f with book }, call, answer, g⟩ :: later := by
  simp only [serveAll?] at h
  split at h
  · cases h
  · rename_i g answer hcall
    simp only [Option.map_eq_some_iff, Prod.exists, Prod.mk.injEq] at h
    obtain ⟨last, later, hrest, rfl, rfl⟩ := h
    exact ⟨g, answer, later, hcall, hrest, rfl⟩

end Floor

/-! ## What is counted -/

namespace StatusCounts

/-- The counts of two rows of steps together. -/
def plus (c d : StatusCounts) : StatusCounts :=
  ⟨c.accepted + d.accepted, c.filled + d.filled, c.deferred + d.deferred, c.rejected + d.rejected,
    c.canceled + d.canceled⟩

lemma none_plus (c : StatusCounts) : none.plus c = c := by
  simp only [plus, none, Nat.zero_add]

lemma total_none : none.total = 0 := rfl

lemma plus_assoc (c d e : StatusCounts) : (c.plus d).plus e = c.plus (d.plus e) := by
  simp only [plus, Nat.add_assoc]

lemma total_plus (c d : StatusCounts) : (c.plus d).total = c.total + d.total := by
  simp only [plus, total]
  omega

/-- A step adds what it counts on its own. -/
lemma increment_eq_plus (c : StatusCounts) (s : OrderStatus) :
    c.increment s = c.plus (none.increment s) := by
  cases s <;> rfl

end StatusCounts

namespace Floor

/-- What was counted between two floors: the steps that orders took, each of which is a record where
a log is kept, and how many orders were taken out of their rows. -/
structure Counted (f f' : Floor α) (steps : StatusCounts) (taken : Nat) : Prop where
  statuses : f'.desk.statuses = f.desk.statuses.plus steps
  waiting : f'.desk.waitingCount + taken = f.desk.waitingCount + steps.deferred
  enabled : f'.log.enabled = f.log.enabled
  logged : f'.log.size = f.log.size + if f.log.enabled = true then steps.total else 0

namespace Counted

variable {f g f' : Floor α} {steps more : StatusCounts} {taken later : Nat}

lemma trans (h : f.Counted g steps taken) (h' : g.Counted f' more later) :
    f.Counted f' (steps.plus more) (taken + later) where
  statuses := by rw [h'.statuses, h.statuses, StatusCounts.plus_assoc]
  waiting := by
    have hbefore := h.waiting
    have hafter := h'.waiting
    simp only [StatusCounts.plus]
    omega
  enabled := h'.enabled.trans h.enabled
  logged := by
    rw [h'.logged, h.logged, h.enabled, StatusCounts.total_plus]
    split <;> omega

end Counted

variable (f : Floor α)

lemma counted_refl : f.Counted f StatusCounts.none 0 where
  statuses := rfl
  waiting := rfl
  enabled := rfl
  logged := by rw [StatusCounts.total_none, ite_self, Nat.add_zero]

/-- A step that makes no order wait. -/
lemma counted_transition (intent : Intent α) (time : Int) (price : α) {status : OrderStatus}
    (hstatus : status ≠ .deferred) :
    f.Counted (f.transition intent time price status) (StatusCounts.none.increment status) 0 where
  statuses := StatusCounts.increment_eq_plus _ status
  waiting := by
    cases status with
    | deferred => exact absurd rfl hstatus
    | _ => rfl
  enabled := f.log.enabled_append _
  logged := by
    rw [StatusCounts.total_increment]
    exact f.log.size_append _

lemma counted_defer (intent : Intent α) (bar : Bar α) :
    f.Counted (f.defer intent bar) ⟨0, 0, 1, 0, 0⟩ 0 where
  statuses := StatusCounts.increment_eq_plus _ .deferred
  waiting := Desk.waitingCount_defer _ _
  enabled := f.log.enabled_append _
  logged := f.log.size_append _

lemma counted_without (instrument : String) :
    f.Counted (f.without instrument) StatusCounts.none
      (f.desk.waitingFor instrument).length where
  statuses := rfl
  waiting := Desk.waitingCount_without f instrument
  enabled := rfl
  logged := f.counted_refl.logged

/-- The orders that are dropped are those that are taken out. -/
lemma counted_cancel (instrument : String) (time : Int) :
    f.Counted (f.cancel instrument time).1 ⟨0, 0, 0, 0, (f.cancel instrument time).2⟩
      (f.cancel instrument time).2 := by
  have hall : ∃ n, n + ([] : List (Waiting α)).length = (f.cancel instrument time).2 ∧
      f.Counted (f.cancel instrument time).1 ⟨0, 0, 0, 0, n⟩
        (f.cancel instrument time).2 := by
    refine cancel_induct (Q := fun due g => ∃ n, n + due.length = (f.cancel instrument time).2 ∧
      f.Counted g ⟨0, 0, 0, 0, n⟩ (f.cancel instrument time).2) ?_
      ⟨0, Nat.zero_add _, f.counted_without instrument⟩
    rintro w rest g ⟨n, hn, hg⟩
    refine ⟨n + 1, ?_, hg.trans (g.counted_transition w.intent time _ (by decide))⟩
    rw [← hn, List.length_cons]
    omega
  obtain ⟨n, hn, hcounted⟩ := hall
  rw [List.length_nil, Nat.add_zero] at hn
  exact hn ▸ hcounted

lemma counted_cancelAll (time : Int) :
    f.Counted (f.cancelAll time).1 ⟨0, 0, 0, 0, (f.cancelAll time).2⟩ (f.cancelAll time).2 :=
  cancelAll_tally (Q := fun _ g n => f.Counted g ⟨0, 0, 0, 0, n⟩ n)
    (fun hg => hg.trans (counted_cancel _ _ time)) f.counted_refl

variable [Scalar α] {f}

lemma counted_afterFill (f : Floor α) (intent : Intent α) (bar : Bar α) (volume : Int)
    (book : Book α) : f.Counted (f.afterFill intent bar volume book) ⟨1, 1, 0, 0, 0⟩ 0 where
  statuses := rfl
  waiting := rfl
  enabled := (AuditLog.enabled_append _ _).trans (f.log.enabled_append _)
  logged := by
    rw [afterFill, AuditLog.size_append, AuditLog.size_append, AuditLog.enabled_append]
    split <;> rfl

/-- Of the orders that are settled every one trades or is refused. -/
lemma counted_settleEach? {bar : Bar α} {due : List (Waiting α)} {f f' : Floor α}
    {fills : List (Fill α)} (h : f.settleEach? bar due = some (f', fills)) :
    ∃ refused, f.Counted f' ⟨fills.length, fills.length, 0, refused, 0⟩ 0 ∧
      fills.length + refused = due.length := by
  induction due generalizing f fills with
  | nil =>
    simp only [settleEach?, Option.some.injEq, Prod.mk.injEq] at h
    obtain ⟨rfl, rfl⟩ := h
    exact ⟨0, f.counted_refl, rfl⟩
  | cons w rest ih =>
    obtain ⟨g, fill, more, hone, heach, rfl⟩ := settleEach?_cons h
    obtain ⟨refused, hcounted, hlength⟩ := ih heach
    rw [List.length_append, List.length_cons]
    rcases settleOne?_cases hone with ⟨-, book, profit, -, rfl, rfl⟩ | ⟨-, rfl, rfl⟩
    · have hall := (f.counted_afterFill w.intent bar w.intent.volume book).trans hcounted
      simp only [StatusCounts.plus, Nat.add_zero, Nat.zero_add] at hall
      refine ⟨refused, hall, ?_⟩
      simp only [Option.toList_some, List.length_singleton]
      omega
    · have hrejected : f.Counted (f.reject w.intent bar) ⟨0, 0, 0, 1, 0⟩ 0 :=
        f.counted_transition w.intent bar.lastTime bar.close (by decide)
      have hall := hrejected.trans hcounted
      simp only [StatusCounts.plus, Nat.add_zero, Nat.zero_add] at hall
      simp only [Option.toList_none, List.length_nil, Nat.zero_add]
      exact ⟨1 + refused, hall, by omega⟩

/-- What a call counts.  Every order that is given to the desk or taken out of a row comes to an end
or has to wait; and orders are taken out to be settled or to be dropped. -/
theorem counted_serve {f f' : Floor α} {call : DeskCall α} {answer : Answer α}
    (h : f.serve? call = some (f', answer)) :
    ∃ deferred refused taken,
      f.Counted f' ⟨answer.fills.length, answer.fills.length, deferred, refused, answer.dropped⟩
        taken ∧
      answer.fills.length + refused + answer.dropped + deferred =
        (if call.asks = true then 1 else 0) + taken ∧
      taken = answer.dropped +
        if call.settles = true then answer.fills.length + refused else 0 := by
  cases serve?_cases h with
  | @submit intent bar _ _ hsubmit =>
    rcases submit?_cases hsubmit with
      ⟨-, rfl, rfl⟩ | ⟨-, rfl, rfl⟩ | ⟨volume, book, profit, -, -, rfl, rfl⟩
    · exact ⟨0, 1, 0, f.counted_transition intent _ _ (by decide), rfl, rfl⟩
    · exact ⟨1, 0, 0, f.counted_defer intent bar, rfl, rfl⟩
    · exact ⟨0, 0, 0, f.counted_afterFill intent bar volume book, rfl, rfl⟩
  | reject intent bar => exact ⟨0, 1, 0, f.counted_transition intent _ _ (by decide), rfl, rfl⟩
  | @settle bar _ fills hsettle =>
    obtain ⟨refused, hcounted, hlength⟩ := counted_settleEach? hsettle
    have hall := (f.counted_without bar.instrument).trans hcounted
    rw [StatusCounts.none_plus] at hall
    refine ⟨0, refused, _, hall, ?_, ?_⟩ <;>
      simp only [DeskCall.asks, DeskCall.settles, Bool.false_eq_true, if_false, if_true] <;> omega
  | cancel instrument time => exact ⟨0, 0, _, f.counted_cancel instrument time, rfl, rfl⟩
  | cancelAll time => exact ⟨0, 0, _, f.counted_cancelAll time, rfl, rfl⟩

end Floor

/-! ## The balance over a sequence of calls -/

namespace Floor

/-- The orders that have come to an end, and those that still wait. -/
def known (f : Floor α) : Nat :=
  f.desk.statuses.filled + f.desk.statuses.rejected + f.desk.statuses.canceled +
    f.desk.waitingCount

/-- The balance over a sequence of calls between two floors.  Every intent that was given to the
desk has come to an end, or waits; every trade was accepted and given back, and every order that was
dropped was given back as such.  Every order that had to wait has traded, was refused or was dropped
since, or still waits, and every step is a record where a log is kept. -/
structure Accounted (f : Floor α) (services : List (Service α)) (f' : Floor α) : Prop where
  known : f'.known = f.known + services.countP (·.call.asks)
  accepted : f'.desk.statuses.accepted =
    f.desk.statuses.accepted + (Service.fillsIn services).length
  filled : f'.desk.statuses.filled = f.desk.statuses.filled + (Service.fillsIn services).length
  canceled : f'.desk.statuses.canceled =
    f.desk.statuses.canceled + Service.droppedIn services
  deferred : f'.desk.statuses.deferred + f.desk.waitingCount =
    f.desk.statuses.deferred + f'.desk.waitingCount + Service.lateFills services +
      Service.lateRefusals services + Service.droppedIn services
  enabled : f'.log.enabled = f.log.enabled
  logged : f'.log.size + (if f.log.enabled = true then f.desk.statuses.total else 0) =
    f.log.size + if f.log.enabled = true then f'.desk.statuses.total else 0

namespace Accounted

variable {f g f' : Floor α} {services : List (Service α)}

lemma nil (f : Floor α) : f.Accounted [] f where
  known := rfl
  accepted := rfl
  filled := rfl
  canceled := rfl
  deferred := rfl
  enabled := rfl
  logged := rfl

variable [Scalar α]

/-- One call more, with a book of its own. -/
lemma cons {book : Book α} {call : DeskCall α} {answer : Answer α}
    (hcall : ({ f with book } : Floor α).serve? call = some (g, answer))
    (h : g.Accounted services f') :
    f.Accounted (⟨{ f with book }, call, answer, g⟩ :: services) f' := by
  obtain ⟨deferred, refused, taken, hcounted, hends, htaken⟩ := counted_serve hcall
  have hstatuses : g.desk.statuses = f.desk.statuses.plus ⟨answer.fills.length,
    answer.fills.length, deferred, refused, answer.dropped⟩ := hcounted.statuses
  have hwaiting : g.desk.waitingCount + taken = f.desk.waitingCount + deferred := hcounted.waiting
  have henabled : g.log.enabled = f.log.enabled := hcounted.enabled
  -- what the call refused can be read off the two floors
  have hrefused : (Service.mk { f with book } call answer g).refused = refused := by
    rw [Service.refused, hstatuses, StatusCounts.plus, Nat.add_sub_cancel_left]
  refine ⟨?_, ?_, ?_, ?_, ?_, h.enabled.trans henabled, ?_⟩
  · rw [h.known, Floor.known, Floor.known, hstatuses, List.countP_cons]
    simp only [StatusCounts.plus]
    omega
  · rw [h.accepted, hstatuses, Service.fillsIn_cons, List.length_append]
    exact Nat.add_assoc _ _ _
  · rw [h.filled, hstatuses, Service.fillsIn_cons, List.length_append]
    exact Nat.add_assoc _ _ _
  · rw [h.canceled, hstatuses, Service.droppedIn_cons]
    exact Nat.add_assoc _ _ _
  · have hlater := h.deferred
    rw [hstatuses] at hlater
    rw [Service.lateFills_cons, Service.lateRefusals_cons, Service.droppedIn_cons, hrefused]
    simp only [StatusCounts.plus] at hlater
    cases hsettles : call.settles <;>
      simp only [hsettles, Bool.false_eq_true, if_true, if_false] at htaken ⊢ <;> omega
  · have hlater := h.logged
    have hlogged := hcounted.logged
    rw [henabled, hstatuses, StatusCounts.total_plus] at hlater
    cases hkept : f.log.enabled <;>
      simp only [hkept, Bool.false_eq_true, if_true, if_false] at hlater hlogged ⊢ <;> omega

end Accounted

variable [Scalar α]

/-- Every sequence of calls is in balance. -/
theorem accounted_serveAll? {requests : List (Book α × DeskCall α)} {f f' : Floor α}
    {services : List (Service α)} (h : f.serveAll? requests = some (f', services)) :
    f.Accounted services f' := by
  induction requests generalizing f services with
  | nil =>
    simp only [serveAll?, Option.some.injEq, Prod.mk.injEq] at h
    obtain ⟨rfl, rfl⟩ := h
    exact Accounted.nil f
  | cons request rest ih =>
    obtain ⟨g, answer, later, hcall, hrest, rfl⟩ := serveAll?_cons h
    exact (ih hrest).cons hcall

end Floor

/-! ## The orders that wait -/

section Filed

variable [Scalar α] {f f' : Floor α}

/-- Nothing is asked of the book and the log. -/
lemma Floor.keepsTrades_true : KeepsTrades fun (_ : Book α) (_ : AuditLog α) => True where
  order _ _ _ _ _ := trivial
  fill _ _ _ _ _ _ _ _ _ := trivial

/-- A call makes no other orders wait than proper ones. -/
lemma Desk.Filed.serve {call : DeskCall α} {answer : Answer α} (h : f.desk.Filed)
    (hcall : f.serve? call = some (f', answer)) : f'.desk.Filed := by
  have hkept : f.Kept fun _ _ => True := ⟨h, trivial⟩
  cases Floor.serve?_cases hcall with
  | submit hsubmit => exact (Floor.keepsTrades_true.submit hkept hsubmit).1
  | reject intent bar => exact h
  | settle hsettle => exact (Floor.keepsTrades_true.settle hkept hsettle).1
  | cancel instrument time => exact (Floor.keepsTrades_true.cancel hkept instrument time).1
  | cancelAll time => exact (Floor.keepsTrades_true.cancelAll hkept time).1

/-- Nor does a sequence of calls; and the calls were made as they were asked for. -/
lemma Desk.Filed.serveAll {requests : List (Book α × DeskCall α)} {services : List (Service α)}
    (hfiled : f.desk.Filed) (h : f.serveAll? requests = some (f', services)) :
    f'.desk.Filed ∧ services.map (·.call) = requests.map (·.2) := by
  induction requests generalizing f services with
  | nil =>
    simp only [Floor.serveAll?, Option.some.injEq, Prod.mk.injEq] at h
    obtain ⟨rfl, rfl⟩ := h
    exact ⟨hfiled, rfl⟩
  | cons request rest ih =>
    obtain ⟨g, answer, later, hcall, hrest, rfl⟩ := Floor.serveAll?_cons h
    have hbefore : ({ f with book := request.1 } : Floor α).desk.Filed := hfiled
    obtain ⟨hafter, hcalls⟩ := ih (hbefore.serve hcall) hrest
    exact ⟨hafter, congrArg (request.2 :: ·) hcalls⟩

end Filed

/-! ## The result -/

variable [Scalar α]

/-- **Every order is accounted for.**  The desk starts without orders, with any book and any log,
and is asked for any sequence of things, each of them with whatever the book is by then.  If nothing
leaves its range, then in the end

* every intent that was given to the desk has traded, was refused or was dropped, or still waits;
* as many orders were accepted as have traded, and as many trades were given back;
* every order that had to wait still waits, has traded since, was refused since, or was dropped, and
  as many were dropped as the answers say;
* the log, if there is one, has one more record for every step that was counted;
* and every order that still waits opens some lots, and waits for its own instrument. -/
theorem every_order_accounted (book : Book α) (log : AuditLog α)
    {requests : List (Book α × DeskCall α)} {f : Floor α} {services : List (Service α)}
    (h : (Floor.mk Desk.start book log).serveAll? requests = some (f, services)) :
    services.map (·.call) = requests.map (·.2) ∧
    (requests.countP (·.2.asks) = f.desk.statuses.filled + f.desk.statuses.rejected +
      f.desk.statuses.canceled + f.desk.waitingCount) ∧
    f.desk.statuses.accepted = f.desk.statuses.filled ∧
    f.desk.statuses.filled = (Service.fillsIn services).length ∧
    (f.desk.statuses.deferred = f.desk.waitingCount + Service.lateFills services +
      Service.lateRefusals services + Service.droppedIn services) ∧
    f.desk.statuses.canceled = Service.droppedIn services ∧
    (f.log.size = log.size + if log.enabled = true then f.desk.statuses.total else 0) ∧
    f.desk.Filed := by
  have haccounts := Floor.accounted_serveAll? h
  obtain ⟨hfiled, hcalls⟩ := Desk.filed_start.serveAll h
  have hasked : services.countP (·.call.asks) = requests.countP (·.2.asks) := by
    have hmapped := congrArg (List.countP DeskCall.asks) hcalls
    rw [List.countP_map, List.countP_map] at hmapped
    exact hmapped
  have hknown : f.known = 0 + services.countP (·.call.asks) := haccounts.known
  have haccepted : f.desk.statuses.accepted = 0 + (Service.fillsIn services).length :=
    haccounts.accepted
  have hfilled : f.desk.statuses.filled = 0 + (Service.fillsIn services).length :=
    haccounts.filled
  have hcanceled : f.desk.statuses.canceled = 0 + Service.droppedIn services := haccounts.canceled
  have hdeferred : f.desk.statuses.deferred + 0 = 0 + f.desk.waitingCount +
    Service.lateFills services + Service.lateRefusals services + Service.droppedIn services :=
    haccounts.deferred
  have hlogged : f.log.size + (if log.enabled = true then 0 else 0) =
    log.size + if log.enabled = true then f.desk.statuses.total else 0 := haccounts.logged
  rw [ite_self, Nat.add_zero] at hlogged
  rw [Floor.known] at hknown
  exact ⟨hcalls, by omega, by omega, by omega, by omega, by omega, hlogged, hfiled⟩

/-! ## A busy desk -/

/-- A bar of an instrument that closed at a price. -/
def closedBar (instrument : String) (close : Float) : Bar Float :=
  ⟨instrument, 0, 0, 59, close, close, close, close, 0, 1, close, close, 1, 1⟩

/-- Two lots are held, and three orders that sell one each have to wait.  The position is closed,
and on the next bar the first one of them trades, so that the others are refused.  In another
instrument one order is dropped, one is refused at once, and the last one still waits. -/
def busyDesk : List (Book Float × DeskCall Float) :=
  let long (instrument : String) : Book Float := Book.empty.put instrument ⟨2, 100, 0⟩
  let sold (instrument : String) (offset : Offset) : Intent Float :=
    ⟨instrument, .sell, offset, 1, 100, "t"⟩
  [(long "rb2405", .submit (sold "rb2405" .opening) (closedBar "rb2405" 100)),
    (long "rb2405", .submit (sold "rb2405" .opening) (closedBar "rb2405" 100)),
    (long "rb2405", .submit (sold "rb2405" .opening) (closedBar "rb2405" 100)),
    (long "rb2405", .submit (sold "rb2405" .closing) (closedBar "rb2405" 100)),
    (Book.empty, .settle (closedBar "rb2405" 101)),
    (long "ag2406", .submit (sold "ag2406" .opening) (closedBar "ag2406" 50)),
    (long "ag2406", .cancel "rb2405" 60),
    (long "ag2406", .cancelAll 60),
    (long "ag2406", .reject (sold "ag2406" .closing) (closedBar "ag2406" 50)),
    (long "ag2406", .submit (sold "ag2406" .opening) (closedBar "ag2406" 50))]

/-- Seven intents were given: two have traded, three were refused, one was dropped and one waits. -/
theorem every_order_accounted_busyDesk :
    ∃ f services,
      (Floor.mk Desk.start Book.empty (AuditLog.start true)).serveAll? busyDesk =
        some (f, services) ∧
      busyDesk.countP (·.2.asks) = 7 ∧ f.desk.statuses = ⟨2, 2, 5, 3, 1⟩ ∧
      f.desk.waitingCount = 1 ∧ (Service.fillsIn services).length = 2 ∧
      5 = 1 + Service.lateFills services + Service.lateRefusals services + 1 ∧
      f.log.size = 13 ∧ f.desk.Filed := by
  have hvalues : ((Floor.mk Desk.start Book.empty (AuditLog.start true)).serveAll? busyDesk).map
      (fun served => (served.1.desk.statuses, served.1.desk.waitingCount)) =
        some (⟨2, 2, 5, 3, 1⟩, 1) := by
    decide +kernel
  obtain ⟨⟨f, services⟩, h, hf⟩ := Option.map_eq_some_iff.mp hvalues
  simp only [Prod.mk.injEq] at hf
  obtain ⟨hstatuses, hwaiting⟩ := hf
  obtain ⟨-, hasked, -, hfilled, hdeferred, hcanceled, hlogged, hfiled⟩ :=
    every_order_accounted Book.empty (AuditLog.start true) h
  rw [hstatuses] at hasked hfilled hdeferred hcanceled hlogged
  rw [hwaiting] at hasked hdeferred
  refine ⟨f, services, h, hasked, hstatuses, hwaiting, hfilled.symm, ?_, hlogged, hfiled⟩
  rw [← hcanceled] at hdeferred
  exact hdeferred

end MarketTape
