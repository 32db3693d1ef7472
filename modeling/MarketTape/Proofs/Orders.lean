import Mathlib.Data.List.Nodup
import MarketTape.Proofs.Desk
import MarketTape.Proofs.Table

/-!
# The life of an order

An order has few ways to go.  It may be refused or trade at once, or it may have to wait and then
trade, be refused or be dropped.  The log tells which way it went, if its name is its own.

The desk could lose an order in many places, because an order may be settled long after it was
placed.  What rules this out is a count: an order that has an end in the log waits nowhere, and an
order whose last record says that it waits is found once, among those of its own instrument.

* `lives` are the ways to go, and `life` reads one off a log.
* `Orders` is the invariant of the desk and the log, with the orders placed so far.
* `Orders.advance` is the step they all share: one order gets records, and the others do not notice.
* `Orders.submit`, `Orders.settle`, `Orders.cancel` and `Orders.cancelAll` are the operations of the
  desk.
-/

namespace MarketTape

variable {α : Type}

/-! ## Reading the log -/

/-- What an order and its records have in common. -/
structure Ticket where
  traceId : String
  instrument : String
  side : Side
  offset : Offset
  deriving DecidableEq, Repr

/-- The ticket of an intent. -/
def Intent.ticket (intent : Intent α) : Ticket :=
  ⟨intent.traceId, intent.instrument, intent.side, intent.offset⟩

namespace AuditEvent

/-- The kinds of records. -/
inductive Kind
  | order (status : OrderStatus)
  | trade
  | rollover
  deriving DecidableEq, Repr

/-- The kind of a record. -/
def kind : AuditEvent α → Kind
  | .order _ _ _ _ _ _ status _ => .order status
  | .trade .. => .trade
  | .rollover .. => .rollover

/-- The ticket of the order that a record is about. -/
def ticket? : AuditEvent α → Option Ticket
  | .order _ instrument side offset _ _ _ traceId => some ⟨traceId, instrument, side, offset⟩
  | .trade _ instrument side offset _ _ _ _ _ traceId => some ⟨traceId, instrument, side, offset⟩
  | .rollover .. => none

/-- Whether a record is about the order of a name. -/
def concerns (e : AuditEvent α) (traceId : String) : Bool :=
  e.ticket?.any fun ticket => ticket.traceId == traceId

lemma concerns_eq {e : AuditEvent α} {ticket : Ticket} (h : e.ticket? = some ticket)
    (traceId : String) : e.concerns traceId = (ticket.traceId == traceId) := by
  rw [concerns, h, Option.any_some]

/-- Every record of an accepted order is followed by the record of its trade, over the same number
of lots. -/
def Paired (log : List (AuditEvent α)) : Prop :=
  ∀ before time instrument side offset volume price traceId after,
    log = before ++
        .order time instrument side offset volume price .accepted traceId :: after →
      ∃ net average realized rest,
        after = .trade time instrument side offset volume price net average realized traceId :: rest

lemma paired_nil : Paired ([] : List (AuditEvent α)) := by
  intro before _ _ _ _ _ _ _ after h
  simp at h

lemma Paired.append {log more : List (AuditEvent α)} (h : Paired log) (hmore : Paired more) :
    Paired (log ++ more) := by
  intro before time instrument side offset volume price traceId after hsplit
  rcases List.append_eq_append_iff.mp hsplit with ⟨rest, -, hrest⟩ | ⟨rest, hlog, hrest⟩
  · exact hmore _ _ _ _ _ _ _ _ _ hrest
  · cases rest with
    | nil => exact hmore [] _ _ _ _ _ _ _ _ hrest.symm
    | cons first rest =>
      obtain ⟨rfl, rfl⟩ := List.cons.inj hrest
      obtain ⟨net, average, realized, tail, rfl⟩ := h _ _ _ _ _ _ _ _ _ hlog
      exact ⟨net, average, realized, tail ++ more, rfl⟩

/-- Without an accepted order there is nothing to follow. -/
lemma paired_of_forall {log : List (AuditEvent α)} (h : ∀ e ∈ log, e.kind ≠ .order .accepted) :
    Paired log := by
  rintro before time instrument side offset volume price traceId after rfl
  exact absurd rfl (h _ (List.mem_append_right _ List.mem_cons_self))

lemma ticket_of_settled {intent : Intent α} {time : Int} {price : α} {status : OrderStatus} :
    ∀ e ∈ [AuditEvent.settled intent time price status], e.ticket? = some intent.ticket := by
  intro e he
  obtain rfl := List.mem_singleton.mp he
  rfl

lemma paired_settled (intent : Intent α) (time : Int) (price : α) {status : OrderStatus}
    (h : status ≠ .accepted) : Paired [.settled intent time price status] := by
  refine paired_of_forall fun e he => ?_
  obtain rfl := List.mem_singleton.mp he
  simpa only [kind, settled, ne_eq, Kind.order.injEq] using h

lemma ticket_of_fill {intent : Intent α} {bar : Bar α} (h : intent.instrument = bar.instrument)
    {volume : Int} {p : Position α} :
    ∀ e ∈ [AuditEvent.accepted intent bar volume, .traded intent bar volume p],
      e.ticket? = some intent.ticket := by
  intro e he
  simp only [List.mem_cons, List.not_mem_nil, or_false] at he
  rcases he with rfl | rfl <;> simp only [accepted, traded, ticket?, Intent.ticket, h]

/-- The two records of a trade follow each other. -/
lemma paired_fill (intent : Intent α) (bar : Bar α) (volume : Int) (p : Position α) :
    Paired [.accepted intent bar volume, .traded intent bar volume p] := by
  intro before time instrument side offset lots price traceId after hsplit
  cases before with
  | nil =>
    obtain ⟨hfirst, rfl⟩ := List.cons.inj hsplit
    simp only [accepted, order.injEq, true_and] at hfirst
    obtain ⟨rfl, rfl, rfl, rfl, rfl, rfl, rfl⟩ := hfirst
    exact ⟨_, _, _, [], rfl⟩
  | cons first rest =>
    obtain ⟨-, hrest⟩ := List.cons.inj hsplit
    cases rest with
    | nil => simp [traded] at hrest
    | cons second rest => simp at hrest

end AuditEvent

open AuditEvent

/-- The ways an order can go. -/
def lives : List (List Kind) :=
  [[.order .rejected],
    [.order .accepted, .trade],
    [.order .deferred, .order .accepted, .trade],
    [.order .deferred, .order .rejected],
    [.order .deferred, .order .canceled]]

-- no two ways are the same, so an order that goes one of them goes exactly one
example : lives.Nodup := by decide

/-- The life of the order of a name, as far as a log tells it. -/
def life (log : List (AuditEvent α)) (traceId : String) : List Kind :=
  (log.filter fun e => e.concerns traceId).map kind

section Life

variable {log : List (AuditEvent α)} {traceId : String}

lemma life_append (more : List (AuditEvent α)) :
    life (log ++ more) traceId = life log traceId ++ life more traceId := by
  rw [life, List.filter_append, List.map_append]
  rfl

lemma life_eq_map {ticket : Ticket} (h : ∀ e ∈ log, e.ticket? = some ticket) :
    life log ticket.traceId = log.map kind := by
  rw [life, List.filter_eq_self.mpr]
  intro e he
  rw [concerns_eq (h e he), beq_self_eq_true]

lemma life_eq_nil (h : ∀ e ∈ log, ∀ ticket, e.ticket? = some ticket → ticket.traceId ≠ traceId) :
    life log traceId = [] := by
  rw [life, List.map_eq_nil_iff, List.filter_eq_nil_iff]
  intro e he hconcerns
  simp only [concerns, Option.any_eq_true, beq_iff_eq] at hconcerns
  obtain ⟨ticket, hticket, hname⟩ := hconcerns
  exact h e he ticket hticket hname

end Life

/-! ## The invariant -/

/-- How often an order waits. -/
def openCount (waits : String → List (Waiting α)) (o : Intent α) : Nat :=
  (waits o.instrument).countP fun w => w.intent.traceId == o.traceId

/-- Filing other orders under an instrument counts for the orders of that instrument alone. -/
lemma openCount_update (waits : String → List (Waiting α)) (instrument : String)
    (due : List (Waiting α)) (o : Intent α) :
    openCount (Function.update waits instrument due) o =
      if o.instrument = instrument then due.countP fun w => w.intent.traceId == o.traceId
      else openCount waits o := by
  rw [openCount, Function.update_apply]
  split <;> rfl

/-- An order has come to its end and does not wait, or it has had to wait and waits once. -/
def Stage (life : List Kind) (waiting : Nat) : Prop :=
  (life ∈ lives ∧ waiting = 0) ∨ (life = [.order .deferred] ∧ waiting = 1)

/-- The orders that were placed, those that wait, and the log fit together.  No two orders share a
name, what waits was placed and is filed under its own instrument, and a record is about an order
that was placed; every order has come to its end or waits, and accepted orders trade. -/
structure Orders (placed : List (Intent α)) (waits : String → List (Waiting α))
    (log : AuditLog α) : Prop where
  enabled : log.enabled = true
  distinct : (placed.map (·.traceId)).Nodup
  filed : ∀ instrument, ∀ w ∈ waits instrument,
    w.intent ∈ placed ∧ w.intent.instrument = instrument
  known : ∀ e ∈ log.events.toList, ∀ ticket, e.ticket? = some ticket →
    ∃ o ∈ placed, o.ticket = ticket
  stage : ∀ o ∈ placed, Stage (life log.events.toList o.traceId) (openCount waits o)
  paired : Paired log.events.toList

namespace Orders

variable {placed placed' : List (Intent α)} {waits waits' : String → List (Waiting α)}
  {log : AuditLog α} {o : Intent α} {more : List (AuditEvent α)}

/-- One order gets records.  The others do not notice, because their names differ. -/
lemma advance (o : Intent α) (h : Orders placed waits log)
    (hdistinct : (placed'.map (·.traceId)).Nodup)
    (hplaced : ∀ x, x ∈ placed' ↔ x = o ∨ x ∈ placed)
    (hmore : ∀ e ∈ more, e.ticket? = some o.ticket) (hpaired : Paired more)
    (hfiled : ∀ instrument, ∀ w ∈ waits' instrument,
      w ∈ waits instrument ∨ (w.intent = o ∧ o.instrument = instrument))
    (hframe : ∀ x ∈ placed, x.traceId ≠ o.traceId → openCount waits' x = openCount waits x)
    (hstage : Stage (life log.events.toList o.traceId ++ more.map kind) (openCount waits' o)) :
    Orders placed' waits' (log.extend more) where
  enabled := (log.enabled_extend more).trans h.enabled
  distinct := hdistinct
  filed := by
    intro instrument w hw
    rcases hfiled instrument w hw with hold | ⟨rfl, hinstrument⟩
    · obtain ⟨hmem, hinstrument⟩ := h.filed instrument w hold
      exact ⟨(hplaced _).mpr (.inr hmem), hinstrument⟩
    · exact ⟨(hplaced _).mpr (.inl rfl), hinstrument⟩
  known := by
    intro e he ticket hticket
    rw [AuditLog.toList_extend h.enabled, List.mem_append] at he
    rcases he with he | he
    · obtain ⟨x, hx, hxticket⟩ := h.known e he ticket hticket
      exact ⟨x, (hplaced x).mpr (.inr hx), hxticket⟩
    · exact ⟨o, (hplaced o).mpr (.inl rfl), Option.some.inj ((hmore e he).symm.trans hticket)⟩
  stage := by
    intro x hx
    rw [AuditLog.toList_extend h.enabled, life_append]
    by_cases hname : x.traceId = o.traceId
    · -- names are distinct, so this is the order itself
      obtain rfl : x = o :=
        List.inj_on_of_nodup_map hdistinct hx ((hplaced o).mpr (.inl rfl)) hname
      have hlife : life more x.traceId = more.map kind := life_eq_map hmore
      rw [hlife]
      exact hstage
    · have hlife : life more x.traceId = [] := by
        refine life_eq_nil fun e he ticket hticket => ?_
        obtain rfl := Option.some.inj ((hmore e he).symm.trans hticket)
        exact Ne.symm hname
      have hmem : x ∈ placed := by
        rcases (hplaced x).mp hx with rfl | hmem
        · exact absurd rfl hname
        · exact hmem
      rw [hlife, List.append_nil, hframe x hmem hname]
      exact h.stage x hmem
  paired := by
    rw [AuditLog.toList_extend h.enabled]
    exact h.paired.append hpaired

/-- A name that no order has taken is in no record and waits nowhere. -/
lemma fresh (h : Orders placed waits log) (hfresh : o.traceId ∉ placed.map (·.traceId)) :
    life log.events.toList o.traceId = [] ∧ openCount waits o = 0 := by
  have taken : ∀ x ∈ placed, x.traceId ≠ o.traceId := fun x hx hname =>
    hfresh (List.mem_map.mpr ⟨x, hx, hname⟩)
  constructor
  · refine life_eq_nil fun e he ticket hticket => ?_
    obtain ⟨x, hx, rfl⟩ := h.known e he ticket hticket
    exact taken x hx
  · rw [openCount, List.countP_eq_zero]
    intro w hw
    rw [beq_iff_eq]
    exact taken w.intent (h.filed _ w hw).1

lemma distinct_concat (h : Orders placed waits log)
    (hfresh : o.traceId ∉ placed.map (·.traceId)) :
    ((placed ++ [o]).map (·.traceId)).Nodup := by
  rw [List.map_append, List.map_singleton, ← List.concat_eq_append]
  exact h.distinct.concat hfresh

/-- A new order comes to its end at once. -/
lemma place (h : Orders placed waits log) (hfresh : o.traceId ∉ placed.map (·.traceId))
    (hmore : ∀ e ∈ more, e.ticket? = some o.ticket) (hpaired : Paired more)
    (hlife : more.map kind ∈ lives) : Orders (placed ++ [o]) waits (log.extend more) := by
  obtain ⟨hnone, hzero⟩ := h.fresh hfresh
  refine h.advance o (h.distinct_concat hfresh) ?_ hmore hpaired (fun _ _ hw => .inl hw)
    (fun _ _ _ => rfl) ?_
  · intro x
    rw [List.mem_append, List.mem_singleton, or_comm]
  · rw [hnone, hzero, List.nil_append]
    exact .inl ⟨hlife, rfl⟩

/-- A new order waits behind the others of its instrument. -/
lemma wait (h : Orders placed waits log) (hfresh : o.traceId ∉ placed.map (·.traceId))
    (time since : Int) (price : α) :
    Orders (placed ++ [o])
      (Function.update waits o.instrument (waits o.instrument ++ [⟨o, since⟩]))
      (log.extend [.settled o time price .deferred]) := by
  obtain ⟨hnone, hzero⟩ := h.fresh hfresh
  refine h.advance o (h.distinct_concat hfresh) ?_ ticket_of_settled
    (paired_settled o time price (by decide)) ?_ ?_ ?_
  · intro x
    rw [List.mem_append, List.mem_singleton, or_comm]
  · intro instrument w hw
    rw [Function.update_apply] at hw
    split at hw
    · rename_i hinstrument
      rcases List.mem_append.mp hw with hold | hnew
      · exact .inl (hinstrument ▸ hold)
      · obtain rfl := List.mem_singleton.mp hnew
        exact .inr ⟨rfl, hinstrument.symm⟩
    · exact .inl hw
  · intro x _ hname
    rw [openCount_update]
    split
    · rename_i hinstrument
      have hother : ¬ (o.traceId == x.traceId) = true := fun heq => hname (beq_iff_eq.mp heq).symm
      rw [List.countP_append, List.countP_singleton, if_neg hother, openCount, hinstrument]
      rfl
    · rfl
  · have hone : openCount
        (Function.update waits o.instrument (waits o.instrument ++ [⟨o, since⟩])) o = 1 := by
      rw [openCount] at hzero
      rw [openCount_update, if_pos rfl, List.countP_append, hzero, List.countP_singleton,
        if_pos (beq_self_eq_true o.traceId)]
    rw [hnone, hone]
    exact .inr ⟨rfl, rfl⟩

/-- Records of rollovers are about no order. -/
lemma extend_rollover (h : Orders placed waits log)
    (hmore : ∀ e ∈ more, e.kind = .rollover) : Orders placed waits (log.extend more) := by
  have hticket : ∀ e ∈ more, e.ticket? = none := by
    intro e he
    have hkind := hmore e he
    cases e with
    | order => simp [kind] at hkind
    | trade => simp [kind] at hkind
    | rollover => rfl
  refine ⟨(log.enabled_extend more).trans h.enabled, h.distinct, h.filed, ?_, ?_, ?_⟩
  · intro e he ticket hsome
    rw [AuditLog.toList_extend h.enabled, List.mem_append] at he
    rcases he with he | he
    · exact h.known e he ticket hsome
    · rw [hticket e he] at hsome
      cases hsome
  · intro x hx
    have hlife : life more x.traceId = [] := by
      refine life_eq_nil fun e he ticket hsome => ?_
      rw [hticket e he] at hsome
      cases hsome
    rw [AuditLog.toList_extend h.enabled, life_append, hlife, List.append_nil]
    exact h.stage x hx
  · rw [AuditLog.toList_extend h.enabled]
    refine h.paired.append (paired_of_forall fun e he => ?_)
    rw [hmore e he]
    simp

end Orders

/-! ## Orders in hand -/

/-- The first of the orders in hand, which are those of one instrument, comes to its end. -/
lemma Orders.settleFirst {placed : List (Intent α)} {waits : String → List (Waiting α)}
    {log : AuditLog α} {more : List (AuditEvent α)} {instrument : String} {w : Waiting α}
    {rest : List (Waiting α)}
    (h : Orders placed (Function.update waits instrument (w :: rest)) log)
    (hmore : ∀ e ∈ more, e.ticket? = some w.intent.ticket) (hpaired : Paired more)
    (hlife : .order .deferred :: more.map kind ∈ lives) :
    Orders placed (Function.update waits instrument rest) (log.extend more) := by
  have hhand : w ∈ Function.update waits instrument (w :: rest) instrument := by
    rw [Function.update_self]
    exact List.mem_cons_self
  obtain ⟨hplaced, hfiled⟩ := h.filed instrument w hhand
  have hcount : openCount (Function.update waits instrument (w :: rest)) w.intent =
      openCount (Function.update waits instrument rest) w.intent + 1 := by
    rw [openCount_update, openCount_update, if_pos hfiled, if_pos hfiled, List.countP_cons,
      if_pos (beq_self_eq_true w.intent.traceId)]
  refine h.advance w.intent h.distinct ?_ hmore hpaired ?_ ?_ ?_
  · intro x
    exact ⟨.inr, fun hx => hx.elim (fun heq => heq ▸ hplaced) id⟩
  · intro other v hv
    rw [Function.update_apply] at hv ⊢
    split at hv
    · rename_i hother
      rw [if_pos hother]
      exact .inl (List.mem_cons_of_mem w hv)
    · rename_i hother
      rw [if_neg hother]
      exact .inl hv
  · intro x _ hname
    have hother : ¬ (w.intent.traceId == x.traceId) = true :=
      fun heq => hname (beq_iff_eq.mp heq).symm
    rw [openCount_update, openCount_update, List.countP_cons, if_neg hother, Nat.add_zero]
  · -- an order in hand waits, so it has had to wait and has not come to its end before
    rcases h.stage w.intent hplaced with ⟨-, hzero⟩ | ⟨hdeferred, hone⟩
    · omega
    · rw [hdeferred]
      exact .inl ⟨hlife, by omega⟩

/-! ## The desk -/

namespace Orders

variable {placed : List (Intent α)} {f f' : Floor α} {o : Intent α} {bar : Bar α}

lemma reject (h : Orders placed f.desk.waitingFor f.log)
    (hfresh : o.traceId ∉ placed.map (·.traceId)) (bar : Bar α) :
    Orders (placed ++ [o]) (f.reject o bar).desk.waitingFor (f.reject o bar).log := by
  refine h.place hfresh ticket_of_settled
    (paired_settled o bar.lastTime bar.close (by decide : OrderStatus.rejected ≠ .accepted)) ?_
  exact List.mem_cons_self

/-- The orders of an instrument are in hand: with them the desk is in order, and it files no others
under that instrument. -/
structure InHand (placed : List (Intent α)) (instrument : String) (due : List (Waiting α))
    (f : Floor α) : Prop where
  orders : Orders placed (Function.update f.desk.waitingFor instrument due) f.log
  unfiled : f.desk.waitingFor instrument = []

/-- With no order left in hand, what waits is what the desk holds. -/
lemma InHand.done {instrument : String} (h : InHand placed instrument [] f) :
    Orders placed f.desk.waitingFor f.log := by
  have horders := h.orders
  rw [← h.unfiled, Function.update_eq_self] at horders
  exact horders

/-- The orders of an instrument are taken in hand. -/
lemma takeInHand (h : Orders placed f.desk.waitingFor f.log) (instrument : String) :
    InHand placed instrument (f.desk.waitingFor instrument) (f.without instrument) := by
  have herase : ∀ other, (f.without instrument).desk.waitingFor other =
      if other = instrument then [] else f.desk.waitingFor other := by
    intro other
    simp only [Floor.without, Desk.waitingFor, Table.get?_erase]
    split <;> rfl
  have heq : Function.update (f.without instrument).desk.waitingFor instrument
      (f.desk.waitingFor instrument) = f.desk.waitingFor := by
    funext other
    rw [Function.update_apply, herase]
    split
    · rename_i hother
      rw [hother]
    · rfl
  refine ⟨?_, by rw [herase, if_pos rfl]⟩
  rw [heq]
  exact h

variable [Scalar α]

/-- A new order is refused, waits or trades. -/
theorem submit (h : Orders placed f.desk.waitingFor f.log)
    (hfresh : o.traceId ∉ placed.map (·.traceId)) {fill : Option (Fill α)}
    (hs : f.submit? o bar = some (f', fill)) :
    Orders (placed ++ [o]) f'.desk.waitingFor f'.log := by
  rcases Floor.submit?_cases hs with ⟨-, rfl, -⟩ | ⟨-, rfl, -⟩ |
    ⟨volume, book, profit, hd, -, rfl, -⟩
  · exact h.reject hfresh bar
  · have hwait := h.wait hfresh bar.lastTime bar.lastTime bar.close
    have heq : (f.defer o bar).desk.waitingFor = Function.update f.desk.waitingFor o.instrument
        (f.desk.waitingFor o.instrument ++ [⟨o, bar.lastTime⟩]) := by
      funext instrument
      rw [Function.update_apply]
      refine (Desk.waitingFor_defer _ _ instrument).trans ?_
      split
      · rename_i hinstrument
        rw [← hinstrument]
        rfl
      · rfl
    rw [heq]
    exact hwait
  · obtain ⟨-, -, hinstrument, -⟩ := Floor.decide?_trade hd
    refine h.place hfresh (ticket_of_fill hinstrument)
      (paired_fill o bar volume (book.position bar.instrument)) ?_
    exact List.mem_cons_of_mem _ List.mem_cons_self

/-- The orders that waited for a bar come to their ends. -/
theorem settle (h : Orders placed f.desk.waitingFor f.log) {fills : List (Fill α)}
    (hs : f.settle? bar = some (f', fills)) : Orders placed f'.desk.waitingFor f'.log := by
  have hsettled : InHand placed bar.instrument [] f' := by
    refine Floor.settleEach?_induct (Q := InHand placed bar.instrument) ?_
      (h.takeInHand bar.instrument) hs
    rintro w rest g g' fill ⟨hg, hunfiled⟩ hone
    rcases Floor.settleOne?_cases hone with ⟨-, book, profit, -, rfl, -⟩ | ⟨-, rfl, -⟩
    · have hinstrument : w.intent.instrument = bar.instrument :=
        (hg.filed bar.instrument w (by simp)).2
      refine ⟨hg.settleFirst (ticket_of_fill hinstrument)
        (paired_fill w.intent bar w.intent.volume (book.position bar.instrument)) ?_, hunfiled⟩
      simp [lives, accepted, traded, kind]
    · refine ⟨hg.settleFirst ticket_of_settled (paired_settled w.intent bar.lastTime bar.close
        (by decide : OrderStatus.rejected ≠ .accepted)) ?_, hunfiled⟩
      simp [lives, settled, kind]
  exact hsettled.done

omit [Scalar α] in
/-- The orders that wait for an instrument are dropped, and none of them waits any longer. -/
theorem cancel (h : Orders placed f.desk.waitingFor f.log) (instrument : String) (time : Int) :
    Orders placed (f.cancel instrument time).1.desk.waitingFor (f.cancel instrument time).1.log ∧
      ∀ other, (f.cancel instrument time).1.desk.waitingFor other =
        if other = instrument then [] else f.desk.waitingFor other := by
  have hdropped : InHand placed instrument [] (f.cancel instrument time).1 := by
    refine Floor.cancel_induct (Q := fun due g => InHand placed instrument due g) ?_
      (h.takeInHand instrument)
    rintro w rest g ⟨hg, hunfiled⟩
    refine ⟨hg.settleFirst ticket_of_settled (paired_settled w.intent time
      w.intent.referencePrice (by decide : OrderStatus.canceled ≠ .accepted)) ?_, hunfiled⟩
    simp [lives, settled, kind]
  exact ⟨hdropped.done, f.waitingFor_cancel instrument time⟩

omit [Scalar α] in
/-- All orders that wait are dropped, and none waits any longer. -/
theorem cancelAll (h : Orders placed f.desk.waitingFor f.log) (time : Int) :
    Orders placed (fun _ => []) (f.cancelAll time).1.log := by
  have hdropped : Orders placed (f.cancelAll time).1.desk.waitingFor (f.cancelAll time).1.log :=
    Floor.cancelAll_induct (Q := fun _ g => Orders placed g.desk.waitingFor g.log)
      (fun hg => (hg.cancel _ time).1) h
  have hnone : (f.cancelAll time).1.desk.waitingFor = fun _ => [] := by
    funext instrument
    exact f.waitingFor_cancelAll time instrument
  exact hnone ▸ hdropped

end Orders

end MarketTape
