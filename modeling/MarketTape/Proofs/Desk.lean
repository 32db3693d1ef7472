import Mathlib.Tactic.Common
import MarketTape.Desk
import MarketTape.Proofs.Table

/-!
# What the desk can do

Every operation of the desk is one of four things done to one order, or several of them in a row: an
order is refused, waits, trades, or is dropped.  This file says so once, so that no later proof has
to open the operations again.

* `Floor.afterFill` is the floor after a trade, and `Floor.fill?_cases`, `Floor.submit?_cases` and
  `Floor.settleOne?_cases` say what an operation that succeeded has done.
* `Floor.settleEach?_induct` and `Floor.cancel_induct` carry a property through a row of waiting
  orders; the property may speak about the orders that are still to come.
* `Floor.Upholds` is for properties of the floor that survive what is done on a bar.
* `Floor.Keeps` is for properties of the book and the log alone: those that survive a record of an
  order and a trade of one instrument survive everything the desk does.
-/

namespace MarketTape

variable {α : Type}

/-! ## Records -/

namespace AuditEvent

/-- The record of an order that reached a status without a trade. -/
def settled (intent : Intent α) (time : Int) (price : α) (status : OrderStatus) : AuditEvent α :=
  .order time intent.instrument intent.side intent.offset intent.volume price status intent.traceId

/-- The record of an order that is about to trade on a bar. -/
def accepted (intent : Intent α) (bar : Bar α) (volume : Int) : AuditEvent α :=
  .order bar.lastTime bar.instrument intent.side intent.offset volume bar.close .accepted
    intent.traceId

/-- The record of an order that traded on a bar, with the position it led to. -/
def traded (intent : Intent α) (bar : Bar α) (volume : Int) (p : Position α) : AuditEvent α :=
  .trade bar.lastTime bar.instrument intent.side intent.offset volume bar.close p.net p.average
    p.realized intent.traceId

end AuditEvent

/-- A log with further events. -/
def AuditLog.extend (log : AuditLog α) (more : List (AuditEvent α)) : AuditLog α :=
  more.foldl AuditLog.append log

lemma AuditLog.enabled_extend (log : AuditLog α) (more : List (AuditEvent α)) :
    (log.extend more).enabled = log.enabled := by
  induction more generalizing log with
  | nil => rfl
  | cons e rest ih => exact (ih (log.append e)).trans (log.enabled_append e)

lemma AuditLog.toList_extend {log : AuditLog α} (h : log.enabled = true)
    (more : List (AuditEvent α)) :
    (log.extend more).events.toList = log.events.toList ++ more := by
  induction more generalizing log with
  | nil => rw [List.append_nil]; rfl
  | cons e rest ih =>
    have henabled : (log.append e).enabled = true := (log.enabled_append e).trans h
    have hrest : (log.extend (e :: rest)).events.toList = (log.append e).events.toList ++ rest :=
      ih henabled
    rw [hrest, toList_append, if_pos h, List.append_assoc, List.singleton_append]

lemma AuditLog.append_disabled {log : AuditLog α} (h : log.enabled = false) (e : AuditEvent α) :
    log.append e = log := by
  simp [append, h]

lemma AuditLog.extend_disabled {log : AuditLog α} (h : log.enabled = false)
    (more : List (AuditEvent α)) : log.extend more = log := by
  induction more with
  | nil => rfl
  | cons e rest ih =>
    rw [extend, List.foldl_cons, append_disabled h]
    exact ih

/-- Whether it is kept or not. -/
lemma AuditLog.toList_extend_ite (log : AuditLog α) (more : List (AuditEvent α)) :
    (log.extend more).events.toList =
      log.events.toList ++ if log.enabled then more else [] := by
  cases hlog : log.enabled with
  | true => exact toList_extend hlog more
  | false =>
    rw [extend_disabled hlog, if_neg Bool.false_ne_true, List.append_nil]

namespace Floor

/-! ## Single operations -/

variable [Scalar α]

/-- The floor after a trade on a bar that led to the given book. -/
def afterFill (f : Floor α) (intent : Intent α) (bar : Bar α) (volume : Int) (book : Book α) :
    Floor α :=
  { desk := { f.desk with statuses := (f.desk.statuses.increment .accepted).increment .filled }
    book
    log := (f.log.append (.accepted intent bar volume)).append
      (.traded intent bar volume (book.position bar.instrument)) }

/-- A fill trades in the instrument of the bar, at its close. -/
lemma fill?_cases {f f' : Floor α} {intent : Intent α} {bar : Bar α} {volume : Int}
    {fill : Fill α} (h : f.fill? intent bar volume = some (f', fill)) :
    ∃ book profit, f.book.trade? bar.instrument intent.side volume bar.close = some (book, profit) ∧
      f' = f.afterFill intent bar volume book ∧ fill = fillAtClose intent bar volume := by
  simp only [fill?, Option.map_eq_some_iff, Prod.exists, Prod.mk.injEq] at h
  obtain ⟨book, profit, htrade, hf', hfill⟩ := h
  exact ⟨book, profit, htrade, hf'.symm, hfill.symm⟩

/-- An intent that is told to wait is an opening one for the instrument of its bar, against lots
that are held there. -/
lemma decide?_wait {intent : Intent α} {bar : Bar α} {net : Int}
    (h : decide? intent bar net = some .wait) :
    0 < intent.volume ∧ intent.instrument = bar.instrument ∧ intent.offset = .opening ∧
      net ≠ 0 ∧ net.sign ≠ intent.side.sign := by
  rw [decide?] at h
  split at h
  · cases h
  · rename_i hok
    simp only [not_or, Int.not_le, not_not] at hok
    obtain ⟨hvolume, -, hinstrument⟩ := hok
    split at h
    · split at h
      · simp [Option.map_eq_some_iff] at h
      · cases h
    · rename_i hoffset
      split at h
      · rename_i hnet
        exact ⟨hvolume, hinstrument, hoffset, hnet.1, hnet.2⟩
      · cases h

/-- An intent that trades is for the instrument of its bar.  Closing trades at most what is held on
the other side; opening trades all of it, and there is nothing on the other side. -/
lemma decide?_trade {intent : Intent α} {bar : Bar α} {net volume : Int}
    (h : decide? intent bar net = some (.trade volume)) :
    0 < intent.volume ∧ Scalar.zero < bar.close ∧ intent.instrument = bar.instrument ∧
      ((intent.offset = .closing ∧ net ≠ 0 ∧ net.sign = -intent.side.sign ∧
          ∃ held, Count.abs? net = some held ∧ volume = min intent.volume held) ∨
        (intent.offset = .opening ∧ (net = 0 ∨ net.sign = intent.side.sign) ∧
          volume = intent.volume)) := by
  rw [decide?] at h
  split at h
  · cases h
  · rename_i hok
    simp only [not_or, Int.not_le, not_not] at hok
    obtain ⟨hvolume, hclose, hinstrument⟩ := hok
    refine ⟨hvolume, hclose, hinstrument, ?_⟩
    split at h
    · rename_i hoffset
      split at h
      · rename_i hnet
        simp only [Option.map_eq_some_iff, Decision.trade.injEq] at h
        obtain ⟨held, hheld, hvol⟩ := h
        exact Or.inl ⟨hoffset, hnet.1, hnet.2, held, hheld, hvol.symm⟩
      · cases h
    · rename_i hoffset
      split at h
      · cases h
      · rename_i hnet
        simp only [Option.some.injEq, Decision.trade.injEq] at h
        rw [not_and_or, not_not, not_not] at hnet
        exact Or.inr ⟨hoffset, hnet, h.symm⟩

/-- An intent is refused, waits, or trades. -/
lemma submit?_cases {f f' : Floor α} {intent : Intent α} {bar : Bar α} {fill : Option (Fill α)}
    (h : f.submit? intent bar = some (f', fill)) :
    (decide? intent bar (f.book.net intent.instrument) = some .reject ∧
        f' = f.reject intent bar ∧ fill = none) ∨
      (decide? intent bar (f.book.net intent.instrument) = some .wait ∧
        f' = f.defer intent bar ∧ fill = none) ∨
      ∃ volume book profit,
        decide? intent bar (f.book.net intent.instrument) = some (.trade volume) ∧
          f.book.trade? bar.instrument intent.side volume bar.close = some (book, profit) ∧
          f' = f.afterFill intent bar volume book ∧
          fill = some (fillAtClose intent bar volume) := by
  rw [submit?] at h
  split at h
  · cases h
  · rename_i hd
    simp only [Option.some.injEq, Prod.mk.injEq] at h
    exact Or.inl ⟨hd, h.1.symm, h.2.symm⟩
  · rename_i hd
    simp only [Option.some.injEq, Prod.mk.injEq] at h
    exact Or.inr (Or.inl ⟨hd, h.1.symm, h.2.symm⟩)
  · rename_i volume hd
    simp only [Option.map_eq_some_iff, Prod.exists, Prod.mk.injEq] at h
    obtain ⟨g, fill', hfill, rfl, rfl⟩ := h
    obtain ⟨book, profit, htrade, hg, hfill'⟩ := fill?_cases hfill
    exact Or.inr (Or.inr ⟨volume, book, profit, hd, htrade, hg, congrArg some hfill'⟩)

/-- A waiting order trades in full if the instrument is flat, and is refused otherwise. -/
lemma settleOne?_cases {f f' : Floor α} {intent : Intent α} {bar : Bar α}
    {fill : Option (Fill α)} (h : f.settleOne? intent bar = some (f', fill)) :
    ((f.book.net intent.instrument = 0 ∧ Scalar.zero < bar.close) ∧
        ∃ book profit,
          f.book.trade? bar.instrument intent.side intent.volume bar.close = some (book, profit) ∧
            f' = f.afterFill intent bar intent.volume book ∧
            fill = some (fillAtClose intent bar intent.volume)) ∨
      (¬ (f.book.net intent.instrument = 0 ∧ Scalar.zero < bar.close) ∧
        f' = f.reject intent bar ∧ fill = none) := by
  rw [settleOne?] at h
  split at h
  · rename_i hflat
    simp only [Option.map_eq_some_iff, Prod.exists, Prod.mk.injEq] at h
    obtain ⟨g, fill', hfill, rfl, rfl⟩ := h
    obtain ⟨book, profit, htrade, hg, hfill'⟩ := fill?_cases hfill
    exact Or.inl ⟨hflat, book, profit, htrade, hg, congrArg some hfill'⟩
  · rename_i hflat
    simp only [Option.some.injEq, Prod.mk.injEq] at h
    exact Or.inr ⟨hflat, h.1.symm, h.2.symm⟩

/-! ## Rows of waiting orders -/

/-- To settle a row of waiting orders is to settle the first one, and then the rest. -/
lemma settleEach?_cons {bar : Bar α} {w : Waiting α} {rest : List (Waiting α)} {f f' : Floor α}
    {fills : List (Fill α)} (h : f.settleEach? bar (w :: rest) = some (f', fills)) :
    ∃ g fill more, f.settleOne? w.intent bar = some (g, fill) ∧
      g.settleEach? bar rest = some (f', more) ∧ fills = fill.toList ++ more := by
  simp only [settleEach?] at h
  split at h
  · cases h
  · rename_i g fill hone
    simp only [Option.map_eq_some_iff, Prod.exists, Prod.mk.injEq] at h
    obtain ⟨last, more, hrest, rfl, rfl⟩ := h
    exact ⟨g, fill, more, hone, hrest, rfl⟩

/-- Carries a property through the settling of a row of waiting orders. -/
theorem settleEach?_induct {bar : Bar α} {Q : List (Waiting α) → Floor α → Prop}
    (step : ∀ {w rest f f' fill}, Q (w :: rest) f → f.settleOne? w.intent bar = some (f', fill) →
      Q rest f') :
    ∀ {due : List (Waiting α)} {f f' : Floor α} {fills : List (Fill α)}, Q due f →
      f.settleEach? bar due = some (f', fills) → Q [] f'
  | [], f, f', fills, hQ, h => by
    simp only [settleEach?, Option.some.injEq, Prod.mk.injEq] at h
    exact h.1 ▸ hQ
  | w :: rest, f, f', fills, hQ, h => by
    obtain ⟨g, fill, more, hone, heach, -⟩ := settleEach?_cons h
    exact settleEach?_induct step (step hQ hone) heach

/-- A floor whose waiting orders of an instrument were taken out. -/
def without (f : Floor α) (instrument : String) : Floor α :=
  { f with desk := { f.desk with waiting := f.desk.waiting.erase instrument } }

omit [Scalar α] in
/-- The orders of the instrument do not wait any longer, all others do. -/
lemma waitingFor_without (f : Floor α) (instrument other : String) :
    (f.without instrument).desk.waitingFor other =
      if other = instrument then [] else f.desk.waitingFor other := by
  simp only [without, Desk.waitingFor, Table.get?_erase]
  split <;> rfl

omit [Scalar α] in
/-- Carries a property through the dropping of the orders that wait for an instrument. -/
theorem cancel_induct {time : Int} {Q : List (Waiting α) → Floor α → Prop}
    (step : ∀ {w rest f}, Q (w :: rest) f →
      Q rest (f.transition w.intent time w.intent.referencePrice .canceled))
    {f : Floor α} {instrument : String}
    (h : Q (f.desk.waitingFor instrument) (f.without instrument)) :
    Q [] (f.cancel instrument time).1 := by
  have go : ∀ (due : List (Waiting α)) (g : Floor α), Q due g →
      Q [] (due.foldl
        (fun g w => g.transition w.intent time w.intent.referencePrice .canceled) g) := by
    intro due
    induction due with
    | nil => exact fun g hg => hg
    | cons w rest ih => exact fun g hg => ih _ (step hg)
  exact go _ _ h

omit [Scalar α] in
@[simp] lemma book_cancel (f : Floor α) (instrument : String) (time : Int) :
    (f.cancel instrument time).1.book = f.book :=
  cancel_induct (Q := fun _ g => g.book = f.book) (fun hg => hg) rfl

omit [Scalar α] in
/-- The orders that are dropped are those that were taken out. -/
lemma waiting_cancel (f : Floor α) (instrument : String) (time : Int) :
    (f.cancel instrument time).1.desk.waiting = (f.without instrument).desk.waiting :=
  cancel_induct (Q := fun _ g => g.desk.waiting = (f.without instrument).desk.waiting)
    (fun hg => hg) rfl

omit [Scalar α] in
lemma waitingFor_cancel (f : Floor α) (instrument : String) (time : Int) (other : String) :
    (f.cancel instrument time).1.desk.waitingFor other =
      if other = instrument then [] else f.desk.waitingFor other := by
  rw [← waitingFor_without, Desk.waitingFor, waiting_cancel, Desk.waitingFor]

omit [Scalar α] in
/-- Carries a property through the dropping of all waiting orders; it may speak about the
instruments that are still to come, and about how many orders were dropped so far. -/
theorem cancelAll_tally {time : Int} {Q : List String → Floor α → Nat → Prop}
    (step : ∀ {instrument rest f n}, Q (instrument :: rest) f n →
      Q rest (f.cancel instrument time).1 (n + (f.cancel instrument time).2))
    {f : Floor α} (h : Q f.desk.waiting.names f 0) :
    Q [] (f.cancelAll time).1 (f.cancelAll time).2 := by
  have go : ∀ (names : List String) (g : Floor α × Nat), Q names g.1 g.2 →
      Q [] (names.foldl (fun g instrument =>
        ((g.1.cancel instrument time).1, g.2 + (g.1.cancel instrument time).2)) g).1
        (names.foldl (fun g instrument =>
        ((g.1.cancel instrument time).1, g.2 + (g.1.cancel instrument time).2)) g).2 := by
    intro names
    induction names with
    | nil => exact fun g hg => hg
    | cons name rest ih => exact fun g hg => ih _ (step hg)
  exact go _ (f, 0) h

omit [Scalar α] in
/-- The same for a property of the floor alone. -/
theorem cancelAll_induct {time : Int} {Q : List String → Floor α → Prop}
    (step : ∀ {instrument rest f}, Q (instrument :: rest) f →
      Q rest (f.cancel instrument time).1)
    {f : Floor α} (h : Q f.desk.waiting.names f) : Q [] (f.cancelAll time).1 :=
  cancelAll_tally (Q := fun names f _ => Q names f) step h

omit [Scalar α] in
@[simp] lemma book_cancelAll (f : Floor α) (time : Int) : (f.cancelAll time).1.book = f.book :=
  cancelAll_induct (Q := fun _ g => g.book = f.book)
    (fun hg => (book_cancel _ _ time).trans hg) rfl

omit [Scalar α] in
/-- Once all waiting orders were dropped, none waits. -/
lemma waitingFor_cancelAll (f : Floor α) (time : Int) (instrument : String) :
    (f.cancelAll time).1.desk.waitingFor instrument = [] := by
  have hall : ∀ other, other ∉ ([] : List String) →
      (f.cancelAll time).1.desk.waitingFor other = [] := by
    refine cancelAll_induct (Q := fun names g =>
      ∀ other, other ∉ names → g.desk.waitingFor other = []) ?_ ?_
    · intro name rest g hg other hother
      rw [waitingFor_cancel]
      split
      · rfl
      · rename_i hne
        exact hg other fun hmem => (List.mem_cons.mp hmem).elim hne hother
    · intro other hother
      rw [Desk.waitingFor]
      cases hget : f.desk.waiting.get? other with
      | none => rfl
      | some due => exact absurd (Table.mem_names hget) hother
  exact hall instrument List.not_mem_nil

/-! ## What is done on a bar -/

/-- A property of the floor that survives everything that is done on a bar: an intent is refused or
settled, or the orders that waited for the bar are. -/
structure Upholds (Q : Floor α → Prop) (bar : Bar α) : Prop where
  reject : ∀ {f}, Q f → ∀ intent, Q (f.reject intent bar)
  submit : ∀ {f f' intent fill}, Q f → f.submit? intent bar = some (f', fill) → Q f'
  settle : ∀ {f f' fills}, Q f → f.settle? bar = some (f', fills) → Q f'

/-! ## Properties of the book and the log -/

/-- A property of the book and the log that survives records of orders at a time, and trades of an
instrument at that time together with their two records. -/
structure Keeps (Q : Book α → AuditLog α → Prop) (instrument : String) (time : Int) : Prop where
  order : ∀ {book log}, Q book log → ∀ (intent : Intent α) (price : α) (status : OrderStatus),
    Q book (log.append (.settled intent time price status))
  fill : ∀ {book log}, Q book log → ∀ {intent : Intent α} {bar : Bar α} {volume : Int}
    {book' : Book α} {profit : α}, bar.instrument = instrument → bar.lastTime = time →
      book.trade? instrument intent.side volume bar.close = some (book', profit) →
        Q book' ((log.append (.accepted intent bar volume)).append
          (.traded intent bar volume (book'.position instrument)))

namespace Keeps

variable {Q : Book α → AuditLog α → Prop} {bar : Bar α} {f f' : Floor α}

lemma reject (k : Keeps Q bar.instrument bar.lastTime) (h : Q f.book f.log)
    (intent : Intent α) : Q (f.reject intent bar).book (f.reject intent bar).log :=
  k.order h intent bar.close .rejected

lemma submit (k : Keeps Q bar.instrument bar.lastTime) (h : Q f.book f.log)
    {intent : Intent α} {fill : Option (Fill α)}
    (hs : f.submit? intent bar = some (f', fill)) : Q f'.book f'.log := by
  rcases submit?_cases hs with ⟨-, rfl, -⟩ | ⟨-, rfl, -⟩ | ⟨volume, book, profit, -, ht, rfl, -⟩
  · exact k.reject h intent
  · exact k.order h intent bar.close .deferred
  · exact k.fill h rfl rfl ht

lemma settle (k : Keeps Q bar.instrument bar.lastTime) (h : Q f.book f.log)
    {fills : List (Fill α)} (hs : f.settle? bar = some (f', fills)) : Q f'.book f'.log := by
  refine settleEach?_induct (Q := fun _ f => Q f.book f.log) ?_ (f := f.without bar.instrument)
    h hs
  intro w rest g g' fill hg hone
  rcases settleOne?_cases hone with ⟨-, book, profit, ht, rfl, -⟩ | ⟨-, rfl, -⟩
  · exact k.fill hg rfl rfl ht
  · exact k.reject hg w.intent

/-- What survives the single steps survives all that is done on a bar. -/
lemma upholds (k : Keeps Q bar.instrument bar.lastTime) :
    Upholds (fun f => Q f.book f.log) bar where
  reject h intent := k.reject h intent
  submit h hs := k.submit h hs
  settle h hs := k.settle h hs

lemma cancel {instrument : String} {time : Int} (k : Keeps Q instrument time)
    (h : Q f.book f.log) (name : String) :
    Q (f.cancel name time).1.book (f.cancel name time).1.log := by
  have hwithout : Q (f.without name).book (f.without name).log := h
  refine cancel_induct (Q := fun _ f => Q f.book f.log) ?_ hwithout
  intro w rest g hg
  exact k.order hg w.intent w.intent.referencePrice .canceled

lemma cancelAll {instrument : String} {time : Int} (k : Keeps Q instrument time)
    (h : Q f.book f.log) : Q (f.cancelAll time).1.book (f.cancelAll time).1.log :=
  cancelAll_induct (Q := fun _ f => Q f.book f.log) (fun hg => k.cancel hg _) h

end Keeps

end Floor

end MarketTape
