import MarketTape.Proofs.LiveContract

/-!
# What a run keeps true of its book

Lots move in two ways only: an order trades some lots on a bar that closed at a positive price, or a
switch of contracts moves what is held to a contract that is flat.  A property of the book and the
log that survives both of them, and the marks and the records in between, holds throughout a run.

That an order never trades less than one lot is itself such a property, but of the desk: every order
that waits was a proper one when it was put there.

* `Desk.Filed` says so, and `Floor.Kept` joins it to a property of the book and the log.
* `Floor.KeepsTrades` is what is asked of the property on a bar, `Rollover.Due` what is known of a
  switch when it comes up, and `Run.Upkeep` is all that is asked.
* `Run.Upkeep.feed` and `Run.Upkeep.through` are the results.
-/

namespace MarketTape

variable {α : Type}

/-! ## Orders that wait -/

/-- An order that may wait for an instrument: it opens some lots of it. -/
structure Waiting.Proper (w : Waiting α) (instrument : String) : Prop where
  instrument : w.intent.instrument = instrument
  opening : w.intent.offset = .opening
  volume : 0 < w.intent.volume

/-- All orders that wait are proper. -/
def Desk.Filed (d : Desk α) : Prop :=
  ∀ instrument, ∀ w ∈ d.waitingFor instrument, w.Proper instrument

namespace Desk

lemma filed_start : (start : Desk α).Filed := by
  intro instrument w hw
  cases hw

lemma Filed.defer {d : Desk α} (h : d.Filed) {w : Waiting α} (hw : w.Proper w.intent.instrument) :
    (d.defer w).Filed := by
  intro instrument v hv
  rw [waitingFor_defer] at hv
  split at hv
  · rename_i hsame
    rcases List.mem_append.mp hv with hv | hv
    · exact h instrument v hv
    · obtain rfl := List.mem_singleton.mp hv
      exact hsame ▸ hw
  · exact h instrument v hv

lemma Filed.without {f : Floor α} (h : f.desk.Filed) (instrument : String) :
    (f.without instrument).desk.Filed := by
  intro other w hw
  refine h other w ?_
  rw [Floor.waitingFor_without] at hw
  split at hw
  · cases hw
  · exact hw

end Desk

/-! ## What is done on a bar -/

namespace Floor

/-- A floor with proper orders, and with a property of its book and its log. -/
def Kept (Q : Book α → AuditLog α → Prop) (f : Floor α) : Prop :=
  f.desk.Filed ∧ Q f.book f.log

variable [Scalar α]

/-- A property of the book and the log that survives records of orders, and trades of some lots at a
positive price together with their two records. -/
structure KeepsTrades (Q : Book α → AuditLog α → Prop) : Prop where
  order : ∀ {book log}, Q book log → ∀ (intent : Intent α) (time : Int) (price : α)
    (status : OrderStatus), Q book (log.append (.settled intent time price status))
  fill : ∀ {book log}, Q book log → ∀ {intent : Intent α} {bar : Bar α} {volume : Int}
    {book' : Book α} {profit : α}, 0 < volume → Scalar.zero < bar.close →
      book.trade? bar.instrument intent.side volume bar.close = some (book', profit) →
        Q book' ((log.append (.accepted intent bar volume)).append
          (.traded intent bar volume (book'.position bar.instrument)))

namespace KeepsTrades

variable {Q : Book α → AuditLog α → Prop} {f f' : Floor α} {bar : Bar α}

lemma transition (k : KeepsTrades Q) (h : f.Kept Q) (intent : Intent α) (time : Int) (price : α)
    (status : OrderStatus) : (f.transition intent time price status).Kept Q :=
  ⟨h.1, k.order h.2 intent time price status⟩

lemma afterFill (k : KeepsTrades Q) (h : f.Kept Q) {intent : Intent α} {volume : Int}
    {book : Book α} {profit : α} (hvolume : 0 < volume) (hclose : Scalar.zero < bar.close)
    (ht : f.book.trade? bar.instrument intent.side volume bar.close = some (book, profit)) :
    (f.afterFill intent bar volume book).Kept Q :=
  ⟨h.1, k.fill h.2 hvolume hclose ht⟩

lemma submit (k : KeepsTrades Q) (h : f.Kept Q) {intent : Intent α} {fill : Option (Fill α)}
    (hs : f.submit? intent bar = some (f', fill)) : f'.Kept Q := by
  rcases submit?_cases hs with
    ⟨-, rfl, -⟩ | ⟨hd, rfl, -⟩ | ⟨volume, book, profit, hd, ht, rfl, -⟩
  · exact k.transition h intent bar.lastTime bar.close .rejected
  · obtain ⟨hvolume, -, hopening, -⟩ := decide?_wait hd
    exact ⟨h.1.defer ⟨rfl, hopening, hvolume⟩, k.order h.2 intent bar.lastTime bar.close .deferred⟩
  · obtain ⟨hvolume, hclose, -, hcase⟩ := decide?_trade hd
    refine k.afterFill h ?_ hclose ht
    rcases hcase with ⟨-, hheld, -, held, habs, rfl⟩ | ⟨-, -, rfl⟩
    · exact Int.lt_min.mpr ⟨hvolume, Count.pos_of_abs? hheld habs⟩
    · exact hvolume

lemma settle (k : KeepsTrades Q) (h : f.Kept Q) {fills : List (Fill α)}
    (hs : f.settle? bar = some (f', fills)) : f'.Kept Q := by
  have hstart : (∀ w ∈ f.desk.waitingFor bar.instrument, w.Proper bar.instrument) ∧
      (f.without bar.instrument).Kept Q := ⟨h.1 bar.instrument, h.1.without _, h.2⟩
  refine (settleEach?_induct (Q := fun due f =>
    (∀ w ∈ due, w.Proper bar.instrument) ∧ f.Kept Q) ?_ hstart hs).2
  rintro w rest g g' fill ⟨hdue, hg⟩ hone
  obtain ⟨hw, hrest⟩ := List.forall_mem_cons.mp hdue
  rcases settleOne?_cases hone with ⟨⟨-, hclose⟩, book, profit, ht, rfl, -⟩ | ⟨-, rfl, -⟩
  · exact ⟨hrest, k.afterFill hg hw.volume hclose ht⟩
  · exact ⟨hrest, k.transition hg w.intent bar.lastTime bar.close .rejected⟩

/-- A bar upholds the property and the properness of the orders. -/
lemma upholds (k : KeepsTrades Q) (bar : Bar α) : Upholds (Kept Q) bar where
  reject h intent := k.transition h intent bar.lastTime bar.close .rejected
  submit h hs := k.submit h hs
  settle h hs := k.settle h hs

lemma cancel (k : KeepsTrades Q) (h : f.Kept Q) (instrument : String) (time : Int) :
    (f.cancel instrument time).1.Kept Q :=
  cancel_induct (Q := fun _ g => g.Kept Q)
    (fun hg => k.transition hg _ time _ .canceled) ⟨h.1.without instrument, h.2⟩

lemma cancelAll (k : KeepsTrades Q) (h : f.Kept Q) (time : Int) : (f.cancelAll time).1.Kept Q :=
  cancelAll_induct (Q := fun _ g => g.Kept Q) (fun hg => k.cancel hg _ time) h

end KeepsTrades

end Floor

/-! ## Whole runs -/

/-- A switch of contracts that comes up in a run: the contracts were followed up to there, and lots
are held in the active contract of the symbol, which is not that of the tick. -/
structure Rollover.Due (r : Rollover α) (ticks : List (Tick α)) (t : Tick α) (source : String)
    (book : Book α) : Prop where
  follows : Follows ticks r book
  active : r.activeContract? (underlying t.instrument) = some source
  ne : source ≠ t.instrument
  held : book.net source ≠ 0

namespace Rollover.Due

variable {r : Rollover α} {ticks : List (Tick α)} {t : Tick α} {source : String} {book : Book α}

lemma sibling (h : r.Due ticks t source book) : underlying source = underlying t.instrument :=
  (h.follows.tick_of_active h.active).1

lemma flat (h : r.Due ticks t source book) : book.net t.instrument = 0 :=
  h.follows.flat_of_active h.active h.ne

/-- The last tick of the old contract among those before is known. -/
lemma seen (h : r.Due ticks t source book) :
    ∃ last, lastTick? ticks (fun i => i = source) = some last ∧
      (r.see t).lastTicks.get? source = some last :=
  h.follows.seen_of_active h.active h.ne

end Rollover.Due

variable [Scalar α]

namespace Run

variable {sim : Simulation α} {ticks : List (Tick α)} {Q : Book α → AuditLog α → Prop}
  {run run' : Run sim}

/-- All that is asked of a property of the book and the log that a run over the ticks is to keep. -/
structure Upkeep (sim : Simulation α) (ticks : List (Tick α)) (Q : Book α → AuditLog α → Prop) :
    Prop where
  start : Q Book.empty (AuditLog.start sim.logging)
  trade : Floor.KeepsTrades Q
  mark : ∀ {book log}, Q book log → ∀ t ∈ ticks, Q (book.mark t.instrument t.last) log
  move : ∀ {r r' : Rollover α} {before : List (Tick α)} {t : Tick α} {source : String}
    {book book' : Book α} {log log' : AuditLog α} {canceled : Nat} {event : RolloverEvent α},
    sim.rollover = some r.terms → (∀ x ∈ before ++ [t], x ∈ ticks) →
      r.Due before t source book → Q book log →
        (r.see t).execute? ⟨underlying t.instrument, source, t.instrument⟩ t book log canceled =
          some (r', book', log', event) → Q book' log'

/-- Without rollovers no contract is followed. -/
lemma rollover_feed (hroll : sim.rollover = none) (h : (Run.start sim).feed ticks = .ok run)
    (hdet : sim.deterministic = true) : run.rollover = none := by
  refine feed_induct (P := fun _ run => run.rollover = none) ?_ ?_ h
  · simp only [Run.start, hdet, hroll, if_true, Option.map_none]
  · intro ticks run t run' _ hnone ht
    obtain ⟨arrived, ha, hfollow⟩ := onTick?_cases hdet ht
    have harrived : arrived.rollover = none := (rollover_arrive? ha).trans hnone
    rcases followContract?_cases hfollow with ⟨-, rfl⟩ | ⟨r, -, -, hr, -, -⟩
    · exact harrived
    · exact absurd (harrived.symm.trans hr) (by simp)

/-- Where a contract is followed after a tick has arrived, rollovers are on, and the contracts
before it are followed. -/
lemma follows_arrive {arrived : Run sim} {r : Rollover α} {t : Tick α}
    (hdet : sim.deterministic = true) (h : (Run.start sim).feed ticks = .ok run)
    (ha : run.arrive? t = some arrived) (hr : arrived.rollover = some r) :
    sim.rollover = some r.terms ∧ Follows ticks r arrived.floor.book := by
  cases hsim : sim.rollover with
  | none =>
    have hnone : arrived.rollover = none := (rollover_arrive? ha).trans (rollover_feed hsim h hdet)
    exact absurd (hnone.symm.trans hr) (by simp)
  | some terms =>
    obtain ⟨tracked, htracks⟩ := tracks_feed hdet hsim h
    obtain ⟨hrollover, -, hfollows⟩ := htracks.arrive hdet ha
    obtain rfl := Option.some.inj (hrollover.symm.trans hr)
    exact ⟨congrArg some htracks.agreed.symm, hfollows⟩

namespace Upkeep

/-- A tick arrives: what its bar does is kept, and so is its mark. -/
lemma arrive (u : Upkeep sim ticks Q) (hdet : sim.deterministic = true) {t : Tick α}
    (ht : t ∈ ticks) (h : run.floor.Kept Q) {arrived : Run sim}
    (ha : run.arrive? t = some arrived) : arrived.floor.Kept Q := by
  obtain ⟨bars, closed, mid, -, hmid, rfl⟩ := arrive?_cases ha
  have hcounted : ({ run.count t with bars } : Run sim).floor.Kept Q := h
  have hkept : mid.floor.Kept Q :=
    onClosed?_upholds (fun bar _ => u.trade.upholds bar) hdet hcounted hmid
  exact ⟨hkept.1, u.mark hkept.2 t ht⟩

/-- A whole tick keeps the property. -/
lemma tick (u : Upkeep sim ticks Q) (hdet : sim.deterministic = true) {before : List (Tick α)}
    {t : Tick α} (hfeed : (Run.start sim).feed before = .ok run)
    (hmem : ∀ x ∈ before ++ [t], x ∈ ticks) (h : run.floor.Kept Q)
    (ht : run.onTick? t = some run') : run'.floor.Kept Q := by
  obtain ⟨arrived, ha, hfollow⟩ := onTick?_cases hdet ht
  have hkept := u.arrive hdet (hmem t (by simp)) h ha
  rcases followContract?_cases hfollow with ⟨-, rfl⟩ | ⟨r, seen, pending, hr, hd, hcase⟩
  · exact hkept
  · rcases hcase with ⟨rfl, rfl⟩ | ⟨p, rfl, hroll⟩
    · exact hkept
    · -- a switch only comes up where contracts are followed, so all is known of them
      obtain ⟨hagreed, hfollows⟩ := follows_arrive hdet hfeed ha hr
      obtain ⟨source, hactive, hne, hheld, rfl, rfl⟩ := Rollover.switch_of_detect hd
      obtain ⟨r', book, log, event, hx, rfl⟩ := roll?_cases hroll
      have hcanceled := u.trade.cancel hkept source t.time
      rw [Floor.book_cancel] at hx
      have hbook := hcanceled.2
      rw [Floor.book_cancel] at hbook
      exact ⟨hcanceled.1, u.move hagreed hmem ⟨hfollows, hactive, hne, hheld⟩ hbook hx⟩

/-- The property holds after every tick of a run. -/
theorem feed (u : Upkeep sim ticks Q) (hdet : sim.deterministic = true)
    (h : (Run.start sim).feed ticks = .ok run) : run.floor.Kept Q := by
  have hall : ∀ {before run}, (Run.start sim).feed before = .ok run →
      (∀ x ∈ before, x ∈ ticks) → run.floor.Kept Q := by
    refine feed_induct (P := fun before run => (∀ x ∈ before, x ∈ ticks) → run.floor.Kept Q)
      (fun _ => ⟨Desk.filed_start, u.start⟩) ?_
    intro before run t run' hfeed hbefore ht hmem
    exact u.tick hdet hfeed hmem (hbefore fun x hx => hmem x (List.mem_append_left _ hx)) ht
  exact hall h fun _ hx => hx

/-- The property holds at the end of a run. -/
theorem through (u : Upkeep sim ticks Q) (hdet : sim.deterministic = true)
    (h : Run.through sim ticks = .ok run) : run.floor.Kept Q := by
  obtain ⟨fed, hfed, hfinish⟩ := through_cases h
  obtain ⟨mid, hmid, rfl⟩ := finish?_cases hfinish
  have hfedKept : fed.floor.Kept Q := u.feed hdet hfed
  have hflushed : ({ fed with bars := fed.bars.flush.1 } : Run sim).floor.Kept Q := hfedKept
  have hkept : mid.floor.Kept Q :=
    onClosed?_upholds (fun bar _ => u.trade.upholds bar) hdet hflushed hmid
  rw [dropWaiting_eq hdet]
  exact u.trade.cancelAll hkept _

end Upkeep

end Run

end MarketTape
