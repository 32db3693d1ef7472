import MarketTape.Proofs.Rollover
import MarketTape.Proofs.Run

/-!
# The audit log tells the book

Someone who holds nothing but the audit log can keep a book of their own: a trade and both legs of a
strict rollover say all that the book needs, and a carried position is named by the summary of its
rollover.  This file says what keeping such a book means, and shows that at the end of a run it is
the book of the run, position by position and bit by bit.

* `Ledger` is a book kept from the log, together with the carried rollovers that the log has yet to
  come to; `Ledger.take?` takes one record and `Ledger.replay?` a whole log.
* `AuditEvent.Shows` says that a trade was recorded with the position it led to.
* `Rebuilds` is the invariant: the log rebuilds the book.  Every step that writes to the log keeps
  it because `Rebuilds.append` holds for its records one by one.
-/

namespace MarketTape

variable {α : Type} [Scalar α]

/-! ## Keeping a book from the log -/

/-- A book kept from an audit log, and the summaries of the carried rollovers that the log has yet
to come to, in order. -/
structure Ledger (α : Type) where
  book : Book α
  carries : List (RolloverEvent α)

namespace Ledger

/-- Nothing traded, with all carried rollovers still to come. -/
def start (carries : List (RolloverEvent α)) : Ledger α := ⟨Book.empty, carries⟩

def trade? (l : Ledger α) (instrument : String) (side : Side) (volume : Int) (price : α) :
    Option (Ledger α) :=
  (l.book.trade? instrument side volume price).map fun (book, _) => { l with book }

/-- Hands a position over as the next carried rollover says, which has to be the one of the
record. -/
def carry? (l : Ledger α) (time : Int) (symbol instrument : String) : Option (Ledger α) :=
  match l.carries with
  | [] => none
  | e :: rest =>
    if e.time = time ∧ e.symbol = symbol ∧ e.target = instrument then
      some ⟨l.book.handOver e.source e.target, rest⟩
    else none

/-- Takes a record.  An order changes nothing until it trades. -/
def take? (l : Ledger α) : AuditEvent α → Option (Ledger α)
  | .order .. => some l
  | .trade _ instrument side _ volume price _ _ _ _ => l.trade? instrument side volume price
  | .rollover time symbol instrument leg _ side volume price _ _ =>
    match leg with
    | .closing => l.trade? instrument side volume price
    | .opening => l.trade? instrument side volume price
    | .carrying => l.carry? time symbol instrument

/-- Takes the records of a log in order. -/
def replay? (l : Ledger α) (log : List (AuditEvent α)) : Option (Ledger α) := log.foldlM take? l

lemma replay?_append (l : Ledger α) (log more : List (AuditEvent α)) :
    l.replay? (log ++ more) = (l.replay? log).bind (·.replay? more) :=
  List.foldlM_append

/-- A carried rollover that comes later does not matter for a record. -/
lemma take?_more {l l' : Ledger α} {e : AuditEvent α} (h : l.take? e = some l')
    (more : List (RolloverEvent α)) :
    take? ⟨l.book, l.carries ++ more⟩ e = some ⟨l'.book, l'.carries ++ more⟩ := by
  have trade_more : ∀ {instrument side volume price},
      l.trade? instrument side volume price = some l' →
        trade? ⟨l.book, l.carries ++ more⟩ instrument side volume price =
          some ⟨l'.book, l'.carries ++ more⟩ := by
    intro instrument side volume price ht
    simp only [trade?, Option.map_eq_some_iff] at ht ⊢
    obtain ⟨traded, hb, rfl⟩ := ht
    exact ⟨traded, hb, rfl⟩
  cases e with
  | order =>
    simp only [take?, Option.some.injEq] at h ⊢
    rw [h]
  | trade => exact trade_more h
  | rollover time symbol instrument leg mode side volume price cost realized =>
    cases leg with
    | closing => exact trade_more h
    | opening => exact trade_more h
    | carrying =>
      simp only [take?, carry?] at h ⊢
      cases hc : l.carries with
      | nil => simp [hc] at h
      | cons first rest =>
        simp only [hc, List.cons_append] at h ⊢
        split at h
        · rename_i hmatch
          rw [if_pos hmatch, ← Option.some.inj h]
        · cases h

lemma replay?_more (more : List (RolloverEvent α)) : ∀ {log : List (AuditEvent α)}
    {l l' : Ledger α}, l.replay? log = some l' →
      replay? ⟨l.book, l.carries ++ more⟩ log = some ⟨l'.book, l'.carries ++ more⟩
  | [], l, l', h => by
    rw [replay?, List.foldlM_nil, Option.pure_def, Option.some.injEq] at h
    rw [← h]
    rfl
  | e :: rest, l, l', h => by
    simp only [replay?, List.foldlM_cons, Option.bind_eq_bind, Option.bind_eq_some_iff] at h ⊢
    obtain ⟨mid, hmid, hrest⟩ := h
    exact ⟨_, take?_more hmid more, replay?_more more hrest⟩

end Ledger

/-- A trade was recorded with the position it led to. -/
def AuditEvent.Shows (e : AuditEvent α) (book : Book α) : Prop :=
  match e with
  | .trade _ instrument _ _ _ _ net average realized _ =>
    book.get? instrument = some ⟨net, average, realized⟩
  | _ => True

/-! ## The invariant -/

/-- The positions of a book, without the last prices, which no log records. -/
def Book.unmarked (b : Book α) : Book α := ⟨b.positions, Table.empty⟩

/-- Last prices play no part in a trade. -/
lemma Book.trade?_unmarked {b b' : Book α} {instrument : String} {side : Side} {volume : Int}
    {price profit : α} (h : b.trade? instrument side volume price = some (b', profit)) :
    b.unmarked.trade? instrument side volume price = some (b'.unmarked, profit) := by
  obtain ⟨p, hp, rfl⟩ := trade?_cases h
  simp only [trade?, Option.map_eq_some_iff]
  exact ⟨(p, profit), hp, rfl⟩

/-- The log rebuilds the book from the carried rollovers; `left` are those that it has not come to.
Every trade in it shows the position right after it. -/
structure Rebuilds (carries left : List (RolloverEvent α)) (book : Book α) (log : AuditLog α) :
    Prop where
  enabled : log.enabled = true
  replayed : (Ledger.start carries).replay? log.events.toList = some ⟨book.unmarked, left⟩
  truthful : ∀ {before e after}, log.events.toList = before ++ e :: after →
    ∃ l, (Ledger.start carries).replay? (before ++ [e]) = some l ∧ e.Shows l.book

namespace Rebuilds

variable {carries left left' : List (RolloverEvent α)} {book book' : Book α} {log : AuditLog α}

/-- The invariant survives a record if the record says what happened to the book. -/
lemma append (h : Rebuilds carries left book log) {e : AuditEvent α}
    (htake : Ledger.take? ⟨book.unmarked, left⟩ e = some ⟨book'.unmarked, left'⟩)
    (hshows : e.Shows book'.unmarked) : Rebuilds carries left' book' (log.append e) := by
  have hlog : (log.append e).events.toList = log.events.toList ++ [e] := by
    rw [AuditLog.toList_append, if_pos h.enabled]
  have hreplay : (Ledger.start carries).replay? (log.events.toList ++ [e]) =
      some ⟨book'.unmarked, left'⟩ := by
    rw [Ledger.replay?_append, h.replayed]
    simp only [Option.bind_some, Ledger.replay?, List.foldlM_cons, List.foldlM_nil, htake]
    rfl
  refine ⟨by rw [AuditLog.enabled_append, h.enabled], hlog ▸ hreplay, ?_⟩
  -- the record is the new one, or it was there before and something follows it
  intro before e' after hsplit
  rw [hlog] at hsplit
  rcases List.eq_nil_or_concat after with rfl | ⟨rest, last, rfl⟩
  · obtain ⟨rfl, he⟩ := List.append_inj' hsplit rfl
    obtain rfl := List.singleton_inj.mp he
    exact ⟨_, hreplay, hshows⟩
  · rw [List.concat_eq_append, ← List.cons_append, ← List.append_assoc] at hsplit
    exact h.truthful (List.append_inj' hsplit rfl).1

/-- An order says nothing about the book. -/
lemma order (h : Rebuilds carries left book log) (intent : Intent α) (time : Int) (price : α)
    (status : OrderStatus) :
    Rebuilds carries left book (log.append (.settled intent time price status)) :=
  h.append rfl trivial

/-- A trade says all that happened to the book. -/
lemma trade (h : Rebuilds carries left book log) {intent : Intent α} {bar : Bar α} {volume : Int}
    {profit : α}
    (ht : book.trade? bar.instrument intent.side volume bar.close = some (book', profit)) :
    Rebuilds carries left book' ((log.append (.accepted intent bar volume)).append
      (.traded intent bar volume (book'.position bar.instrument))) := by
  have haccepted : Rebuilds carries left book (log.append (.accepted intent bar volume)) :=
    h.append rfl trivial
  refine haccepted.append ?_ ?_
  · simp only [AuditEvent.traded, Ledger.take?, Ledger.trade?, Option.map_eq_some_iff]
    exact ⟨_, Book.trade?_unmarked ht, rfl⟩
  · obtain ⟨p, -, rfl⟩ := Book.trade?_cases ht
    simp only [AuditEvent.Shows, AuditEvent.traded, Book.position_put, if_true]
    change (book.put bar.instrument p).get? bar.instrument = some p
    rw [Book.get?_put, if_pos rfl]

/-- What the desk does, it records. -/
lemma keeps (carries left : List (RolloverEvent α)) (instrument : String) (time : Int) :
    Floor.Keeps (Rebuilds carries left) instrument time where
  order h intent price status := h.order intent time price status
  fill h := by
    rintro intent bar volume book' profit rfl rfl ht
    exact h.trade ht

/-- A new price is no change of a position. -/
lemma mark (h : Rebuilds carries left book log) (instrument : String) (price : α) :
    Rebuilds carries left (book.mark instrument price) log :=
  ⟨h.enabled, h.replayed, h.truthful⟩

/-- A further carried rollover is one that the log has yet to come to. -/
lemma expect (h : Rebuilds carries left book log) (more : List (RolloverEvent α)) :
    Rebuilds (carries ++ more) (left ++ more) book log where
  enabled := h.enabled
  replayed := Ledger.replay?_more more h.replayed
  truthful := by
    intro before e after hsplit
    obtain ⟨l, hl, hshows⟩ := h.truthful hsplit
    exact ⟨_, Ledger.replay?_more more hl, hshows⟩

/-- A leg that trades says what it did to the book. -/
lemma tradingLeg (h : Rebuilds carries left book log) {a : RolloverAction α} {mode : RolloverMode}
    {profit : α} (hleg : a.leg = .closing ∨ a.leg = .opening)
    (ht : book.trade? a.instrument a.side a.volume a.price = some (book', profit)) :
    Rebuilds carries left book' (log.append (a.audit mode)) := by
  refine h.append ?_ trivial
  have htrade : Ledger.trade? ⟨book.unmarked, left⟩ a.instrument a.side a.volume a.price =
      some ⟨book'.unmarked, left⟩ := by
    simp only [Ledger.trade?, Option.map_eq_some_iff]
    exact ⟨_, Book.trade?_unmarked ht, rfl⟩
  rcases hleg with hleg | hleg <;>
    simpa only [RolloverAction.audit, Ledger.take?, hleg] using htrade

/-- A leg that hands a position over is told by the summary that comes next. -/
lemma handingLeg {e : RolloverEvent α} (h : Rebuilds carries (e :: left) book log)
    {a : RolloverAction α} {mode : RolloverMode} (hleg : a.leg = .carrying)
    (hmatch : e.time = a.time ∧ e.symbol = a.symbol ∧ e.target = a.instrument) :
    Rebuilds carries left (book.handOver e.source e.target) (log.append (a.audit mode)) := by
  refine h.append ?_ trivial
  simp only [RolloverAction.audit, Ledger.take?, hleg, Ledger.carry?, if_pos hmatch]
  rfl

end Rebuilds

/-! ## Rollovers -/

omit [Scalar α] in
/-- The rollovers that handed a position over. -/
def Rollover.carried (r : Rollover α) : List (RolloverEvent α) :=
  r.events.toList.filter (·.applied == .carry)

lemma Rollover.carried_afterMove (r : Rollover α) (p : PendingRollover) (m : Move α)
    (event : RolloverEvent α) :
    (r.afterMove p m event).carried =
      if event.applied = .carry then r.carried ++ [event] else r.carried := by
  by_cases hmode : event.applied = .carry <;> simp [carried, afterMove, hmode]

/-- A rollover records what it does to the book, and a carried one is named by its summary. -/
lemma Rebuilds.execute {r r' : Rollover α} {p : PendingRollover} {t : Tick α}
    {book book' : Book α} {log log' : AuditLog α} {canceled : Nat} {event : RolloverEvent α}
    (h : Rebuilds r.carried [] book log)
    (hx : r.execute? p t book log canceled = some (r', book', log', event)) :
    Rebuilds r'.carried [] book' log' := by
  obtain ⟨m, hmove, rfl, rfl, rfl, rfl⟩ := Rollover.execute?_cases hx
  obtain ⟨volume, -, hstrict | hcarry⟩ := Rollover.move?_cases hmove
  · obtain ⟨hmode, mid, closed, opened, hclose, hopen, hactions, -⟩ := hstrict
    have happlied : (r.summary p t book m canceled).applied ≠ .carry := by
      simp [Rollover.summary, hmode]
    rw [Rollover.carried_afterMove, if_neg happlied, hactions]
    have hmid : Rebuilds r.carried [] mid (log.append
        ((r.closingLeg p t book volume closed).audit (r.modeFor book p.target))) :=
      h.tradingLeg (Or.inl rfl) hclose
    exact hmid.tradingLeg (Or.inr rfl) hopen
  · obtain ⟨hmode, hbook, hactions, -⟩ := hcarry
    have happlied : (r.summary p t book m canceled).applied = .carry := hmode
    rw [Rollover.carried_afterMove, if_pos happlied, hactions, hbook]
    -- the summary is known before its leg is recorded, so it is expected first
    have hexpected := h.expect [r.summary p t book m canceled]
    exact hexpected.handingLeg rfl ⟨rfl, rfl, rfl⟩

/-! ## Runs -/

namespace Run

variable {sim : Simulation α} {run run' : Run sim}

/-- The rollovers of a run that handed a position over. -/
def carried (run : Run sim) : List (RolloverEvent α) :=
  match run.rollover with
  | none => []
  | some r => r.carried

/-- The log of a run rebuilds its book. -/
def LogRebuilds (run : Run sim) : Prop := Rebuilds run.carried [] run.floor.book run.floor.log

omit [Scalar α] in
lemma carried_congr (h : run'.rollover = run.rollover) : run'.carried = run.carried := by
  simp only [carried, h]

lemma LogRebuilds.closed {closed : Option (Bar α)} (hdet : sim.deterministic = true)
    (h : run.LogRebuilds) (hc : run.onClosed? closed = some run') : run'.LogRebuilds := by
  obtain ⟨hafter, hroll, -⟩ :=
    onClosed?_keeps (fun bar _ => Rebuilds.keeps _ _ bar.instrument bar.lastTime) hdet h hc
  rw [LogRebuilds]
  rw [carried_congr hroll]
  exact hafter

lemma LogRebuilds.follow {t : Tick α} (h : run.LogRebuilds)
    (hf : run.followContract? t = some run') : run'.LogRebuilds := by
  rcases followContract?_cases hf with ⟨-, rfl⟩ | ⟨r, seen, pending, hr, hdetect, hcase⟩
  · exact h
  · have hevents : seen.carried = r.carried := by
      simp only [Rollover.carried, (Rollover.detect_frame hdetect).2.1]
    have hrun : Rebuilds seen.carried [] run.floor.book run.floor.log := by
      have hcarried : run.carried = r.carried := by simp only [carried, hr]
      rw [hevents, ← hcarried]
      exact h
    rcases hcase with ⟨-, rfl⟩ | ⟨p, -, hroll⟩
    · exact hrun
    · obtain ⟨r', book, log, event, hexec, rfl⟩ := roll?_cases hroll
      have hcancel := (Rebuilds.keeps seen.carried [] p.source t.time).cancel hrun p.source
      exact hcancel.execute hexec

lemma LogRebuilds.tick {t : Tick α} (hdet : sim.deterministic = true) (h : run.LogRebuilds)
    (ht : run.onTick? t = some run') : run'.LogRebuilds := by
  obtain ⟨arrived, harrive, hfollow⟩ := onTick?_cases hdet ht
  obtain ⟨bars, closed, mid, -, hmid, rfl⟩ := arrive?_cases harrive
  have hcounted : ({ run.count t with bars } : Run sim).LogRebuilds := h
  have hclosed : mid.LogRebuilds := hcounted.closed hdet hmid
  have harrived : (mid.mark t).LogRebuilds := Rebuilds.mark hclosed t.instrument t.last
  exact harrived.follow hfollow

lemma LogRebuilds.finish (hdet : sim.deterministic = true) (h : run.LogRebuilds)
    (hf : run.finish? = some run') : run'.LogRebuilds := by
  obtain ⟨mid, hmid, rfl⟩ := finish?_cases hf
  have hflushed : ({ run with bars := run.bars.flush.1 } : Run sim).LogRebuilds := h
  have hclosed : mid.LogRebuilds := hflushed.closed hdet hmid
  have hdropped := (Rebuilds.keeps mid.carried [] "" mid.lastTime).cancelAll hclosed
  rw [LogRebuilds, dropWaiting_eq hdet]
  exact hdropped

lemma logRebuilds_start (hdet : sim.deterministic = true) (hlog : sim.logging = true) :
    (Run.start sim).LogRebuilds := by
  have hcarried : (Run.start sim).carried = [] := by
    simp only [carried, start, hdet, if_true]
    cases sim.rollover <;> rfl
  rw [LogRebuilds]
  rw [hcarried]
  refine ⟨hlog, rfl, ?_⟩
  intro before e after hsplit
  simp [start, Floor.start, AuditLog.start] at hsplit

end Run

/-- At the end of a run with a log, a book kept from the log alone has exactly the positions of the
run's own book, every carried rollover has been come to, and every trade was recorded with the
position that the kept book has right after it. -/
theorem log_rebuilds_book {sim : Simulation α} (hdet : sim.deterministic = true)
    (hlog : sim.logging = true) {ticks : List (Tick α)} {run : Run sim}
    (h : Run.through sim ticks = .ok run) :
    (∃ book, (Ledger.start run.carried).replay? run.floor.log.events.toList = some ⟨book, []⟩ ∧
        book.positions = run.floor.book.positions) ∧
      ∀ before e after, run.floor.log.events.toList = before ++ e :: after →
        ∃ l, (Ledger.start run.carried).replay? (before ++ [e]) = some l ∧ e.Shows l.book := by
  obtain ⟨fed, hfed, hfinish⟩ := Run.through_cases h
  have hticks : fed.LogRebuilds :=
    Run.feed_induct (P := fun _ run => run.LogRebuilds) (Run.logRebuilds_start hdet hlog)
      (fun _ hbefore ht => hbefore.tick hdet ht) hfed
  have hend := hticks.finish hdet hfinish
  exact ⟨⟨_, hend.replayed, rfl⟩, fun _ _ _ hsplit => hend.truthful hsplit⟩

/-- The short run records three trades and then carries its position over, or closes it and opens it
again, which are two legs; either way its log tells its book. -/
theorem log_rebuilds_shortRun :
    ((shortRun .carry).carried.length = 1 ∧ (shortRun .carry).floor.log.size = 13) ∧
      ((shortRun .strict).carried = [] ∧ (shortRun .strict).floor.log.size = 14) ∧
      ∀ mode, (∃ book, (Ledger.start (shortRun mode).carried).replay?
            (shortRun mode).floor.log.events.toList = some ⟨book, []⟩ ∧
          book.positions = (shortRun mode).floor.book.positions) ∧
        ∀ before e after, (shortRun mode).floor.log.events.toList = before ++ e :: after →
          ∃ l, (Ledger.start (shortRun mode).carried).replay? (before ++ [e]) = some l ∧
            e.Shows l.book := by
  refine ⟨by decide +kernel, by decide +kernel, ?_⟩
  intro mode
  cases mode with
  | strict => exact log_rebuilds_book rfl rfl (through_shortSimulation .strict)
  | carry => exact log_rebuilds_book rfl rfl (through_shortSimulation .carry)

end MarketTape
