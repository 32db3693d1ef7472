import MarketTape.Proofs.Reversal

/-!
# What waits is settled on the next bar

An order for opening that would meet lots of the other side is put into the row of its instrument,
and the next bar of the instrument takes the whole row out again.  Whatever becomes of the orders,
none of them is put back: the first one trades if the instrument is flat by then, and all others are
refused.  What the strategy answers to the bar comes only afterwards, and may fill the row again.

So at any moment of a run the row of an instrument is what the last bar of the instrument put there,
or it was dropped since then by a rollover.

* `Floor.Settles` says what becomes of a row: which orders trade, and which are refused.
* `Floor.settles_of_settle?` is what the desk does, and `Floor.exists_settle?` that it can be done.
* `Run.deferrals` are the orders that a bar makes wait, in the order of the answers to it.
  `Run.onBar?_waitingFor` says that these are the row after the bar.
* `Run.WaitsSince` says that a row goes back to the last bar of its instrument, `Run.Recent` that
  every row does that is not empty; `Run.recent_feed` is the induction over the ticks.
* `deferred_settle_at_next_bar` is the result.
-/

namespace MarketTape

variable {α : Type}

/-! ## Rows at the desk -/

namespace Floor

section Refusals

variable (f : Floor α) (bar : Bar α) (due : List (Waiting α))

@[simp] lemma waiting_rejectAll : (f.rejectAll bar due).desk.waiting = f.desk.waiting := by
  induction due generalizing f with
  | nil => rfl
  | cons w rest ih => exact ih (f.reject w.intent bar)

/-- Every order that is refused is counted. -/
lemma statuses_rejectAll :
    (f.rejectAll bar due).desk.statuses = f.desk.statuses.plus ⟨0, 0, 0, due.length, 0⟩ := by
  induction due generalizing f with
  | nil => rfl
  | cons w rest ih =>
    have hone : (f.reject w.intent bar).desk.statuses = f.desk.statuses.plus ⟨0, 0, 0, 1, 0⟩ :=
      StatusCounts.increment_eq_plus _ .rejected
    have hall : (f.rejectAll bar (w :: rest)).desk.statuses =
        (f.reject w.intent bar).desk.statuses.plus ⟨0, 0, 0, rest.length, 0⟩ :=
      ih (f.reject w.intent bar)
    rw [hall, hone, StatusCounts.plus_assoc, List.length_cons, Nat.add_comm]
    rfl

/-- Every order that is refused is logged. -/
lemma log_rejectAll :
    (f.rejectAll bar due).log =
      f.log.extend (due.map fun w => .settled w.intent bar.lastTime bar.close .rejected) := by
  induction due generalizing f with
  | nil => rfl
  | cons w rest ih => exact ih (f.reject w.intent bar)

end Refusals

variable [Scalar α]

/-- What becomes of the orders that wait for an instrument when a bar of it is closed.  They are
taken out and settled: the first one trades, in full and at the close, if the instrument is flat and
the bar has closed at a positive price, and all others are refused.  The trade is the only thing
that happens to the book, the orders of other instruments wait on, and every order is counted and
logged as what became of it. -/
structure Settles (f : Floor α) (bar : Bar α) (f' : Floor α) (fills : List (Fill α))
    (traded refused : List (Waiting α)) : Prop where
  row : f.desk.waitingFor bar.instrument = traded ++ refused
  one : traded.length ≤ 1
  ripe : traded ≠ [] ↔ f.desk.waitingFor bar.instrument ≠ [] ∧
    f.book.net bar.instrument = 0 ∧ Scalar.zero < bar.close
  trades : fills = traded.map fun w => fillAtClose w.intent bar w.intent.volume
  waiting : ∀ instrument, f'.desk.waitingFor instrument =
    if instrument = bar.instrument then [] else f.desk.waitingFor instrument
  still : traded = [] → f'.book = f.book
  moved : ∀ w ∈ traded, ∃ profit, f.book.trade? bar.instrument w.intent.side w.intent.volume
    bar.close = some (f'.book, profit)
  statuses : f'.desk.statuses =
    f.desk.statuses.plus ⟨traded.length, traded.length, 0, refused.length, 0⟩
  log : f'.log = f.log.extend
    ((traded.flatMap fun w => [.accepted w.intent bar w.intent.volume,
        .traded w.intent bar w.intent.volume (f'.book.position bar.instrument)]) ++
      refused.map fun w => .settled w.intent bar.lastTime bar.close .rejected)

variable {f f' : Floor α} {bar : Bar α} {fills : List (Fill α)}

/-- The row is settled, whatever the book and the bar are. -/
theorem settles_of_settle? (hfiled : f.desk.Filed) (h : f.settle? bar = some (f', fills)) :
    ∃ traded refused, f.Settles bar f' fills traded refused := by
  rcases settle?_cases hfiled h with
    ⟨hnot, rfl, rfl⟩ | ⟨w, rest, book, profit, hrow, hw, hripe, rfl, htrade, rfl⟩
  · refine ⟨[], f.desk.waitingFor bar.instrument, ?_⟩
    constructor
    case row => rfl
    case one => exact Nat.zero_le 1
    case ripe =>
      refine iff_of_false (fun hne => hne rfl) fun hripe => ?_
      exact hnot.elim hripe.1 fun hheld => hheld hripe.2
    case trades => rfl
    case waiting =>
      intro instrument
      rw [← waitingFor_without, Desk.waitingFor, waiting_rejectAll, Desk.waitingFor]
    case still => exact fun _ => book_rejectAll _
    case moved => exact fun w hw => absurd hw List.not_mem_nil
    case statuses => exact statuses_rejectAll _ bar _
    case log => exact log_rejectAll _ bar _
  · refine ⟨[w], rest, ?_⟩
    have hbook : (((f.without bar.instrument).afterFill w.intent bar w.intent.volume book).rejectAll
        bar rest).book = book := book_rejectAll _
    constructor
    case row => exact hrow
    case one => exact Nat.le_refl 1
    case ripe => exact iff_of_true (List.cons_ne_nil w []) ⟨hrow ▸ List.cons_ne_nil w rest, hripe⟩
    case trades => rfl
    case waiting =>
      intro instrument
      rw [← waitingFor_without, Desk.waitingFor, waiting_rejectAll]
      rfl
    case still => exact fun hnil => absurd hnil (List.cons_ne_nil w [])
    case moved =>
      rw [List.forall_mem_singleton, hbook]
      exact ⟨profit, htrade⟩
    case statuses =>
      have htraded : ((f.without bar.instrument).afterFill w.intent bar w.intent.volume
          book).desk.statuses = f.desk.statuses.plus ⟨1, 1, 0, 0, 0⟩ := rfl
      rw [statuses_rejectAll, htraded, StatusCounts.plus_assoc]
      simp [StatusCounts.plus]
    case log =>
      rw [log_rejectAll, hbook]
      rfl

/-- It can always be settled: an order that trades starts from flat. -/
theorem exists_settle? (hfiled : f.desk.Filed)
    (hcounted : ∀ w ∈ f.desk.waitingFor bar.instrument, w.intent.volume ≤ Count.greatest) :
    ∃ f' fills, f.settle? bar = some (f', fills) := by
  by_cases hripe : f.book.net bar.instrument = 0 ∧ Scalar.zero < bar.close
  swap
  · exact ⟨_, _, settle?_of_held hfiled hripe⟩
  cases hrow : f.desk.waitingFor bar.instrument with
  | nil => exact ⟨f.without bar.instrument, [], by rw [settle?, hrow]; rfl⟩
  | cons w rest =>
    rw [hrow] at hcounted
    have hsize : (((f.book.net bar.instrument) + w.intent.side.sign * w.intent.volume).natAbs : Int)
        ≤ Count.greatest := by
      have hvolume := (hfiled bar.instrument w (hrow ▸ List.mem_cons_self)).volume
      have hrange := hcounted w List.mem_cons_self
      rw [hripe.1]
      rcases w.intent.side.sign_eq with hs | hs <;> rw [hs] <;> omega
    have hheld : ((f.book.net bar.instrument).natAbs : Int) ≤ Count.greatest := by
      rw [hripe.1]
      decide
    obtain ⟨book, profit, htrade⟩ := Book.exists_trade? bar.close hheld hsize
    exact ⟨_, _, settle?_of_flat hfiled hrow hripe.1 hripe.2 htrade⟩

/-- Whoever fills the rows, settling one takes it out and leaves the others alone. -/
lemma waitingFor_settle? (h : f.settle? bar = some (f', fills)) (instrument : String) :
    f'.desk.waitingFor instrument =
      if instrument = bar.instrument then [] else f.desk.waitingFor instrument := by
  have hwaiting : f'.desk.waiting = (f.without bar.instrument).desk.waiting := by
    refine settleEach?_induct (Q := fun _ g =>
      g.desk.waiting = (f.without bar.instrument).desk.waiting) ?_ rfl h
    intro w rest g g' fill hg hone
    rcases settleOne?_cases hone with ⟨-, book, profit, -, rfl, -⟩ | ⟨-, rfl, -⟩
    · exact hg
    · exact hg
  rw [← waitingFor_without, Desk.waitingFor, hwaiting, Desk.waitingFor]

end Floor

/-! ## Rows on a bar -/

namespace Run

variable [Scalar α] {sim : Simulation α} {run run' : Run sim} {bar : Bar α}

/-- The order that an intent is put into the row as, if it has to wait. -/
def deferralOf (run : Run sim) (bar : Bar α) (intent : Intent α) : List (Waiting α) :=
  if (run.name intent).2.offset = .opening ∧ sim.capabilities.opening = false then []
  else if Floor.decide? (run.name intent).2 bar
      (run.floor.book.net (run.name intent).2.instrument) = some .wait then
    [⟨(run.name intent).2, bar.lastTime⟩]
  else []

/-- The orders that the intents of a bar are put into the row as, one after the other. -/
def deferralsOf (run : Run sim) (bar : Bar α) : List (Intent α) → List (Waiting α)
  | [] => []
  | intent :: rest =>
    run.deferralOf bar intent ++
      match run.settleIntent? bar intent with
      | none => []
      | some next => next.deferralsOf bar rest

/-- The orders that a bar makes wait: those that the answers to it are put into the row as, after
the orders that waited for it are settled. -/
def deferrals (run : Run sim) (bar : Bar α) : List (Waiting α) :=
  match run.describe? bar with
  | none => []
  | some (described, state) =>
    match described.settleWaiting? bar with
    | none => []
    | some settled =>
      match settled.askAbout? bar state with
      | none => []
      | some (asked, intents) => asked.deferralsOf bar intents

/-- An intent is put into the row of the bar, or into none. -/
lemma waitingFor_settleIntent? {intent : Intent α} (h : run.settleIntent? bar intent = some run')
    (instrument : String) :
    run'.floor.desk.waitingFor instrument =
      run.floor.desk.waitingFor instrument ++
        if instrument = bar.instrument then run.deferralOf bar intent else [] := by
  have hnone : run.deferralOf bar intent = [] →
      (if instrument = bar.instrument then run.deferralOf bar intent else []) = [] := by
    intro hempty
    rw [hempty, ite_self]
  rw [settleIntent?] at h
  simp only [floor_name] at h
  split at h
  · rename_i hrefused
    rw [hnone (if_pos hrefused), List.append_nil, ← Option.some.inj h]
    rfl
  · rename_i hallowed
    simp only [Option.map_eq_some_iff, Prod.exists] at h
    obtain ⟨floor, fill, hsubmit, rfl⟩ := h
    have hasked : run.deferralOf bar intent =
        if Floor.decide? (run.name intent).2 bar
            (run.floor.book.net (run.name intent).2.instrument) = some .wait then
          [⟨(run.name intent).2, bar.lastTime⟩]
        else [] := if_neg hallowed
    rw [floor_notify]
    rcases Floor.submit?_cases hsubmit with
      ⟨hd, rfl, -⟩ | ⟨hd, rfl, -⟩ | ⟨volume, book, profit, hd, -, rfl, -⟩
    · rw [hd, if_neg (by simp)] at hasked
      rw [hnone hasked, List.append_nil]
      rfl
    · obtain ⟨-, hinstrument, -⟩ := Floor.decide?_wait hd
      rw [hd, if_pos rfl] at hasked
      rw [hasked, Floor.defer]
      simp only [Desk.waitingFor_defer, hinstrument]
      split
      · rfl
      · exact (List.append_nil _).symm
    · rw [hd, if_neg (by simp)] at hasked
      rw [hnone hasked, List.append_nil]
      rfl

/-- All intents of a bar are, in their order. -/
lemma waitingFor_settleIntents? {intents : List (Intent α)}
    (h : run.settleIntents? bar intents = some run') (instrument : String) :
    run'.floor.desk.waitingFor instrument =
      run.floor.desk.waitingFor instrument ++
        if instrument = bar.instrument then run.deferralsOf bar intents else [] := by
  induction intents generalizing run with
  | nil =>
    obtain rfl := Option.some.inj h
    rw [deferralsOf, ite_self, List.append_nil]
  | cons intent rest ih =>
    simp only [settleIntents?] at h
    split at h
    · cases h
    · rename_i next hone
      -- the rest is answered with the row that the first intent has left
      have hfirst := waitingFor_settleIntent? hone instrument
      have hrest := ih h
      rw [hrest, hfirst, List.append_assoc]
      by_cases hsame : instrument = bar.instrument
      · simp only [if_pos hsame, deferralsOf, hone]
      · simp only [if_neg hsame, List.append_nil]

/-- After a bar its row holds just what the bar made wait, and all other rows are as they were. -/
theorem onBar?_waitingFor (hdet : sim.deterministic = true) (h : run.onBar? bar = some run')
    (instrument : String) :
    run'.floor.desk.waitingFor instrument =
      if instrument = bar.instrument then run.deferrals bar
      else run.floor.desk.waitingFor instrument := by
  obtain ⟨described, state, settled, asked, intents, answered, hd, hs, ha, hi, rfl⟩ :=
    onBar?_cases hdet h
  have hdeferrals : run.deferrals bar = asked.deferralsOf bar intents := by
    simp only [deferrals, hd, hs, ha]
  obtain ⟨floor, fills, hsettle, rfl⟩ := settleWaiting?_cases hs
  have hsettled := Floor.waitingFor_settle? hsettle instrument
  have hanswered : (answered.recordEquity bar).floor.desk.waitingFor instrument =
      asked.floor.desk.waitingFor instrument ++
        if instrument = bar.instrument then asked.deferralsOf bar intents else [] :=
    waitingFor_settleIntents? hi instrument
  rw [hanswered, (askAbout?_frame ha).1, floor_notify, hsettled, (describe?_frame hd).1, hdeferrals]
  split
  · rfl
  · exact List.append_nil _

/-! ## Rows in a run -/

variable {ticks ticks' : List (Tick α)} {fed fed' : Run sim} {name : String} {t : Tick α}

/-- The orders that wait for an instrument after some ticks go back to a bar: the bar was closed in
the course of the ticks, it is the last one of the instrument, and it made just these orders wait.
-/
structure WaitsSince (fed : Run sim) (ticks : List (Tick α)) (name : String) (bar : Bar α)
    (run : Run sim) : Prop where
  taken : ∃ before earlier, before <+: ticks ∧ (Run.start sim).feed before = .ok earlier ∧
    earlier.Closes bar run
  instrument : bar.instrument = name
  last : ∃ more, fed.barsShown = run.barsShown ++ bar :: more ∧
    ∀ later ∈ more, later.instrument ≠ name
  row : fed.floor.desk.waitingFor name = run.deferrals bar

/-- Ticks and bars of other instruments do not matter, as long as the row stays. -/
lemma WaitsSince.later (h : fed.WaitsSince ticks name bar run) (hticks : ticks <+: ticks')
    {bars : List (Bar α)} (hshown : fed'.barsShown = fed.barsShown ++ bars)
    (hbars : ∀ later ∈ bars, later.instrument ≠ name)
    (hrow : fed'.floor.desk.waitingFor name = fed.floor.desk.waitingFor name) :
    fed'.WaitsSince ticks' name bar run where
  taken := by
    obtain ⟨before, earlier, hbefore, hearlier, hcloses⟩ := h.taken
    exact ⟨before, earlier, hbefore.trans hticks, hearlier, hcloses⟩
  instrument := h.instrument
  last := by
    obtain ⟨more, hmore, hothers⟩ := h.last
    refine ⟨more ++ bars, ?_, ?_⟩
    · rw [hshown, hmore, List.append_assoc, List.cons_append]
    · exact List.forall_mem_append.mpr ⟨hothers, hbars⟩
  row := hrow.trans h.row

/-- Every row is empty, or it goes back to the last bar of its instrument. -/
def Recent (fed : Run sim) (ticks : List (Tick α)) : Prop :=
  ∀ name, fed.floor.desk.waitingFor name = [] ∨ ∃ bar run, fed.WaitsSince ticks name bar run

/-- The bar that a tick closes fills its own row anew. -/
lemma Recent.closed (h : fed.Recent ticks) (hdet : sim.deterministic = true)
    (hfeed : (Run.start sim).feed ticks = .ok fed) {bars : Bars α} {closed : Option (Bar α)}
    (hpush : fed.bars.push? t = some (bars, closed))
    (hclosed : ({ fed.count t with bars } : Run sim).onClosed? closed = some fed') :
    fed'.Recent (ticks ++ [t]) := by
  intro name
  cases closed with
  | none =>
    obtain rfl := Option.some.inj hclosed
    refine (h name).imp_right ?_
    rintro ⟨bar, run, hsince⟩
    exact ⟨bar, run, hsince.later (List.prefix_append ..) (List.append_nil _).symm
      (fun _ hnil => absurd hnil List.not_mem_nil) rfl⟩
  | some closed =>
    have hbar : ({ fed.count t with bars } : Run sim).onBar? closed = some fed' := hclosed
    have hcounted := barsShown_onBar? hbar
    have hshown : fed'.barsShown = fed.barsShown ++ [closed] := hcounted
    have hrow := onBar?_waitingFor hdet hbar name
    by_cases hsame : name = closed.instrument
    · rw [if_pos hsame] at hrow
      refine .inr ⟨closed, { fed.count t with bars }, ⟨ticks, fed, List.prefix_append .., hfeed,
        .tick hpush⟩, hsame.symm, ⟨[], hshown, ?_⟩, hrow⟩
      exact fun _ hnil => absurd hnil List.not_mem_nil
    · rw [if_neg hsame] at hrow
      refine (h name).imp (fun hempty => hrow.trans hempty) ?_
      rintro ⟨bar, run, hsince⟩
      exact ⟨bar, run, hsince.later (List.prefix_append ..) hshown
        (List.forall_mem_singleton.mpr (Ne.symm hsame)) hrow⟩

/-- A contract that is followed may have its row dropped, and no bar is closed meanwhile. -/
lemma followContract?_waitingFor (h : fed.followContract? t = some fed') (name : String) :
    fed'.floor.desk.waitingFor name = [] ∨
      fed'.floor.desk.waitingFor name = fed.floor.desk.waitingFor name := by
  rcases followContract?_cases h with
    ⟨-, rfl⟩ | ⟨r, seen, pending, -, -, ⟨-, rfl⟩ | ⟨p, -, hroll⟩⟩
  · exact .inr rfl
  · exact .inr rfl
  · obtain ⟨r', book, log, event, -, rfl⟩ := roll?_cases hroll
    have hrow := Floor.waitingFor_cancel fed.floor p.source t.time name
    split at hrow
    · exact .inl hrow
    · exact .inr hrow

/-- Whatever ticks are taken, rows go back to the last bars of their instruments. -/
theorem recent_feed (h : (Run.start sim).feed ticks = .ok fed) : fed.Recent ticks := by
  cases hdet : sim.deterministic with
  | false =>
    -- where no orders are filled the floor stays as it was, with no rows at all
    intro name
    rw [floor_feed hdet h]
    exact .inl rfl
  | true =>
    refine feed_induct (P := fun ticks fed => fed.Recent ticks) (fun _ => .inl rfl) ?_ h
    intro ticks fed t fed' hfeed hrecent ht
    obtain ⟨arrived, ha, hfollow⟩ := onTick?_cases hdet ht
    obtain ⟨bars, closed, mid, hpush, hmid, rfl⟩ := arrive?_cases ha
    have hclosed := hrecent.closed hdet hfeed hpush hmid
    have hshown : fed'.barsShown = mid.barsShown ++ [] := by
      obtain ⟨floor, rollover, rfl⟩ := followContract?_frame hfollow
      exact (List.append_nil _).symm
    intro name
    rcases followContract?_waitingFor hfollow name with hempty | hrow
    · exact .inl hempty
    · refine (hclosed name).imp (fun hempty => hrow.trans hempty) ?_
      rintro ⟨bar, run, hsince⟩
      exact ⟨bar, run, hsince.later (List.prefix_refl _) hshown
        (fun _ hnil => absurd hnil List.not_mem_nil) hrow⟩

/-- The orders that wait in a run are proper ones. -/
lemma filed_feed (hdet : sim.deterministic = true) (h : (Run.start sim).feed ticks = .ok fed) :
    fed.floor.desk.Filed := by
  have hupkeep : Upkeep sim ticks fun _ _ => True :=
    { start := trivial
      trade := Floor.keepsTrades_true
      mark := fun _ _ _ => trivial
      move := fun _ _ _ _ _ => trivial }
  exact (hupkeep.feed hdet h).1

end Run

/-! ## The result -/

variable [Scalar α]

/-- **What waits is settled on the next bar.**  Take a desk that calls have led to, with any book,
and settle what waits for a bar.  That can be done, if the orders have numbers of lots that are
counts.  All orders of the instrument leave their row, and those of other instruments stay.  If the
instrument is flat and the bar closed at a positive price, the first order of the row trades, in
full and at the close; every other order is refused.

In a run, every bar of an instrument settles in this way all that waited for it, and what waits
afterwards was put there by the answers to that bar.  So at any moment the row of an instrument is
empty, or it is what the last bar of the instrument made wait. -/
theorem deferred_settle_at_next_bar :
    (∀ f : Floor α, f.desk.Reachable → ∀ bar : Bar α,
      ((∀ w ∈ f.desk.waitingFor bar.instrument, w.intent.volume ≤ Count.greatest) →
        ∃ f' fills, f.settle? bar = some (f', fills)) ∧
      ∀ f' fills, f.settle? bar = some (f', fills) →
        ∃ traded refused, f.Settles bar f' fills traded refused) ∧
    ∀ (sim : Simulation α) (ticks : List (Tick α)) (fed : Run sim),
      (Run.start sim).feed ticks = .ok fed →
      (sim.deterministic = true → ∀ bar run run', fed.Closes bar run →
        run.onBar? bar = some run' →
          (∃ f' fills traded refused, run.floor.settle? bar = some (f', fills) ∧
            run.floor.Settles bar f' fills traded refused) ∧
          ∀ instrument, run'.floor.desk.waitingFor instrument =
            if instrument = bar.instrument then run.deferrals bar
            else run.floor.desk.waitingFor instrument) ∧
      ∀ instrument, fed.floor.desk.waitingFor instrument = [] ∨
        ∃ bar run, fed.WaitsSince ticks instrument bar run := by
  refine ⟨?_, ?_⟩
  · intro f hreachable bar
    have hfiled := hreachable.filed
    exact ⟨fun hcounted => Floor.exists_settle? hfiled hcounted,
      fun f' fills h => Floor.settles_of_settle? hfiled h⟩
  · intro sim ticks fed hfeed
    refine ⟨?_, Run.recent_feed hfeed⟩
    intro hdet bar run run' hcloses hbar
    refine ⟨?_, Run.onBar?_waitingFor hdet hbar⟩
    obtain ⟨described, state, settled, asked, intents, answered, hd, hs, -, -, -⟩ :=
      Run.onBar?_cases hdet hbar
    obtain ⟨f', fills, hsettle, -⟩ := Run.settleWaiting?_cases hs
    rw [(Run.describe?_frame hd).1] at hsettle
    have hfiled : run.floor.desk.Filed := hcloses.cases.2.1 ▸ Run.filed_feed hdet hfeed
    obtain ⟨traded, refused, hsettles⟩ := Floor.settles_of_settle? hfiled hsettle
    exact ⟨f', fills, traded, refused, hsettle, hsettles⟩

/-! ## Orders that waited -/

/-- The first tick of the other contract in the short run. -/
def switchingTick : Tick Float := ⟨"rb2410", 240, 110, 0, 109, 1, 111, 1⟩

/-- Of two orders that wait while nothing is held, one trades and one is refused.

In the short run, a lot waits to be sold when the first tick of the other contract closes a bar.  It
is sold on that bar, and the answer to the bar waits in its place. -/
theorem deferred_settle_at_next_bar_shortRun :
    (∃ f' fills traded refused,
      (Floor.mk waitingDesk Book.empty (AuditLog.start true)).settle? (closedBar "rb2405" 100) =
          some (f', fills) ∧
        (Floor.mk waitingDesk Book.empty (AuditLog.start true)).Settles (closedBar "rb2405" 100) f'
          fills traded refused ∧
        traded.length = 1 ∧ refused.length = 1) ∧
    ∃ (fed run run' : Run (shortSimulation .strict)) (bar : Bar Float),
      (Run.start (shortSimulation .strict)).feed (shortTicks.take 4) = .ok fed ∧
        fed.Closes bar run ∧ run.onBar? bar = some run' ∧
        (fed.floor.desk.waitingFor "rb2405").map (·.intent.volume) = [1] ∧
        (∃ before earlier, fed.WaitsSince (shortTicks.take 4) "rb2405" before earlier) ∧
        (∃ f' fills traded refused, run.floor.settle? bar = some (f', fills) ∧
          run.floor.Settles bar f' fills traded refused ∧ traded.length = 1) ∧
        run'.floor.desk.waitingFor "rb2405" = run.deferrals bar ∧
        (run.deferrals bar).map (·.intent.volume) = [3] := by
  obtain ⟨hdesk, hruns⟩ := @deferred_settle_at_next_bar Float _
  constructor
  · obtain ⟨hexists, hsettles⟩ := hdesk (Floor.mk waitingDesk Book.empty (AuditLog.start true))
      reachable_waitingDesk (closedBar "rb2405" 100)
    obtain ⟨f', fills, hsettle⟩ := hexists (by decide +kernel)
    obtain ⟨traded, refused, hs⟩ := hsettles f' fills hsettle
    have hripe : traded ≠ [] := hs.ripe.mpr (by decide +kernel)
    have hsome := List.length_pos_iff.mpr hripe
    have hone := hs.one
    have hall : 2 = traded.length + refused.length := by
      rw [← List.length_append, ← hs.row]
      decide +kernel
    exact ⟨f', fills, traded, refused, hsettle, hs, by omega, by omega⟩
  · have hvalues : ((Run.start (shortSimulation .strict)).feed (shortTicks.take 4)).toOption.map
        (fun fed => ((fed.floor.desk.waitingFor "rb2405").map (·.intent.volume),
          fed.floor.book.net "rb2405",
          ((fed.bars.push? switchingTick).bind (·.2)).map fun bar =>
            decide (bar.instrument = "rb2405" ∧ Scalar.zero < bar.close),
          (fed.uptoMark? switchingTick).map fun next =>
            (next.floor.desk.waitingFor "rb2405").map (·.intent.volume))) =
        some ([1], 0, some true, some [3]) := by decide +kernel
    obtain ⟨fed, hfed, hvalues⟩ := Run.exists_of_ok hvalues
    simp only [Prod.mk.injEq] at hvalues
    obtain ⟨hwaiting, hflat, hpushed, hnext⟩ := hvalues
    obtain ⟨run', hmid, hlater⟩ := Option.map_eq_some_iff.mp hnext
    obtain ⟨bars, closed, hpush, hclosed⟩ := Run.uptoMark?_cases hmid
    rw [hpush, Option.bind_some] at hpushed
    obtain ⟨bar, rfl, hbar⟩ := Option.map_eq_some_iff.mp hpushed
    obtain ⟨hinstrument, hclose⟩ := of_decide_eq_true hbar
    have hcloses : fed.Closes bar { fed.count switchingTick with bars } := .tick hpush
    obtain ⟨hbars, hrows⟩ := hruns _ _ _ hfed
    obtain ⟨⟨f', fills, traded, refused, hsettle, hs⟩, hrow⟩ := hbars rfl bar _ run' hcloses hclosed
    have hafter := hrow "rb2405"
    rw [if_pos hinstrument.symm] at hafter
    have hmany : (fed.floor.desk.waitingFor "rb2405").length = 1 := by
      rw [← List.length_map (·.intent.volume), hwaiting]
      rfl
    have hsince := (hrows "rb2405").resolve_left fun hempty => by simp [hempty] at hmany
    have hripe : traded ≠ [] := by
      refine hs.ripe.mpr ⟨?_, ?_, hclose⟩
      · rw [hinstrument]
        exact List.length_pos_iff.mp (hmany ▸ Nat.one_pos)
      · rw [hinstrument]
        exact hflat
    have htraded : traded.length = 1 :=
      Nat.le_antisymm hs.one (List.length_pos_iff.mpr hripe)
    exact ⟨fed, _, run', bar, hfed, hcloses, hclosed, hwaiting, hsince,
      ⟨f', fills, traded, refused, hsettle, hs, htraded⟩, hafter, hafter ▸ hlater⟩

end MarketTape
