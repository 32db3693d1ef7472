import MarketTape.Proofs.Orders
import MarketTape.Proofs.Rollover
import MarketTape.Proofs.Run

/-!
# Every order comes to its end

A strategy that does not name its own orders has them named by the run, which counts them.  At the
end of the run every name that was given out stands in the log for one of the five `lives`, every
record under it is about the intent that it was given to, and no other name is in the log.

* `Run.intents` are the intents of a run.  They are read off what the strategy was told, so that
  they do not rest on how the run kept them.
* `Simulation.orderName` is the name of an order and `Simulation.placed` gives intents their names.
* `Run.Orderly` is the invariant of a run: `Orders`, for the intents that were placed so far.
* `order_lifecycle` is the result.
-/

namespace MarketTape

open AuditEvent

variable {α : Type}

/-! ## What a strategy was told -/

/-- Takes a call: what the strategy remembers after it, and the intents given so far. -/
def Strategy.hear (s : Strategy α) (memory : s.State × List (Intent α)) :
    Call α → s.State × List (Intent α)
  | .state bar =>
    match s.onState memory.1 bar with
    | none => memory
    | some (state, intents) => (state, memory.2 ++ intents)
  | .fill fill => (s.onFill memory.1 fill, memory.2)
  | .shutdown => memory

/-- What a strategy remembers after some calls, and the intents that it has given. -/
def Strategy.after (s : Strategy α) (calls : List (Call α)) : s.State × List (Intent α) :=
  calls.foldl s.hear (s.start, [])

lemma Strategy.after_append (s : Strategy α) (calls more : List (Call α)) :
    s.after (calls ++ more) = more.foldl s.hear (s.after calls) := List.foldl_append

lemma Strategy.after_fills (s : Strategy α) {calls : List (Call α)} {state : s.State}
    {intents : List (Intent α)} (h : s.after calls = (state, intents)) (fills : List (Fill α)) :
    s.after (calls ++ fills.map Call.fill) = (fills.foldl s.onFill state, intents) := by
  rw [after_append, h]
  induction fills generalizing state calls with
  | nil => rfl
  | cons fill rest ih =>
    have hone : s.after (calls ++ [.fill fill]) = (s.onFill state fill, intents) := by
      rw [after_append, h]
      rfl
    exact ih hone

/-! ## Names -/

/-- The name of an order, counted from 1. -/
def Simulation.orderName (sim : Simulation α) (k : Nat) : String :=
  sim.strategyName ++ "-" ++ toString k

/-- Orders of different numbers have different names. -/
lemma Simulation.orderName_injective {sim : Simulation α} {k l : Nat}
    (h : sim.orderName k = sim.orderName l) : k = l := by
  have hdigits : Nat.toDigits 10 k = Nat.toDigits 10 l := by
    have htext := (String.append_right_inj _).mp h
    rw [Nat.toString_eq_repr, Nat.toString_eq_repr] at htext
    rw [← Nat.toList_repr, ← Nat.toList_repr, htext]
  calc
    k = Nat.ofDigitChars 10 (Nat.toDigits 10 k) 0 := Nat.ofDigitChars_ten_toDigits.symm
    _ = Nat.ofDigitChars 10 (Nat.toDigits 10 l) 0 := by rw [hdigits]
    _ = l := Nat.ofDigitChars_ten_toDigits

/-- Intents as they are placed: under the names that they are given. -/
def Simulation.placed (sim : Simulation α) (intents : List (Intent α)) : List (Intent α) :=
  intents.mapIdx fun i intent => { intent with traceId := sim.orderName (i + 1) }

lemma Simulation.placed_concat (sim : Simulation α) (intents : List (Intent α))
    (intent : Intent α) :
    sim.placed (intents ++ [intent]) =
      sim.placed intents ++
        [{ intent with traceId := sim.orderName (intents.length + 1) }] :=
  List.mapIdx_concat

/-- The orders that were placed have the names up to their number. -/
lemma Simulation.mem_placed {sim : Simulation α} {intents : List (Intent α)} {o : Intent α}
    (h : o ∈ sim.placed intents) :
    ∃ (i : Nat) (intent : Intent α), intents[i]? = some intent ∧
      o = { intent with traceId := sim.orderName (i + 1) } := by
  obtain ⟨i, hi⟩ := List.mem_iff_getElem?.mp h
  rw [placed, List.getElem?_mapIdx, Option.map_eq_some_iff] at hi
  obtain ⟨intent, hintent, rfl⟩ := hi
  exact ⟨i, intent, hintent, rfl⟩

/-- The next name is new. -/
lemma Simulation.orderName_fresh (sim : Simulation α) (intents : List (Intent α)) :
    sim.orderName (intents.length + 1) ∉ (sim.placed intents).map (·.traceId) := by
  intro hmem
  obtain ⟨o, ho, hname⟩ := List.mem_map.mp hmem
  obtain ⟨i, intent, hintent, rfl⟩ := mem_placed ho
  have hlt := (List.getElem?_eq_some_iff.mp hintent).1
  have hsame := orderName_injective hname
  omega

/-! ## The invariant -/

namespace Run

variable {sim : Simulation α} {run run' : Run sim} {done pending rest : List (Intent α)}
  {intent : Intent α} {bar : Bar α}

/-- The intents that a strategy has given over a run. -/
def intents (run : Run sim) : List (Intent α) := (sim.strategy.after run.calls.toList).2

/-- The intents of a run, which are the answers of the strategy to what it was told, are those that
were placed and those that are still to come; they were counted, and the desk is in order about the
former. -/
structure Orderly (run : Run sim) (done pending : List (Intent α)) : Prop where
  heard : sim.strategy.after run.calls.toList = (run.strategy, done ++ pending)
  emitted : run.intentsEmitted = (done ++ pending).length
  next : run.nextTrace = done.length + 1
  orders : Orders (sim.placed done) run.floor.desk.waitingFor run.floor.log

lemma Orderly.notify (h : run.Orderly done pending) (fills : List (Fill α)) :
    (run.notify fills).Orderly done pending := by
  rw [notify_eq]
  refine ⟨?_, h.emitted, h.next, h.orders⟩
  rw [Array.toList_append]
  exact sim.strategy.after_fills h.heard (told sim fills)

lemma Orderly.describe {described : Run sim} {state : MarketState α}
    (h : run.Orderly done pending) (hd : run.describe? bar = some (described, state)) :
    described.Orderly done pending := by
  obtain ⟨detector, -, rfl⟩ := describe?_cases hd
  exact ⟨h.heard, h.emitted, h.next, h.orders⟩

/-- The end of a run is no question. -/
lemma after_shutdown (run : Run sim) :
    sim.strategy.after run.shutdown.calls.toList = sim.strategy.after run.calls.toList := by
  rw [shutdown, Array.toList_push, Strategy.after_append]
  rfl

/-- What a strategy answers comes after the intents that it has given. -/
lemma after_askAbout? {asked : Run sim} {state : MarketState α} {intents : List (Intent α)}
    (ha : run.askAbout? bar state = some (asked, intents))
    (hheard : sim.strategy.after run.calls.toList = (run.strategy, done ++ []))
    (hemitted : run.intentsEmitted = (done ++ []).length) :
    sim.strategy.after asked.calls.toList = (asked.strategy, done ++ intents) ∧
      asked.intentsEmitted = (done ++ intents).length := by
  obtain ⟨strategy, hon, rfl⟩ := askAbout?_cases ha
  rw [List.append_nil] at hheard
  refine ⟨?_, ?_⟩
  · rw [Array.toList_push, Strategy.after_append, hheard]
    simp only [List.foldl_cons, List.foldl_nil, Strategy.hear, hon]
  · simp only [hemitted, List.append_nil, List.length_append]

lemma Orderly.ask {asked : Run sim} {state : MarketState α} {intents : List (Intent α)}
    (h : run.Orderly done []) (ha : run.askAbout? bar state = some (asked, intents)) :
    asked.Orderly done intents := by
  obtain ⟨hheard, hemitted⟩ := after_askAbout? ha h.heard h.emitted
  obtain ⟨strategy, -, rfl⟩ := askAbout?_cases ha
  exact ⟨hheard, hemitted, h.next, h.orders⟩

/-- An intent is given the next name. -/
lemma name_eq (hnames : sim.capabilities.traceProvider = false) {k : Nat}
    (hnext : run.nextTrace = k) (intent : Intent α) :
    run.name intent =
      ({ run with nextTrace := k + 1 }, { intent with traceId := sim.orderName k }) := by
  rw [name, hnames, hnext]
  rfl

variable [Scalar α]

lemma Orderly.settleWaiting (h : run.Orderly done pending)
    (hs : run.settleWaiting? bar = some run') : run'.Orderly done pending := by
  obtain ⟨floor, fills, hfloor, rfl⟩ := settleWaiting?_cases hs
  have hsettled : ({ run with floor } : Run sim).Orderly done pending :=
    ⟨h.heard, h.emitted, h.next, h.orders.settle hfloor⟩
  exact hsettled.notify fills

/-- An intent is placed. -/
lemma Orderly.settleIntent (hnames : sim.capabilities.traceProvider = false)
    (h : run.Orderly done (intent :: rest)) (hs : run.settleIntent? bar intent = some run') :
    run'.Orderly (done ++ [intent]) rest := by
  have hfresh := sim.orderName_fresh done
  -- the intent moves from those to come to those that were placed
  have hheard := h.heard
  have hemitted := h.emitted
  rw [List.append_cons] at hheard hemitted
  have hnext : done.length + 1 + 1 = (done ++ [intent]).length + 1 := by
    rw [List.length_append, List.length_singleton]
  have hcases := settleIntent?_cases hs
  rw [name_eq hnames h.next] at hcases
  rcases hcases with rfl | ⟨floor, fill, hsubmit, rfl⟩
  · refine ⟨hheard, hemitted, hnext, ?_⟩
    rw [sim.placed_concat]
    exact h.orders.reject hfresh bar
  · have hplaced : ({ run with nextTrace := done.length + 1 + 1, floor } : Run sim).Orderly
        (done ++ [intent]) rest := by
      refine ⟨hheard, hemitted, hnext, ?_⟩
      rw [sim.placed_concat]
      exact h.orders.submit hfresh hsubmit
    exact hplaced.notify fill.toList

/-- A closed bar settles what waited for it, and all its intents are placed. -/
lemma Orderly.closed {closed : Option (Bar α)} (hdet : sim.deterministic = true)
    (hnames : sim.capabilities.traceProvider = false) (h : run.Orderly done [])
    (hc : run.onClosed? closed = some run') : ∃ done', run'.Orderly done' [] := by
  cases closed with
  | none =>
    rw [onClosed?, Option.some.injEq] at hc
    exact ⟨done, hc ▸ h⟩
  | some bar =>
    obtain ⟨described, state, settled, asked, intents, answered, hd, hs, ha, hi, rfl⟩ :=
      onBar?_cases hdet hc
    have hasked : asked.Orderly done intents := ((h.describe hd).settleWaiting hs).ask ha
    have hanswered : ∃ done', answered.Orderly done' [] := by
      refine settleIntents?_induct (P := fun rest r => ∃ done', r.Orderly done' rest) ?_
        ⟨done, hasked⟩ hi
      rintro intent rest before after ⟨done', hbefore⟩ hone
      exact ⟨_, hbefore.settleIntent hnames hone⟩
    obtain ⟨done', hfinal⟩ := hanswered
    exact ⟨done', hfinal.heard, hfinal.emitted, hfinal.next, hfinal.orders⟩

/-- A switch of contracts drops the orders that wait for the old one. -/
lemma Orderly.follow {t : Tick α} (h : run.Orderly done [])
    (hf : run.followContract? t = some run') : run'.Orderly done [] := by
  rcases followContract?_cases hf with ⟨-, rfl⟩ | ⟨r, seen, pending, -, -, hcase⟩
  · exact h
  · rcases hcase with ⟨-, rfl⟩ | ⟨p, -, hroll⟩
    · exact ⟨h.heard, h.emitted, h.next, h.orders⟩
    · obtain ⟨r', book, log, event, hexec, rfl⟩ := roll?_cases hroll
      obtain ⟨m, -, -, -, rfl, -⟩ := Rollover.execute?_cases hexec
      refine ⟨h.heard, h.emitted, h.next, ?_⟩
      have hcanceled := (h.orders.cancel p.source t.time).1
      refine hcanceled.extend_rollover fun e he => ?_
      obtain ⟨a, -, rfl⟩ := List.mem_map.mp he
      rfl

lemma Orderly.tick {t : Tick α} (hdet : sim.deterministic = true)
    (hnames : sim.capabilities.traceProvider = false) (h : run.Orderly done [])
    (ht : run.onTick? t = some run') : ∃ done', run'.Orderly done' [] := by
  obtain ⟨arrived, harrive, hfollow⟩ := onTick?_cases hdet ht
  obtain ⟨bars, closed, mid, -, hmid, rfl⟩ := arrive?_cases harrive
  have hcounted : ({ run.count t with bars } : Run sim).Orderly done [] :=
    ⟨h.heard, h.emitted, h.next, h.orders⟩
  obtain ⟨done', hclosed⟩ := hcounted.closed hdet hnames hmid
  have hmarked : (mid.mark t).Orderly done' [] :=
    ⟨hclosed.heard, hclosed.emitted, hclosed.next, hclosed.orders⟩
  exact ⟨done', hmarked.follow hfollow⟩

lemma orderly_start (hlog : sim.logging = true) : (Run.start sim).Orderly [] [] where
  heard := rfl
  emitted := rfl
  next := rfl
  orders :=
    { enabled := hlog
      distinct := List.nodup_nil
      filed := by
        intro instrument w hw
        cases hw
      known := by
        intro e he
        cases he
      stage := by
        intro o ho
        cases ho
      paired := paired_nil }

lemma orderly_feed (hdet : sim.deterministic = true) (hlog : sim.logging = true)
    (hnames : sim.capabilities.traceProvider = false) {ticks : List (Tick α)}
    (h : (Run.start sim).feed ticks = .ok run) : ∃ done, run.Orderly done [] := by
  refine feed_induct (P := fun _ run => ∃ done, run.Orderly done []) ⟨[], orderly_start hlog⟩ ?_ h
  rintro ticks run t run' - ⟨done, hrun⟩ ht
  exact hrun.tick hdet hnames ht

/-- At the end of a run nothing waits. -/
lemma Orderly.finish (hdet : sim.deterministic = true)
    (hnames : sim.capabilities.traceProvider = false) (h : run.Orderly done [])
    (hf : run.finish? = some run') :
    run'.intentsEmitted = run'.intents.length ∧
      Orders (sim.placed run'.intents) (fun _ => []) run'.floor.log := by
  obtain ⟨mid, hmid, rfl⟩ := finish?_cases hf
  have hflushed : ({ run with bars := run.bars.flush.1 } : Run sim).Orderly done [] :=
    ⟨h.heard, h.emitted, h.next, h.orders⟩
  obtain ⟨done', hclosed⟩ := hflushed.closed hdet hnames hmid
  have hheard := hclosed.heard
  have hemitted := hclosed.emitted
  rw [List.append_nil] at hheard hemitted
  have hintents : mid.shutdown.intents = done' := by rw [intents, after_shutdown, hheard]
  rw [dropWaiting_eq hdet]
  exact ⟨hintents.symm ▸ hemitted, hintents.symm ▸ hclosed.orders.cancelAll mid.lastTime⟩

end Run

/-- At the end of a run whose orders are named by the run, the intents were counted; the records
under the name of an intent are one of the five lives, and they are about that intent; accepted
orders trade at once; and no record of an order or a trade is under another name. -/
theorem order_lifecycle [Scalar α] {sim : Simulation α} (hdet : sim.deterministic = true)
    (hlog : sim.logging = true) (hnames : sim.capabilities.traceProvider = false)
    {ticks : List (Tick α)} {run : Run sim} (h : Run.through sim ticks = .ok run) :
    run.intentsEmitted = run.intents.length ∧
      (∀ k intent, 1 ≤ k → run.intents[k - 1]? = some intent →
        life run.floor.log.events.toList (sim.orderName k) ∈ lives ∧
          ∀ e ∈ run.floor.log.events.toList, e.concerns (sim.orderName k) = true →
            e.ticket? =
              some ⟨sim.orderName k, intent.instrument, intent.side, intent.offset⟩) ∧
      Paired run.floor.log.events.toList ∧
      ∀ e ∈ run.floor.log.events.toList, ∀ ticket, e.ticket? = some ticket →
        ∃ k, 1 ≤ k ∧ k ≤ run.intentsEmitted ∧ ticket.traceId = sim.orderName k := by
  obtain ⟨fed, hfed, hfinish⟩ := Run.through_cases h
  obtain ⟨done, hticks⟩ := Run.orderly_feed hdet hlog hnames hfed
  obtain ⟨hcount, horders⟩ := hticks.finish hdet hnames hfinish
  refine ⟨hcount, ?_, horders.paired, ?_⟩
  · intro k intent hk hintent
    have hplaced : { intent with traceId := sim.orderName k } ∈ sim.placed run.intents := by
      refine List.mem_iff_getElem?.mpr ⟨k - 1, ?_⟩
      rw [Simulation.placed, List.getElem?_mapIdx, hintent, Option.map_some, Nat.sub_add_cancel hk]
    constructor
    · -- nothing waits any longer, so the order has come to its end
      rcases horders.stage _ hplaced with ⟨hlife, -⟩ | ⟨-, hone⟩
      · exact hlife
      · simp [openCount] at hone
    · intro e he hconcerns
      simp only [concerns, Option.any_eq_true, beq_iff_eq] at hconcerns
      obtain ⟨ticket, hticket, hname⟩ := hconcerns
      obtain ⟨o, ho, rfl⟩ := horders.known e he ticket hticket
      obtain rfl := List.inj_on_of_nodup_map horders.distinct ho hplaced hname
      exact hticket
  · intro e he ticket hticket
    obtain ⟨o, ho, rfl⟩ := horders.known e he ticket hticket
    obtain ⟨i, intent, hintent, rfl⟩ := Simulation.mem_placed ho
    have hlt := (List.getElem?_eq_some_iff.mp hintent).1
    exact ⟨i + 1, by omega, by omega, rfl⟩

/-- The six orders of the short run go all five ways. -/
theorem order_lifecycle_shortRun :
    ((List.range 6).map fun k =>
        life (shortRun .carry).floor.log.events.toList
          ((shortSimulation .carry).orderName (k + 1))) =
      [[.order .accepted, .trade], [.order .rejected], [.order .deferred, .order .rejected],
        [.order .deferred, .order .accepted, .trade], [.order .accepted, .trade],
        [.order .deferred, .order .canceled]] ∧
      (shortRun .carry).intentsEmitted = (shortRun .carry).intents.length ∧
      (∀ k intent, 1 ≤ k → (shortRun .carry).intents[k - 1]? = some intent →
        life (shortRun .carry).floor.log.events.toList
            ((shortSimulation .carry).orderName k) ∈ lives ∧
          ∀ e ∈ (shortRun .carry).floor.log.events.toList,
            e.concerns ((shortSimulation .carry).orderName k) = true →
              e.ticket? = some ⟨(shortSimulation .carry).orderName k, intent.instrument,
                intent.side, intent.offset⟩) ∧
      Paired (shortRun .carry).floor.log.events.toList ∧
      ∀ e ∈ (shortRun .carry).floor.log.events.toList, ∀ ticket, e.ticket? = some ticket →
        ∃ k, 1 ≤ k ∧ k ≤ (shortRun .carry).intentsEmitted ∧
          ticket.traceId = (shortSimulation .carry).orderName k := by
  refine ⟨by decide +kernel, ?_⟩
  exact order_lifecycle rfl rfl rfl (through_shortSimulation .carry)

end MarketTape
