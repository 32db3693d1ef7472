import MarketTape.Proofs.Lifecycle
import MarketTape.Proofs.Told
import MarketTape.Proofs.Upkeep
import MarketTape.Report
import MarketTape.Strategy.Builtin

/-!
# The regime follower reaches its target

The regime follower computes its answer from the lots that it is shown, and the answer is carried
out order by order.  This could go wrong in several ways: an opening order that comes before the
position is closed would have to wait, one that is cut down would miss the target, and a position
that is moved onto lots of its own would double.  None of it happens.  Closing comes first and
closes all; opening then finds nothing; and a contract that a position is moved to is flat.

* `Leads` is a row of intents that trade in full one after the other, from some lots to others;
  `Follower.onState?_leads` says that the answers of the follower are such rows.
* `Run.Filled` says that all intents so far were filled in full, `Run.Steady` that besides every
  instrument holds the fixed number of lots, on either side, or none.
* `Simulation.Steered` is what is asked of a simulation; `Run.Steady.onBar?`, `Run.Steady.onTick?`
  and `Run.Steady.finish?` are its steps, which have a result unless a bar or a tick is refused.
* `follower_closed_loop` is the result.
-/

namespace MarketTape

variable {α : Type}

/-! ## Intents that trade in full -/

/-- An intent for an instrument that trades in full while some lots are held there. -/
structure Intent.Ready (o : Intent α) (instrument : String) (net : Int) : Prop where
  instrument : o.instrument = instrument
  volume : 0 < o.volume
  offset : (o.offset = .closing ∧ net ≠ 0 ∧ net.sign = -o.side.sign ∧ o.volume ≤ net.natAbs) ∨
    (o.offset = .opening ∧ (net = 0 ∨ net.sign = o.side.sign))

/-- A fill of the whole of an intent. -/
structure Intent.FilledBy (o : Intent α) (fill : Fill α) : Prop where
  instrument : fill.instrument = o.instrument
  side : fill.side = o.side
  offset : fill.offset = o.offset
  volume : fill.volume = o.volume
  traceId : fill.traceId = o.traceId

/-- A fixed number of lots, on either side, or none. -/
def Holds (volume n : Int) : Prop := n = -volume ∨ n = 0 ∨ n = volume

lemma Holds.natAbs_le {volume n : Int} (h : Holds volume n) (hvolume : 0 < volume)
    (hrange : volume ≤ Count.greatest) : (n.natAbs : Int) ≤ Count.greatest := by
  rcases h with rfl | rfl | rfl <;> omega

/-- Different numbers of lots lie on different sides, or one of them is none. -/
lemma Holds.sign_ne {volume n m : Int} (h : Holds volume n) (h' : Holds volume m)
    (hvolume : 0 < volume) (hne : n ≠ m) : n.sign ≠ m.sign := by
  have hone : volume.sign = 1 := Int.sign_eq_one_of_pos hvolume
  rcases h with rfl | rfl | rfl <;> rcases h' with rfl | rfl | rfl <;>
    simp [Int.sign_neg, hone] at hne ⊢

/-- Intents for an instrument that trade in full one after the other, from some lots to others, with
no other number of lots in between than the fixed one, on either side, or none. -/
inductive Leads (volume : Int) (instrument : String) : Int → List (Intent α) → Int → Prop
  | nil {n : Int} : Leads volume instrument n [] n
  | cons {n m : Int} {o : Intent α} {rest : List (Intent α)} (ready : o.Ready instrument n)
    (holds : Holds volume (n + o.side.sign * o.volume))
    (more : Leads volume instrument (n + o.side.sign * o.volume) rest m) :
    Leads volume instrument n (o :: rest) m

lemma Leads.append {volume : Int} {instrument : String} {n m k : Int} {os more : List (Intent α)}
    (h : Leads volume instrument n os m) (h' : Leads volume instrument m more k) :
    Leads volume instrument n (os ++ more) k := by
  induction h with
  | nil => exact h'
  | cons ready holds _ ih => exact .cons ready holds (ih h')

/-! ## The answers of the follower -/

namespace Follower

variable {volume : Int}

lemma holds_target {regime : Regime} {target : Int}
    (h : target? volume regime = some target) : Holds volume target := by
  cases regime with
  | warmup => cases h
  | trendUp => exact Or.inr (Or.inr (Option.some.inj h).symm)
  | trendDown => exact Or.inl (Option.some.inj h).symm
  | ranging => cases h
  | volatile => exact Or.inr (Or.inl (Option.some.inj h).symm)

/-- Lots away from the target are closed at once, all of them. -/
lemma leave?_leads (hvolume : 0 < volume) (hrange : volume ≤ Count.greatest) (f : Follower)
    {s : BarState α} {target : Int} (hnet : Holds volume s.net)
    (hsign : target.sign ≠ s.net.sign) :
    ∃ f' os, f.leave? s target = some (f', os) ∧
      Leads volume s.bar.instrument s.net os 0 := by
  rw [leave?]
  by_cases hheld : s.net = 0
  · rw [if_neg fun h => h.1 hheld, hheld]
    exact ⟨f, [], rfl, .nil⟩
  · have hside : s.net.sign = (Side.ofPosition s.net).sign := by
      rw [Side.ofPosition]
      split
      · exact Int.sign_eq_one_of_pos (by omega)
      · exact Int.sign_eq_neg_one_of_neg (by omega)
    have hsize := Side.sign_ofPosition s.net
    have hclosed : s.net + (Side.ofPosition s.net).opposite.sign * (s.net.natAbs : Int) = 0 := by
      rw [Side.sign_opposite, Int.neg_mul, hsize, Int.add_right_neg]
    rw [if_pos ⟨hheld, hsign⟩, Count.abs?_of_le (hnet.natAbs_le hvolume hrange)]
    refine ⟨_, _, rfl, .cons ⟨rfl, by simp only; omega, Or.inl ⟨rfl, hheld, ?_, le_rfl⟩⟩ ?_ ?_⟩
    · rw [hside, Side.sign_opposite, Int.neg_neg]
    · exact hclosed ▸ Or.inr (Or.inl rfl)
    · exact hclosed ▸ .nil

/-- From nothing the target is opened at once. -/
lemma enter?_leads (hvolume : 0 < volume) (hrange : volume ≤ Count.greatest) (f : Follower)
    {s : BarState α} {target : Int} (htarget : Holds volume target)
    (hsign : target.sign ≠ s.net.sign) :
    ∃ f' os, f.enter? s target = some (f', os) ∧
      Leads volume s.bar.instrument 0 os target := by
  rw [enter?]
  by_cases hzero : target = 0
  · rw [if_neg fun h => h.1 hzero, hzero]
    exact ⟨f, [], rfl, .nil⟩
  · have hsize := Side.sign_ofPosition target
    have hopened : 0 + (Side.ofPosition target).sign * (target.natAbs : Int) = target := by
      rw [hsize, Int.zero_add]
    rw [if_pos ⟨hzero, hsign⟩, Count.abs?_of_le (htarget.natAbs_le hvolume hrange)]
    refine ⟨_, _, rfl, .cons ⟨rfl, by simp only; omega, Or.inr ⟨rfl, Or.inl rfl⟩⟩ ?_ ?_⟩
    · exact hopened.symm ▸ htarget
    · exact hopened.symm ▸ .nil

/-- The follower answers every bar, and its intents lead to the lots that the regime calls for, if
it calls for any. -/
theorem onState?_leads (hvolume : 0 < volume) (hrange : volume ≤ Count.greatest) (f : Follower)
    {s : BarState α} (hnet : Holds volume s.net) :
    ∃ f' os m, f.onState? volume s = some (f', os) ∧
      Leads volume s.bar.instrument s.net os m ∧
      ∀ target, target? volume s.state.regime = some target → m = target := by
  rw [onState?]
  cases htarget : target? volume s.state.regime with
  | none => exact ⟨f, [], s.net, rfl, .nil, fun target h => by cases h⟩
  | some target =>
    simp only [Option.some.injEq, forall_eq']
    split
    · rename_i hsame
      exact ⟨f, [], s.net, rfl, .nil, hsame.symm⟩
    · rename_i hne
      have hholds := holds_target htarget
      have hsign := hholds.sign_ne hnet hvolume hne
      obtain ⟨left, leaving, hleave, hleads⟩ := leave?_leads hvolume hrange f hnet hsign
      obtain ⟨entered, entering, henter, hleads'⟩ :=
        enter?_leads hvolume hrange left hholds hsign
      rw [hleave]
      simp only [henter, Option.map_some]
      exact ⟨entered, leaving ++ entering, target, rfl, hleads.append hleads', rfl⟩

/-- The regime follower is made with a positive volume in range, and it declares all that it can
do. -/
lemma of_create {params : Json} {handle : StrategyHandle α}
    (h : builtins.create followerName params = .ok handle) :
    ∃ volume, followerVolume? params = some volume ∧ 0 < volume ∧ volume ≤ Count.greatest ∧
      handle = ⟨follower volume, ⟨true, true, true⟩⟩ := by
  have hget : (builtins : Registry α).factories.get? followerName = some followerFactory := by
    simp [builtins, Registry.insert, Table.get?_insert]
  rw [Registry.create, hget] at h
  simp only [followerFactory] at h
  split at h
  · cases h
  · rename_i volume hvolume
    rw [makeFollower] at h
    split at h
    · cases h
    · rename_i hpos
      refine ⟨volume, hvolume, by omega, ?_, (Except.ok.inj h).symm⟩
      have hone : (1 : Int) ≤ Count.greatest := by decide
      have hfit : ∀ {n : Int}, Count.fit n = some volume → volume ≤ Count.greatest :=
        fun hn => (Count.fits_of_fit hn).2
      unfold followerVolume? at hvolume
      split at hvolume
      · exact Option.some.inj hvolume ▸ hone
      · exact Option.some.inj hvolume ▸ hone
      · split at hvolume
        · exact hfit hvolume
        · cases hvolume
      · exact Option.some.inj hvolume ▸ hone
      · exact hfit hvolume
      · cases hvolume

end Follower

/-! ## Orders that are filled at once -/

variable [Scalar α]

namespace Floor

variable {f : Floor α} {o : Intent α} {bar : Bar α}

lemma decide?_of_ready {net : Int} (h : o.Ready bar.instrument net)
    (hclose : Scalar.zero < bar.close) (hrange : (net.natAbs : Int) ≤ Count.greatest) :
    decide? o bar net = some (.trade o.volume) := by
  have hvolume := h.volume
  have hsound : ¬ (o.volume ≤ 0 ∨ ¬ Scalar.zero < bar.close ∨ o.instrument ≠ bar.instrument) := by
    rintro (hnone | hprice | hother)
    · omega
    · exact hprice hclose
    · exact hother h.instrument
  rw [decide?, if_neg hsound]
  rcases h.offset with ⟨hoffset, hheld, hsign, hle⟩ | ⟨hoffset, hside⟩
  · rw [hoffset]
    simp only [if_pos (And.intro hheld hsign), Count.abs?_of_le hrange, Option.map_some,
      Int.min_eq_left hle]
  · rw [hoffset]
    refine if_neg ?_
    rintro ⟨hheld, hother⟩
    exact hside.elim hheld hother

/-- An intent that is ready trades, all of it. -/
lemma submit?_of_ready (h : o.Ready bar.instrument (f.book.net bar.instrument))
    (hclose : Scalar.zero < bar.close)
    (hrange : ((f.book.net bar.instrument).natAbs : Int) ≤ Count.greatest) {book : Book α}
    {profit : α}
    (ht : f.book.trade? bar.instrument o.side o.volume bar.close = some (book, profit)) :
    f.submit? o bar =
      some (f.afterFill o bar o.volume book, some (fillAtClose o bar o.volume)) := by
  rw [submit?, h.instrument, decide?_of_ready h hclose hrange]
  simp only [fill?, fillAtClose, ht, Option.map_some]
  rfl

omit [Scalar α] in
/-- Where nothing waits, there is nothing to drop. -/
lemma cancel_of_empty (h : f.desk.waiting = Table.empty) (instrument : String) (time : Int) :
    f.cancel instrument time = (f, 0) := by
  obtain ⟨⟨waiting, statuses⟩, book, log⟩ := f
  simp only at h
  subst h
  rfl

omit [Scalar α] in
lemma cancelAll_of_empty (h : f.desk.waiting = Table.empty) (time : Int) :
    f.cancelAll time = (f, 0) := by
  rw [cancelAll, h]
  rfl

/-- Where nothing waits, there is nothing to settle. -/
lemma settle?_of_empty (h : f.desk.waiting = Table.empty) (bar : Bar α) :
    f.settle? bar = some (f, []) := by
  obtain ⟨⟨waiting, statuses⟩, book, log⟩ := f
  simp only at h
  subst h
  rfl

end Floor

/-- A simulation whose strategy answers every bar with intents that lead to the lots that the regime
calls for, if it shows none but a fixed number of lots, on either side, or none. -/
structure Simulation.Steered (sim : Simulation α) (volume : Int) : Prop where
  deterministic : sim.deterministic = true
  capabilities : sim.capabilities = ⟨true, true, true⟩
  positive : 0 < volume
  range : volume ≤ Count.greatest
  answers : ∀ (memory : sim.strategy.State) (s : BarState α), Holds volume s.net →
    ∃ memory' os m, sim.strategy.onState memory s = some (memory', os) ∧
      Leads volume s.bar.instrument s.net os m ∧
      ∀ target, Follower.target? volume s.state.regime = some target → m = target

namespace Run

variable {sim : Simulation α} {run run' : Run sim} {done rest : List (Intent α)} {o : Intent α}
  {volume : Int} {bar : Bar α} {t : Tick α} {ticks : List (Tick α)}

/-- All intents so far but those still to come were filled in full, and the strategy was told of
it. -/
structure Filled (run : Run sim) (done pending : List (Intent α)) : Prop where
  waiting : run.floor.desk.waiting = Table.empty
  heard : sim.strategy.after run.calls.toList = (run.strategy, done ++ pending)
  told : List.Forall₂ Intent.FilledBy done (fillsIn run.calls.toList)
  statuses : run.floor.desk.statuses = ⟨done.length, done.length, 0, 0, 0⟩
  emitted : run.intentsEmitted = (done ++ pending).length

/-- Besides, every instrument holds a fixed number of lots, on either side, or none. -/
structure Steady (run : Run sim) (volume : Int) (done pending : List (Intent α)) : Prop
    extends Run.Filled run done pending where
  lots : ∀ instrument, Holds volume (run.floor.book.net instrument)

omit [Scalar α] in
/-- What is steady is the desk, the lots, the strategy and what it was told. -/
lemma Steady.congr {pending : List (Intent α)} (h : run.Steady volume done pending)
    (hdesk : run'.floor.desk = run.floor.desk)
    (hnet : ∀ instrument, run'.floor.book.net instrument = run.floor.book.net instrument)
    (hstrategy : run'.strategy = run.strategy) (hcalls : run'.calls = run.calls)
    (hemitted : run'.intentsEmitted = run.intentsEmitted) : run'.Steady volume done pending where
  waiting := hdesk ▸ h.waiting
  heard := by rw [hcalls, hstrategy]; exact h.heard
  told := hcalls ▸ h.told
  statuses := hdesk ▸ h.statuses
  emitted := hemitted ▸ h.emitted
  lots instrument := hnet instrument ▸ h.lots instrument

lemma steady_start (sim : Simulation α) (volume : Int) : (Run.start sim).Steady volume [] [] where
  waiting := rfl
  heard := rfl
  told := .nil
  statuses := rfl
  emitted := rfl
  lots _ := Or.inr (Or.inl rfl)

/-! ## On a bar -/

/-- The next intent of a row that leads somewhere is filled. -/
lemma Steady.settleIntent? (hsim : sim.Steered volume) (hclose : Scalar.zero < bar.close) {m : Int}
    (h : run.Steady volume done (o :: rest))
    (hleads : Leads volume bar.instrument (run.floor.book.net bar.instrument) (o :: rest) m) :
    ∃ run', run.settleIntent? bar o = some run' ∧
      run.floor.submit? o bar = some (run'.floor, some (fillAtClose o bar o.volume)) ∧
      run'.Steady volume (done ++ [o]) rest ∧
      Leads volume bar.instrument (run'.floor.book.net bar.instrument) rest m := by
  cases hleads with
  | cons ready holds more =>
    have hbefore := (h.lots bar.instrument).natAbs_le hsim.positive hsim.range
    have hafter := holds.natAbs_le hsim.positive hsim.range
    obtain ⟨book, profit, ht⟩ := Book.exists_trade? bar.close hbefore hafter
    have hnet : ∀ other, book.net other =
        if other = bar.instrument then run.floor.book.net bar.instrument + o.side.sign * o.volume
        else run.floor.book.net other := by
      intro other
      rw [Book.net_of_trade? ht]
      by_cases hother : other = bar.instrument
      · rw [if_pos ⟨hother, ready.volume⟩, if_pos hother, hother]
      · rw [if_neg fun hc => hother hc.1, if_neg hother]
    have hsubmit := Floor.submit?_of_ready ready hclose hbefore ht
    have hsettle : run.settleIntent? bar o = some
        (({ run with floor := run.floor.afterFill o bar o.volume book } : Run sim).tell
          (fillAtClose o bar o.volume)) := by
      have hname : run.name o = (run, o) := by rw [name, hsim.capabilities]; rfl
      have hopening : ¬ (o.offset = .opening ∧ sim.capabilities.opening = false) := by
        rw [hsim.capabilities]
        exact fun hc => absurd hc.2 (by decide)
      have haware : sim.capabilities.orderAware = true := by rw [hsim.capabilities]
      simp only [Run.settleIntent?, hname, if_neg hopening,
        hsubmit, Option.map_some, notify, haware, if_true]
      rfl
    refine ⟨_, hsettle, hsubmit, ⟨⟨h.waiting, ?_, ?_, ?_, ?_⟩, ?_⟩, ?_⟩
    · have hheard := sim.strategy.after_fills h.heard [fillAtClose o bar o.volume]
      rw [List.append_cons] at hheard
      simp only [tell, Array.toList_push]
      exact hheard
    · simp only [tell, Array.toList_push, fillsIn_append]
      exact List.rel_append h.told (.cons ⟨ready.instrument.symm, rfl, rfl, rfl, rfl⟩ .nil)
    · simp only [tell, Floor.afterFill, h.statuses, StatusCounts.increment, List.length_append,
        List.length_singleton]
    · rw [← List.append_cons]
      exact h.emitted
    · intro other
      simp only [tell, Floor.afterFill, hnet]
      split
      · exact holds
      · exact h.lots other
    · simp only [tell, Floor.afterFill, hnet, if_true]
      exact more

/-- The first intents of a row that leads somewhere are filled. -/
lemma Steady.settleIntents? (hsim : sim.Steered volume) (hclose : Scalar.zero < bar.close)
    {m : Int} : ∀ {os : List (Intent α)} {run : Run sim} {done : List (Intent α)},
      run.Steady volume done (os ++ rest) →
      Leads volume bar.instrument (run.floor.book.net bar.instrument) (os ++ rest) m →
        ∃ run', run.settleIntents? bar os = some run' ∧ run'.Steady volume (done ++ os) rest ∧
          Leads volume bar.instrument (run'.floor.book.net bar.instrument) rest m
  | [], run, done, h, hleads => ⟨run, rfl, by rw [List.append_nil]; exact h, hleads⟩
  | o :: os, run, done, h, hleads => by
    obtain ⟨next, hone, -, hnext, hnextLeads⟩ := h.settleIntent? hsim hclose hleads
    obtain ⟨run', hrest, hrun', hrunLeads⟩ := hnext.settleIntents? hsim hclose hnextLeads
    refine ⟨run', ?_, ?_, hrunLeads⟩
    · rw [Run.settleIntents?, hone]
      exact hrest
    · rw [List.append_cons]
      exact hrun'

omit [Scalar α] in
@[simp] lemma notify_nil (run : Run sim) : run.notify [] = run := by
  rw [notify]
  exact ite_self run

/-- Where nothing waits, there is nothing to settle. -/
lemma settleWaiting?_of_empty (h : run.floor.desk.waiting = Table.empty) (bar : Bar α) :
    run.settleWaiting? bar = some run := by
  rw [settleWaiting?, Floor.settle?_of_empty h]
  exact congrArg some (notify_nil run)

omit [Scalar α] in
/-- Where nothing waits, there is nothing to drop. -/
lemma dropWaiting_of_empty (hdet : sim.deterministic = true)
    (h : run.floor.desk.waiting = Table.empty) : run.dropWaiting = run := by
  rw [dropWaiting_eq hdet, Floor.cancelAll_of_empty h]

/-- Up to its answer nothing happens on a bar, and the answer leads to what the regime calls for. -/
lemma Steady.asked (hsim : sim.Steered volume) (h : run.Steady volume done [])
    {detector : sim.detector.State} {state : MarketState α}
    (hobserve : sim.detector.observe run.detector bar = some (detector, state)) :
    ∃ described settled asked os m, run.describe? bar = some (described, state) ∧
      described.settleWaiting? bar = some settled ∧
      settled.askAbout? bar state = some (asked, os) ∧ asked.Steady volume done os ∧
      described.floor.desk.waiting = Table.empty ∧
      Leads volume bar.instrument (asked.floor.book.net bar.instrument) os m ∧
      ∀ target, Follower.target? volume state.regime = some target → m = target := by
  obtain ⟨memory, os, m, honState, hleads, htarget⟩ :=
    hsim.answers run.strategy (run.shown bar state) (h.lots bar.instrument)
  have hsettled : ({ run with detector, barsEmitted := run.barsEmitted + 1 } :
      Run sim).settleWaiting? bar =
        some { run with detector, barsEmitted := run.barsEmitted + 1 } := by
    refine settleWaiting?_of_empty ?_ bar
    exact h.waiting
  refine ⟨{ run with detector, barsEmitted := run.barsEmitted + 1 },
    { run with detector, barsEmitted := run.barsEmitted + 1 },
    { run with
      detector, barsEmitted := run.barsEmitted + 1, strategy := memory
      intentsEmitted := run.intentsEmitted + os.length
      calls := run.calls.push (.state (run.shown bar state)) }, os, m, ?_, hsettled, ?_, ?_,
    h.waiting, hleads, htarget⟩
  · rw [describe?, hobserve]
    rfl
  · have honState' : sim.strategy.onState run.strategy
        ⟨bar, state, run.floor.book.net bar.instrument⟩ = some (memory, os) := honState
    rw [askAbout?, ask?, honState']
    rfl
  · have hheard := h.heard
    rw [List.append_nil] at hheard
    refine ⟨⟨h.waiting, ?_, ?_, h.statuses, ?_⟩, h.lots⟩
    · rw [Array.toList_push, Strategy.after_append, hheard]
      simp only [List.foldl_cons, List.foldl_nil, Strategy.hear, honState]
    · rw [Array.toList_push, fillsIn_append]
      exact (List.append_nil _).symm ▸ h.told
    · simp only [h.emitted, List.append_nil, List.length_append]

/-- A closed bar has a result, unless the detector refuses it: its intents are filled, and its
instrument holds what the regime calls for. -/
theorem Steady.onBar? (hsim : sim.Steered volume) (hclose : Scalar.zero < bar.close)
    (h : run.Steady volume done []) {detector : sim.detector.State} {state : MarketState α}
    (hobserve : sim.detector.observe run.detector bar = some (detector, state)) :
    ∃ run' done', run.onBar? bar = some run' ∧ run'.Steady volume done' [] ∧
      ∀ target, Follower.target? volume state.regime = some target →
        run'.floor.book.net bar.instrument = target := by
  obtain ⟨described, settled, asked, os, m, hd, hs, ha, hasked, -, hleads, htarget⟩ :=
    h.asked hsim hobserve
  rw [← List.append_nil os] at hasked hleads
  obtain ⟨answered, hi, hanswered, hdone⟩ := hasked.settleIntents? hsim hclose hleads
  have hm : answered.floor.book.net bar.instrument = m := by
    cases hdone
    rfl
  refine ⟨answered.recordEquity bar, done ++ os, ?_, ?_, ?_⟩
  · simp only [Run.onBar?, hd, hsim.deterministic, if_true, Option.bind_eq_bind, Option.bind_some,
      hs, ha, hi]
  · exact hanswered.congr rfl (fun _ => rfl) rfl rfl rfl
  · intro target hregime
    exact hm.trans (htarget target hregime)

/-- Before and after every single fill the lots are as they should be. -/
lemma Steady.fillsOn (hsim : sim.Steered volume) (hclose : Scalar.zero < bar.close)
    (h : run.Steady volume done []) {f f' : Floor α} {fill : Fill α}
    (hfill : run.FillsOn bar f fill f') :
    ∀ instrument, Holds volume (f.book.net instrument) ∧ Holds volume (f'.book.net instrument) := by
  cases hfill with
  | deferred hdescribed hdue hbefore hone =>
    obtain ⟨detector, hobserve, rfl⟩ := describe?_cases hdescribed
    have hwaiting : run.floor.desk.waitingFor bar.instrument = [] := by
      rw [Desk.waitingFor, h.waiting]
      rfl
    have hnone := hdue.symm.trans hwaiting
    simp at hnone
  | @direct described settled asked answered state before after o _ _ hdescribed hsettled hasked
      hbefore hone =>
    obtain ⟨detector, hobserve, -⟩ := describe?_cases hdescribed
    obtain ⟨described', settled', asked', os, m, hd, hs, ha, hsteady, -, hleads, -⟩ :=
      h.asked hsim hobserve
    obtain ⟨rfl, -⟩ := Prod.mk.inj (Option.some.inj (hdescribed.symm.trans hd))
    obtain rfl := Option.some.inj (hsettled.symm.trans hs)
    obtain ⟨rfl, rfl⟩ := Prod.mk.inj (Option.some.inj (hasked.symm.trans ha))
    obtain ⟨answered', hi, hanswered, hrest⟩ := hsteady.settleIntents? hsim hclose hleads
    obtain rfl := Option.some.inj (hbefore.symm.trans hi)
    obtain ⟨next, -, hsubmit, hnext, -⟩ := hanswered.settleIntent? hsim hclose hrest
    have hname : answered.name o = (answered, o) := by rw [name, hsim.capabilities]; rfl
    rw [hname, hsubmit] at hone
    obtain ⟨rfl, -⟩ := Prod.mk.inj (Option.some.inj hone)
    intro instrument
    exact ⟨hanswered.lots instrument, hnext.lots instrument⟩

/-! ## On a tick -/

/-- The open bar, if there is one, has a positive price. -/
def Priced (run : Run sim) : Prop := ∀ b, run.bars.current = some b → Scalar.zero < b.close

/-- A tick that a run cannot take for reasons that have nothing to do with positions: its time has
no bucket, or the detector refuses the bar that it closes. -/
def Refuses (run : Run sim) (t : Tick α) : Prop :=
  run.bars.push? t = none ∨ ∃ bars bar, run.bars.push? t = some (bars, some bar) ∧
    sim.detector.observe run.detector bar = none

/-- A last bar that the detector refuses. -/
def RefusesLast (run : Run sim) : Prop :=
  ∃ bar, run.bars.flush.2 = some bar ∧ sim.detector.observe run.detector bar = none

/-- A tick that is refused has no result. -/
lemma Refuses.onTick? (hdet : sim.deterministic = true) (h : run.Refuses t) :
    run.onTick? t = none := by
  have hcount : (run.count t).bars.push? t = run.bars.push? t := rfl
  have hmid : run.uptoMark? t = none := by
    rw [Run.uptoMark?, hcount]
    rcases h with hnone | ⟨bars, bar, hpush, hobserve⟩
    · rw [hnone]
      rfl
    · have hdescribe : ({ run.count t with bars } : Run sim).describe? bar = none := by
        rw [describe?]
        exact congrArg (Option.map _) hobserve
      rw [hpush]
      simp only [Option.bind_eq_bind, Option.bind_some, onClosed?, Run.onBar?, hdescribe,
        Option.bind_none]
  rw [onTick?_eq hdet, hmid]
  rfl

/-- A run whose last bar is refused has no end. -/
lemma RefusesLast.finish? (h : run.RefusesLast) : run.finish? = none := by
  obtain ⟨bar, hflush, hobserve⟩ := h
  have hdescribe : ({ run with bars := run.bars.flush.1 } : Run sim).describe? bar = none := by
    rw [describe?]
    exact congrArg (Option.map _) hobserve
  rw [finish?_eq, closing?, hflush]
  simp only [onClosed?, Run.onBar?, hdescribe, Option.bind_eq_bind, Option.bind_none,
    Option.map_none]

lemma Priced.closes {fed : Run sim} (h : fed.Priced) (hcloses : fed.Closes bar run) :
    Scalar.zero < bar.close := by
  obtain ⟨⟨b, hb, rfl⟩, -, -⟩ := hcloses.cases
  exact h b hb

/-- A bar that is closed has a result, unless the detector refuses it. -/
lemma Steady.closes (hsim : sim.Steered volume) {fed : Run sim} (h : fed.Steady volume done [])
    (hpriced : fed.Priced) (hcloses : fed.Closes bar run) {detector : sim.detector.State}
    {state : MarketState α}
    (hobserve : sim.detector.observe fed.detector bar = some (detector, state)) :
    ∃ run' done', run.onBar? bar = some run' ∧ run'.Steady volume done' [] ∧
      ∀ target, Follower.target? volume state.regime = some target →
        run'.floor.book.net bar.instrument = target := by
  have hclose := hpriced.closes hcloses
  cases hcloses with
  | @tick t bars bar hpush =>
    have hcounted : ({ fed.count t with bars } : Run sim).Steady volume done [] :=
      h.congr rfl (fun _ => rfl) rfl rfl rfl
    exact hcounted.onBar? hsim hclose hobserve
  | finish hflush =>
    have hflushed : ({ fed with bars := fed.bars.flush.1 } : Run sim).Steady volume done [] :=
      h.congr rfl (fun _ => rfl) rfl rfl rfl
    exact hflushed.onBar? hsim hclose hobserve

/-- A tick up to its mark has a result, unless it is refused. -/
lemma Steady.uptoMark? (hsim : sim.Steered volume) (h : run.Steady volume done [])
    (hpriced : run.Priced) (t : Tick α) :
    (∃ mid done', run.uptoMark? t = some mid ∧ mid.Steady volume done' []) ∨ run.Refuses t := by
  cases hpush : run.bars.push? t with
  | none => exact Or.inr (Or.inl hpush)
  | some pushed =>
    obtain ⟨bars, closed⟩ := pushed
    have hstep : run.uptoMark? t = ({ run.count t with bars } : Run sim).onClosed? closed := by
      have hcount : (run.count t).bars.push? t = some (bars, closed) := hpush
      rw [Run.uptoMark?, hcount]
      rfl
    rw [hstep]
    cases closed with
    | none =>
      exact Or.inl ⟨_, done, rfl,
        h.congr rfl (fun _ => rfl) rfl rfl rfl⟩
    | some bar =>
      cases hobserve : sim.detector.observe run.detector bar with
      | none => exact Or.inr (Or.inr ⟨bars, bar, hpush, hobserve⟩)
      | some observed =>
        obtain ⟨mid, done', hmid, hsteady, -⟩ := h.closes hsim hpriced (.tick hpush) hobserve
        exact Or.inl ⟨mid, done', hmid, hsteady⟩

/-- Where the contract of a tick is followed, a position goes to a flat contract as it is. -/
lemma Steady.followContract? (hsim : sim.Steered volume) (h : run.Steady volume done [])
    (hfollows : ∀ r, run.rollover = some r → Follows ticks r run.floor.book) (t : Tick α) :
    ∃ run', run.followContract? t = some run' ∧ run'.Steady volume done [] := by
  rw [Run.followContract?]
  cases hr : run.rollover with
  | none => exact ⟨run, rfl, h⟩
  | some r =>
    cases hd : r.detect t run.floor.book with
    | mk seen pending =>
      simp only [hd]
      rcases Rollover.detect_cases hd with ⟨-, rfl, rfl⟩ | ⟨-, rfl, rfl⟩ |
        ⟨source, hactive, hne, hheld, rfl, rfl⟩
      · exact ⟨_, rfl, h.congr rfl (fun _ => rfl) rfl rfl rfl⟩
      · exact ⟨_, rfl, h.congr rfl (fun _ => rfl) rfl rfl rfl⟩
      · have hdue : r.Due ticks t source run.floor.book := ⟨hfollows r hr, hactive, hne, hheld⟩
        have hrange := (h.lots source).natAbs_le hsim.positive hsim.range
        obtain ⟨m, hm⟩ := Rollover.exists_move?
          (p := ⟨underlying t.instrument, source, t.instrument⟩) (r.see t) t hne
          ((r.see t).hasRoom_of_flat hrange hdue.flat)
        simp only [roll?, Floor.cancel_of_empty h.waiting, Rollover.execute?, hm, Option.map_some]
        refine ⟨_, rfl, ⟨⟨h.waiting, h.heard, h.told, h.statuses, h.emitted⟩, ?_⟩⟩
        intro instrument
        have hnet := Rollover.net_of_move? hne hheld hm instrument
        simp only at hnet ⊢
        rw [hnet, hdue.flat, Int.zero_add]
        split
        · exact Or.inr (Or.inl rfl)
        · split
          · exact h.lots source
          · exact h.lots instrument

/-- A tick with a positive price has a result, unless it is refused. -/
theorem Steady.onTick? (hsim : sim.Steered volume) (hfeed : (Run.start sim).feed ticks = .ok run)
    (h : run.Steady volume done []) (hpriced : run.Priced) (hlast : Scalar.zero < t.last) :
    (∃ run' done', run.onTick? t = some run' ∧ run'.Steady volume done' [] ∧ run'.Priced) ∨
      run.Refuses t := by
  rcases h.uptoMark? hsim hpriced t with ⟨mid, done', hmid, hsteady⟩ | hrefuses
  · have hmarked : (mid.mark t).Steady volume done' [] :=
      hsteady.congr rfl (fun _ => rfl) rfl rfl rfl
    have harrive : run.arrive? t = some (mid.mark t) := by rw [arrive?_eq, hmid]; rfl
    obtain ⟨run', hfollow, hrun'⟩ := hmarked.followContract? hsim
      (fun r hr => (follows_arrive hsim.deterministic hfeed harrive hr).2) t
    refine Or.inl ⟨run', done', ?_, hrun', ?_⟩
    · rw [onTick?_eq hsim.deterministic, hmid]
      exact hfollow
    · obtain ⟨bars, closed, hpush, hclosed⟩ := uptoMark?_cases hmid
      obtain ⟨b, hb, hends⟩ := Bars.push?_endsWith hpush
      obtain ⟨floor, rollover, rfl⟩ := followContract?_frame hfollow
      have hbars : mid.bars = bars := (onClosed?_sameTape hclosed).bars
      intro current hcurrent
      have hcurrent' : mid.bars.current = some current := hcurrent
      rw [hbars, hb, Option.some.injEq] at hcurrent'
      rw [← hcurrent', hends.close]
      exact hlast
  · exact Or.inr hrefuses

lemma Steady.onTick?_eq_none_iff (hsim : sim.Steered volume)
    (hfeed : (Run.start sim).feed ticks = .ok run) (h : run.Steady volume done [])
    (hpriced : run.Priced) (hlast : Scalar.zero < t.last) :
    run.onTick? t = none ↔ run.Refuses t := by
  refine ⟨fun hnone => ?_, fun hrefuses => hrefuses.onTick? hsim.deterministic⟩
  rcases h.onTick? hsim hfeed hpriced hlast with ⟨run', done', hsome, -⟩ | hrefuses
  · rw [hnone] at hsome
    cases hsome
  · exact hrefuses

/-! ## Whole runs -/

lemma steady_feed (hsim : sim.Steered volume) (h : (Run.start sim).feed ticks = .ok run)
    (hprices : ∀ t ∈ ticks, Scalar.zero < t.last) :
    (∃ done, run.Steady volume done []) ∧ run.Priced := by
  refine feed_induct (P := fun ticks run => (∀ t ∈ ticks, Scalar.zero < t.last) →
    (∃ done, run.Steady volume done []) ∧ run.Priced) ?_ ?_ h hprices
  · intro _
    exact ⟨⟨[], steady_start sim volume⟩, fun b hb => by cases hb⟩
  · intro ticks run t run' hfeed ih ht hprices
    obtain ⟨⟨done, hrun⟩, hpriced⟩ := ih fun u hu => hprices u (List.mem_append_left _ hu)
    rcases hrun.onTick? hsim hfeed hpriced (hprices t (by simp)) with
      ⟨next, done', hnext, hsteady, hpriced'⟩ | hrefuses
    · obtain rfl := Option.some.inj (ht.symm.trans hnext)
      exact ⟨⟨done', hsteady⟩, hpriced'⟩
    · rw [hrefuses.onTick? hsim.deterministic] at ht
      cases ht

/-- The end of a run has a result, unless the detector refuses the last bar. -/
lemma Steady.finish? (hsim : sim.Steered volume) (h : run.Steady volume done [])
    (hpriced : run.Priced) :
    (∃ run' done', run.finish? = some run' ∧ run'.Steady volume done' []) ∨ run.RefusesLast := by
  have hover : ∀ {last : Run sim} {done' : List (Intent α)}, last.Steady volume done' [] →
      last.shutdown.dropWaiting.Steady volume done' [] := by
    intro last done' hlast
    have hnothing : last.shutdown.dropWaiting = last.shutdown :=
      dropWaiting_of_empty hsim.deterministic hlast.waiting
    rw [hnothing]
    exact ⟨⟨hlast.waiting, (after_shutdown last).trans hlast.heard,
      (fillsIn_shutdown last).symm ▸ hlast.told, hlast.statuses, hlast.emitted⟩, hlast.lots⟩
  rw [finish?_eq, closing?]
  cases hflush : run.bars.flush.2 with
  | none =>
    have hflushed : ({ run with bars := run.bars.flush.1 } : Run sim).Steady volume done [] :=
      h.congr rfl (fun _ => rfl) rfl rfl rfl
    exact Or.inl ⟨_, done, rfl, hover hflushed⟩
  | some bar =>
    cases hobserve : sim.detector.observe run.detector bar with
    | none => exact Or.inr ⟨bar, hflush, hobserve⟩
    | some observed =>
      obtain ⟨last, done', hlast, hsteady, -⟩ := h.closes hsim hpriced (.finish hflush) hobserve
      refine Or.inl ⟨_, done', ?_, hover hsteady⟩
      rw [onClosed?, hlast]
      rfl

lemma Steady.finish?_eq_none_iff (hsim : sim.Steered volume) (h : run.Steady volume done [])
    (hpriced : run.Priced) : run.finish? = none ↔ run.RefusesLast := by
  refine ⟨fun hnone => ?_, fun hrefuses => hrefuses.finish?⟩
  rcases h.finish? hsim hpriced with ⟨run', done', hsome, -⟩ | hrefuses
  · rw [hnone] at hsome
    cases hsome
  · exact hrefuses

/-- A run in which every intent was filled in full, in the order in which they were given, in which
orders reached no other status, and in which every instrument holds a fixed number of lots, on
either side, or none. -/
structure ClosedLoop (run : Run sim) (volume : Int) : Prop where
  emitted : run.intents.length = run.intentsEmitted
  filled : List.Forall₂ Intent.FilledBy run.intents (fillsIn run.calls.toList)
  statuses : run.floor.desk.statuses = ⟨run.intentsEmitted, run.intentsEmitted, 0, 0, 0⟩
  lots : ∀ instrument, Holds volume (run.floor.book.net instrument)

omit [Scalar α] in
lemma Steady.closedLoop (h : run.Steady volume done []) : run.ClosedLoop volume := by
  have hintents : run.intents = done := by rw [intents, h.heard, List.append_nil]
  have hemitted : run.intentsEmitted = done.length := by rw [h.emitted, List.append_nil]
  exact ⟨by rw [hintents, hemitted], hintents ▸ h.told, by rw [hemitted, h.statuses], h.lots⟩

end Run

/-- Where all that happened is that orders were filled, nothing else is counted. -/
lemma StatusCounts.histogram_filled (n : Nat) : (StatusCounts.mk n n 0 0 0).histogram =
    if n = 0 then [] else [("ACCEPTED", n), ("FILLED", n)] := by
  cases n <;> rfl

/-- The simulation with a strategy in the place of its own. -/
def Simulation.withStrategy (sim : Simulation α) (handle : StrategyHandle α) : Simulation α :=
  { sim with strategy := handle.strategy, capabilities := handle.capabilities }

/-- The regime follower that was made with a number of lots, in a simulation of any other terms with
any detector, over ticks with positive prices.

After every tick and at the end every intent has been filled in full, the histogram counts nothing
but that, and every instrument holds the number of lots, on either side, or none; so it is before
and after every single fill.  A tick of a positive price stops the run only if its time has no
bucket or the detector refuses the bar that it closes, so no number of lots ever leaves its range.
And after a bar in a rising, a falling or a swinging market its instrument holds just the lots to be
held there. -/
theorem follower_closed_loop {sim : Simulation α} (hdet : sim.deterministic = true) {params : Json}
    {handle : StrategyHandle α} (hmade : builtins.create followerName params = .ok handle)
    {ticks : List (Tick α)} (hprices : ∀ t ∈ ticks, Scalar.zero < t.last) :
    ∃ volume, followerVolume? params = some volume ∧ 0 < volume ∧
      (∀ fed, (Run.start (sim.withStrategy handle)).feed ticks = .ok fed →
        fed.ClosedLoop volume ∧
          (∀ t, Scalar.zero < t.last → (fed.onTick? t = none ↔ fed.Refuses t)) ∧
          (fed.finish? = none ↔ fed.RefusesLast) ∧
          ∀ bar run, fed.Closes bar run →
            (∀ f fill f', run.FillsOn bar f fill f' → ∀ instrument,
              Holds volume (f.book.net instrument) ∧ Holds volume (f'.book.net instrument)) ∧
            ∀ detector state,
              (sim.withStrategy handle).detector.observe fed.detector bar = some (detector, state) →
                ∃ run', run.onBar? bar = some run' ∧ run'.ClosedLoop volume ∧
                  ∀ target, Follower.target? volume state.regime = some target →
                    run'.floor.book.net bar.instrument = target) ∧
      ∀ run, Run.through (sim.withStrategy handle) ticks = .ok run →
        run.ClosedLoop volume ∧
          (PositionReport.of run).performance.orderStatus =
            if run.intentsEmitted = 0 then []
            else [("ACCEPTED", run.intentsEmitted), ("FILLED", run.intentsEmitted)] := by
  obtain ⟨volume, hparams, hpositive, hrange, rfl⟩ := Follower.of_create hmade
  have hsim : (sim.withStrategy ⟨follower volume, ⟨true, true, true⟩⟩).Steered volume :=
    ⟨hdet, rfl, hpositive, hrange, fun f s hnet => Follower.onState?_leads hpositive hrange f hnet⟩
  refine ⟨volume, hparams, hpositive, ?_, ?_⟩
  · intro fed hfed
    obtain ⟨⟨done, hsteady⟩, hpriced⟩ := Run.steady_feed hsim hfed hprices
    refine ⟨hsteady.closedLoop, ?_, ?_, ?_⟩
    · intro t hlast
      exact hsteady.onTick?_eq_none_iff hsim hfed hpriced hlast
    · exact hsteady.finish?_eq_none_iff hsim hpriced
    · intro bar run hcloses
      have hclose := hpriced.closes hcloses
      refine ⟨?_, ?_⟩
      · intro f fill f' hfill
        have hrun : run.Steady volume done [] := by
          cases hcloses <;>
            exact hsteady.congr rfl (fun _ => rfl) rfl rfl rfl
        exact hrun.fillsOn hsim hclose hfill
      · intro detector state hobserve
        obtain ⟨run', done', hbar, hrun', htarget⟩ := hsteady.closes hsim hpriced hcloses hobserve
        exact ⟨run', hbar, hrun'.closedLoop, htarget⟩
  · intro run hthrough
    obtain ⟨fed, hfed, hfinish⟩ := Run.through_cases hthrough
    obtain ⟨⟨done, hsteady⟩, hpriced⟩ := Run.steady_feed hsim hfed hprices
    rcases hsteady.finish? hsim hpriced with ⟨run', done', hrun', hend⟩ | hrefuses
    · obtain rfl := Option.some.inj (hfinish.symm.trans hrun')
      have hloop := hend.closedLoop
      refine ⟨hloop, ?_⟩
      rw [← StatusCounts.histogram_filled, ← hloop.statuses]
      rfl
    · rw [hrefuses.finish?] at hfinish
      cases hfinish

/-! ## Three lots through a turning market

The market rises, falls and stands still while one contract trades, then swings and rises again in
the next one, to which the position is moved in between.
-/

/-- Goes through these regimes, bar by bar. -/
def turningDetector : Detector Float where
  State := List Regime
  start := [.trendUp, .trendDown, .ranging, .volatile, .trendUp]
  observe regimes _ := some (regimes.tail, ⟨0, 0, 0, 0, 0, 0, 0, regimes.headD .warmup⟩)

/-- What is simulated, before the follower takes the place of the idle strategy. -/
def turningMarket : Simulation Float where
  deterministic := true
  bucketWidth := 60
  rollover := some ⟨.strict, ⟨.quote, 10⟩⟩
  logging := false
  strategyName := followerName
  capabilities := { opening := false, orderAware := false, traceProvider := false }
  strategy := idle
  detector := turningDetector

/-- The ticks of both contracts. -/
def turningTicks : List (Tick Float) :=
  [⟨"rb2405", 0, 100, 1, 99, 1, 101, 1⟩, ⟨"rb2405", 60, 103, 2, 102, 1, 104, 1⟩,
    ⟨"rb2405", 120, 101, 3, 100, 1, 102, 1⟩, ⟨"rb2410", 180, 99, 1, 98, 1, 100, 1⟩,
    ⟨"rb2410", 240, 98, 2, 97, 1, 99, 1⟩]

/-- Three lots are bought, turned round, moved to the next contract, closed there and bought again:
five intents, all of them filled. -/
theorem follower_closed_loop_turningMarket :
    ∃ (handle : StrategyHandle Float) (run : Run (turningMarket.withStrategy handle)),
      builtins.create followerName (.obj [("volume", .int 3)]) = .ok handle ∧
        Run.through (turningMarket.withStrategy handle) turningTicks = .ok run ∧
        (run.intentsEmitted = 5 ∧ run.floor.book.net "rb2405" = 0 ∧
          run.floor.book.net "rb2410" = 3) ∧
        run.ClosedLoop 3 ∧
        (PositionReport.of run).performance.orderStatus = [("ACCEPTED", 5), ("FILLED", 5)] := by
  have hmade : (builtins : Registry Float).create followerName (.obj [("volume", .int 3)]) =
      .ok ⟨follower 3, ⟨true, true, true⟩⟩ := rfl
  have hvalues : (Run.through (turningMarket.withStrategy ⟨follower 3, ⟨true, true, true⟩⟩)
      turningTicks).toOption.map (fun run => (run.intentsEmitted, run.floor.book.net "rb2405",
        run.floor.book.net "rb2410")) = some (5, 0, 3) := by decide +kernel
  obtain ⟨run, hrun, hvalues⟩ := Run.exists_of_through hvalues
  simp only [Prod.mk.injEq] at hvalues
  have hprices : ∀ t ∈ turningTicks, Scalar.zero < t.last := by decide +kernel
  have hdet : turningMarket.deterministic = true := rfl
  obtain ⟨volume, hvolume, -, -, hend⟩ := follower_closed_loop hdet hmade hprices
  obtain rfl : 3 = volume := Option.some.inj hvolume
  obtain ⟨hloop, hstatus⟩ := hend run hrun
  rw [hvalues.1] at hstatus
  exact ⟨_, run, hmade, hrun, hvalues, hloop, hstatus⟩

end MarketTape
