import Mathlib.Tactic.FieldSimp
import Mathlib.Tactic.Linarith
import Mathlib.Tactic.Positivity
import MarketTape.Proofs.Exact
import MarketTape.Proofs.Table
import MarketTape.Proofs.Upkeep
import MarketTape.Report
import MarketTape.Strategy.Scripted

/-!
# The final check finds nothing

Read in exact numbers, a position with lots has a positive average price and a flat one has none, as
long as every trade that leaves lots behind has a positive price.  Orders trade at the close of a
bar, and only if it is positive.  A rollover trades at a price of a tick with slippage, and what is
sold loses by it: the price stays positive as long as slippage takes less than the whole of it.

That bound is not among the conditions on settings, which ask only for slippage that is not
negative.  At the bound a sold lot is moved to a contract at a price of zero, and the final check
reports it.

* `Position.Sound` is what is to hold of a position; `Position.Sound.trade?` says what a trade needs
  to keep it, and `LegPricing.price_pos` when a rollover trades at a positive price.
* `violations_eq_nil` says that the check finds nothing in a sound book.
* `final_positions_sound` is the result, and `soldLot_violation` is a run at the bound.
-/

namespace MarketTape

/-! ## Positions -/

namespace Position

/-- A flat position has no average price, any other has a positive one. -/
structure Sound (p : Position ℚ) : Prop where
  flat : p.net = 0 → p.average = 0
  held : p.net ≠ 0 → 0 < p.average

lemma sound_flat : (flat : Position ℚ).Sound := ⟨fun _ => rfl, fun h => absurd rfl h⟩

variable {p p' : Position ℚ} {side : Side} {volume : Int} {price profit : ℚ}

/-- Taking lots on leaves lots. -/
lemma net_ne_zero_of_grow? (hvolume : 0 < volume) (hside : p.net = 0 ∨ p.net.sign = side.sign)
    (hg : p.grow? side volume price = some p') : p'.net ≠ 0 := by
  rw [net_of_grow? hg]
  rcases hside with hnet | hsign
  · rcases side.sign_eq with hs | hs <;> rw [hs] <;> omega
  · rcases side.sign_eq with hs | hs <;> rw [hs] at hsign ⊢
    · have hlong := Int.sign_eq_one_iff_pos.mp hsign
      omega
    · have hshort := Int.sign_eq_neg_one_iff_neg.mp hsign
      omega

/-- Lots that are taken on at a positive price leave a positive average. -/
lemma Sound.grow? (h : p.Sound) (hvolume : 0 < volume) (hside : p.net = 0 ∨ p.net.sign = side.sign)
    (hprice : 0 < price) (hg : p.grow? side volume price = some p') : p'.Sound := by
  have hheld := net_ne_zero_of_grow? hvolume hside hg
  refine ⟨fun hflat => absurd hflat hheld, fun _ => ?_⟩
  simp only [Position.grow?, Option.bind_eq_bind, Option.bind_eq_some_iff, Option.some.injEq] at hg
  obtain ⟨before, hbefore, net, -, after, hafter, rfl⟩ := hg
  have hafterPos : (0 : ℚ) < after := by exact_mod_cast Count.pos_of_abs? hheld hafter
  have hvolumePos : (0 : ℚ) < volume := by exact_mod_cast hvolume
  have hold : 0 ≤ p.average * before := by
    by_cases hnet : p.net = 0
    · rw [h.flat hnet, zero_mul]
    · have hbeforePos : (0 : ℚ) < before := by exact_mod_cast Count.pos_of_abs? hnet hbefore
      have haverage := h.held hnet
      positivity
  simp only [Scalar.ofInt_exact]
  positivity

/-- Closing lots leaves the average alone, or nothing, or lots of the other side at the price of the
trade. -/
lemma Sound.reduce? (h : p.Sound) (hnet : p.net ≠ 0) (hprice : 0 < price ∨ p'.net = 0)
    (hr : p.reduce? side volume price = some (p', profit)) : p'.Sound := by
  simp only [Position.reduce?, Option.bind_eq_bind, Option.bind_eq_some_iff, Option.some.injEq,
    Prod.mk.injEq] at hr
  obtain ⟨held, -, net, -, hp', -⟩ := hr
  split at hp'
  · rename_i hleft
    have hopen : side.sign * (volume - min volume held) ≠ 0 := by
      rcases side.sign_eq with hs | hs <;> rw [hs] <;> omega
    subst hp'
    exact ⟨fun hflat => absurd hflat hopen, fun _ => hprice.resolve_right hopen⟩
  · split at hp'
    · subst hp'
      exact ⟨fun _ => rfl, fun hheld => absurd rfl hheld⟩
    · rename_i hrest
      subst hp'
      exact ⟨fun hflat => absurd hflat hrest, fun _ => h.held hnet⟩

/-- A trade keeps a position sound if its price is positive or nothing is left. -/
theorem Sound.trade? (h : p.Sound) (hprice : 0 < price ∨ p'.net = 0)
    (ht : p.trade? side volume price = some (p', profit)) : p'.Sound := by
  rw [Position.trade?] at ht
  split at ht
  · simp only [Option.some.injEq, Prod.mk.injEq] at ht
    exact ht.1 ▸ h
  · rename_i hvolume
    rw [not_le] at hvolume
    split at ht
    · rename_i hside
      simp only [Option.map_eq_some_iff, Prod.mk.injEq] at ht
      obtain ⟨q, hq, rfl, -⟩ := ht
      exact h.grow? hvolume hside (hprice.resolve_right (net_ne_zero_of_grow? hvolume hside hq)) hq
    · rename_i hside
      rw [not_or] at hside
      exact h.reduce? hside.1 hprice ht

end Position

/-! ## Books -/

namespace Book

def Sound (b : Book ℚ) : Prop := ∀ instrument, (b.position instrument).Sound

variable {b b' : Book ℚ}

lemma sound_empty : (empty : Book ℚ).Sound := fun _ => Position.sound_flat

lemma Sound.mark (h : b.Sound) (instrument : String) (price : ℚ) :
    (b.mark instrument price).Sound :=
  h

lemma Sound.put (h : b.Sound) (instrument : String) {p : Position ℚ} (hp : p.Sound) :
    (b.put instrument p).Sound := by
  intro other
  rw [position_put]
  split
  · exact hp
  · exact h other

/-- A trade keeps a book sound if its price is positive or its instrument is flat afterwards. -/
lemma Sound.trade? {instrument : String} {side : Side} {volume : Int} {price profit : ℚ}
    (h : b.Sound) (hprice : 0 < price ∨ b'.net instrument = 0)
    (ht : b.trade? instrument side volume price = some (b', profit)) : b'.Sound := by
  obtain ⟨p, hp, rfl⟩ := trade?_cases ht
  rw [net_put, if_pos rfl] at hprice
  exact h.put instrument ((h instrument).trade? hprice hp)

lemma Sound.handOver (h : b.Sound) (source target : String) : (b.handOver source target).Sound :=
  (h.put source Position.sound_flat).put target ⟨(h source).flat, (h source).held⟩

end Book

/-! ## Rollovers -/

namespace LegPricing

variable {p : LegPricing ℚ} {t : Tick ℚ}

/-- A price that gives way to a positive one is positive. -/
lemma fallback_pos {q : Prop} [Decidable q] {a b : ℚ} (ha : q → 0 < a) (hb : 0 < b) :
    0 < if q then a else b := by
  split
  · rename_i hq
    exact ha hq
  · exact hb

/-- A trade is based on a positive price of its tick, be it a quote or the last trade. -/
lemma reference_pos (p : LegPricing ℚ) (ht : 0 < t.last) (side : Side) :
    0 < p.reference side t := by
  cases hmode : p.mode with
  | last => simpa only [reference, hmode] using ht
  | mid =>
    simp only [reference, hmode]
    refine fallback_pos (fun hquotes => ?_) ht
    obtain ⟨hbid, hask⟩ := hquotes
    rw [Scalar.zero_exact] at hbid hask
    simp only [Tick.mid, Scalar.ofInt_exact]
    push_cast
    positivity
  | quote =>
    simp only [reference, hmode]
    exact fallback_pos id ht

/-- As long as slippage takes less than the whole price, what is left is positive. -/
theorem price_pos (hlow : 0 ≤ p.slippageBps) (hhigh : p.slippageBps < 10000) (ht : 0 < t.last)
    (side : Side) : 0 < (p.price side t).1 := by
  have hbase := p.reference_pos ht side
  simp only [price, withSlippage, Scalar.ofInt_exact]
  push_cast
  generalize p.reference side t = base at hbase ⊢
  cases side with
  | buy =>
    simp only
    positivity
  | sell =>
    have hshare : base * p.slippageBps / 10000 < base := by
      rw [div_lt_iff₀ (by norm_num)]
      exact mul_lt_mul_of_pos_left hhigh hbase
    simp only
    linarith

end LegPricing

/-- Terms under which a rollover trades at positive prices: if it trades at all, slippage takes less
than the whole price. -/
def RolloverTerms.Moderate (terms : RolloverTerms ℚ) : Prop :=
  terms.mode = .strict → terms.pricing.slippageBps < 10000

/-- A move keeps a book sound: what it closes is flat afterwards, and what it opens has a positive
price. -/
lemma Rollover.sound_of_move? {r : Rollover ℚ} {p : PendingRollover} {t : Tick ℚ} {book : Book ℚ}
    {m : Move ℚ} (h : book.Sound) (hterms : r.terms.Admissible) (hmoderate : r.terms.Moderate)
    (hflat : book.net p.target = 0) (ht : 0 < t.last) (hm : r.move? p t book = some m) :
    m.book.Sound := by
  have hmode := r.modeFor_of_flat hflat
  obtain ⟨volume, hvolume, hstrict | hcarry⟩ := move?_cases hm
  · obtain ⟨hstrict, mid, closed, opened, hclose, hopen, -, -⟩ := hstrict
    have hlow : 0 ≤ r.terms.pricing.slippageBps := not_lt.mp hterms.2
    have hhigh := hmoderate (hmode.symm.trans hstrict)
    exact (h.trade? (.inr (Book.net_of_close? hvolume hclose)) hclose).trade?
      (.inl (LegPricing.price_pos hlow hhigh ht _)) hopen
  · obtain ⟨-, hbook, -, -⟩ := hcarry
    rw [hbook]
    exact h.handOver p.source p.target

/-! ## The check -/

/-- What the check asks of a reported position, read in exact numbers. -/
structure PnlSnapshot.Sound (s : PnlSnapshot ℚ) : Prop where
  flat : s.net = 0 → s.average = 0 ∧ s.unrealized = 0
  held : s.net ≠ 0 → 0 < s.average
  total : s.total = s.realized + s.unrealized

/-- A sound position is reported soundly. -/
lemma Position.Sound.snapshot {p : Position ℚ} (h : p.Sound) (mark : ℚ) :
    (p.snapshot mark).Sound where
  flat hnet := by
    have hflat : p.net = 0 := hnet
    refine ⟨h.flat hflat, ?_⟩
    simp [Position.snapshot, unrealized, hflat]
  held := h.held
  total := rfl

/-- Every position of a sound book is reported soundly. -/
lemma Book.Sound.snapshots {b : Book ℚ} (h : b.Sound) :
    ∀ row ∈ b.snapshots.rows, row.2.Sound := by
  intro row hrow
  obtain ⟨⟨instrument, p⟩, hmem, rfl⟩ := List.mem_map.mp hrow
  have hposition : b.position instrument = p := by
    rw [Book.position, Book.get?, Table.get?_of_mem hmem]
    rfl
  exact (hposition ▸ h instrument).snapshot _

lemma isOff_zero : isOff (0 : ℚ) = false := by
  have htolerance : (0 : ℚ) < tolerance := by
    simp only [tolerance, Scalar.inverseOf, Scalar.ofInt_exact]
    norm_num
  simp only [isOff, Scalar.abs_exact, abs_zero, decide_eq_false_iff_not, not_lt]
  exact le_of_lt htolerance

/-- The check finds nothing in sound positions. -/
theorem violations_eq_nil {snapshots : Table (PnlSnapshot ℚ)}
    (h : ∀ row ∈ snapshots.rows, row.2.Sound) : violations snapshots = [] := by
  rw [violations, List.flatMap_eq_nil_iff]
  intro row hrow
  have hsound := h row hrow
  simp only [PnlSnapshot.violations, hsound.total, sub_self, isOff_zero, Bool.false_eq_true,
    if_false, List.append_nil]
  split
  · rename_i hnet
    obtain ⟨haverage, hunrealized⟩ := hsound.flat hnet
    rw [haverage, hunrealized, isOff_zero]
    rfl
  · rename_i hnet
    have hpositive : ¬ ¬ Scalar.zero < row.2.average := not_not.mpr (hsound.held hnet)
    rw [if_neg hpositive]

/-! ## Runs -/

/-- What a run needs in order to keep its book sound: positive prices, and terms under which
rollovers trade at positive prices. -/
lemma Run.upkeep_sound {sim : Simulation ℚ} {ticks : List (Tick ℚ)}
    (hterms : ∀ terms, sim.rollover = some terms → terms.Admissible ∧ terms.Moderate)
    (hprices : ∀ t ∈ ticks, 0 < t.last) : Upkeep sim ticks fun book _ => book.Sound where
  start := Book.sound_empty
  trade :=
    { order := fun h _ _ _ _ => h
      fill := fun h _ _ _ _ _ _ hclose ht => h.trade? (.inl hclose) ht }
  mark h t _ := h.mark t.instrument t.last
  move := by
    intro r r' before t source book book' log log' canceled event hroll hmem hdue h hx
    obtain ⟨m, hm, rfl, -, -, -⟩ := Rollover.execute?_cases hx
    obtain ⟨hadmissible, hmoderate⟩ := hterms r.terms hroll
    exact Rollover.sound_of_move? (r := r.see t) h hadmissible hmoderate hdue.flat
      (hprices t (hmem t (by simp))) hm

/-- Read in exact numbers, a run over ticks with positive prices ends with sound positions and finds
nothing wrong with them, if its rollovers carry positions over or take less slippage than the whole
price. -/
theorem final_positions_sound {sim : Simulation ℚ} (hdet : sim.deterministic = true)
    (hterms : ∀ terms, sim.rollover = some terms → terms.Admissible ∧ terms.Moderate)
    {ticks : List (Tick ℚ)} (hprices : ∀ t ∈ ticks, 0 < t.last) {run : Run sim}
    (h : Run.through sim ticks = .ok run) :
    (∀ row ∈ (PositionReport.of run).snapshots.rows, row.2.Sound) ∧
      (PositionReport.of run).violations = [] := by
  have hsound : run.floor.book.Sound :=
    ((Run.upkeep_sound hterms hprices).through hdet h).2
  have hsnapshots := hsound.snapshots
  exact ⟨hsnapshots, violations_eq_nil hsnapshots⟩

/-! ## A sold lot on the move

One lot is sold, and then another contract of its symbol trades.
-/

/-- A detector that has nothing to say. -/
def quietDetector : Detector ℚ where
  State := Unit
  start := ()
  observe _ _ := some ((), ⟨0, 0, 0, 0, 0, 0, 0, .warmup⟩)

/-- What is simulated, with slippage to be chosen. -/
def soldLot (slippageBps : ℚ) : Simulation ℚ where
  deterministic := true
  bucketWidth := 60
  rollover := some ⟨.strict, ⟨.quote, slippageBps⟩⟩
  logging := false
  strategyName := "trial"
  capabilities := { opening := true, orderAware := false, traceProvider := false }
  strategy := scripted [("1", [⟨.sell, .opening, 1, none, ""⟩])]
  detector := quietDetector

/-- The ticks of the old contract, and the first one of the new contract. -/
def soldLotTicks : List (Tick ℚ) :=
  [⟨"rb2405", 0, 100, 1, 99, 1, 101, 1⟩, ⟨"rb2405", 60, 100, 2, 99, 1, 101, 1⟩,
    ⟨"rb2410", 120, 110, 1, 109, 1, 111, 1⟩]

/-- With a slippage of ten hundredths of a percent the lot is moved at a positive price, and the
check finds nothing. -/
theorem soldLot_sound :
    ∃ run : Run (soldLot 10), Run.through (soldLot 10) soldLotTicks = .ok run ∧
      run.floor.book.net "rb2410" = -1 ∧ (PositionReport.of run).violations = [] := by
  have hnet : (Run.through (soldLot 10) soldLotTicks).toOption.map
      (·.floor.book.net "rb2410") = some (-1) := by decide +kernel
  obtain ⟨run, hrun, hnet⟩ := Run.exists_of_through hnet
  refine ⟨run, hrun, hnet, (final_positions_sound rfl ?_ (by decide +kernel) hrun).2⟩
  intro terms hterms
  obtain rfl := Option.some.inj hterms
  exact ⟨by decide +kernel, fun _ => by decide +kernel⟩

/-- With a slippage of the whole price, which is admissible, the lot is moved at a price of zero,
and the check reports it. -/
theorem soldLot_violation :
    (∀ terms, (soldLot 10000).rollover = some terms → terms.Admissible) ∧
      (∀ t ∈ soldLotTicks, 0 < t.last) ∧
      ∃ run : Run (soldLot 10000), Run.through (soldLot 10000) soldLotTicks = .ok run ∧
        (PositionReport.of run).violations = [.openWithoutAverage "rb2410" (-1) 0] := by
  refine ⟨?_, by decide +kernel, ?_⟩
  · intro terms hterms
    obtain rfl := Option.some.inj hterms
    decide +kernel
  · have hviolations : (Run.through (soldLot 10000) soldLotTicks).toOption.map
        (fun run => (PositionReport.of run).violations) =
          some [.openWithoutAverage "rb2410" (-1) 0] := by decide +kernel
    exact Run.exists_of_through hviolations

end MarketTape
