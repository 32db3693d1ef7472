import MarketTape.Proofs.Rollover
import MarketTape.Proofs.Worth

/-!
# A rollover moves one position

A switch of contracts is the only thing in a run that trades without having been asked to, so what
it leaves alone matters as much as what it does.  It moves all lots of the old contract to the new
one, whatever is held there, and changes no third contract, no mark and no active contract of
another symbol.

* `Rollover.Legs` says what the parts of a move are: a closing and an opening trade of the same
  number of lots, or one part that hands the position over.  `Rollover.legs_of_move?` is what a move
  does.
* `Rollover.Moves` says what there is after a switch was executed, in terms of what there was
  before; `Rollover.moves_of_execute?` that it is always so.
* `Book.realizedTotal_handOver` reads realized profit in exact numbers.
* `rollover_moves_one_position` is the result.
-/

namespace MarketTape

/-! ## The parts of a move -/

section Parts

variable {α : Type}

/-- A part of a move as it is recorded: which one it is, in which contract, on which side, and of
how many lots. -/
structure RolloverAction.IsPart (a : RolloverAction α) (p : PendingRollover) (t : Tick α)
    (leg : RolloverLeg) (instrument : String) (side : Side) (volume : Int) : Prop where
  time : a.time = t.time
  symbol : a.symbol = p.symbol
  leg : a.leg = leg
  instrument : a.instrument = instrument
  side : a.side = side
  volume : a.volume = volume

variable [Scalar α]

namespace Rollover

/-- Two trades: all lots are closed in the old contract, and as many are opened in the new one, on
the other side.  Each part is recorded as it was traded, with the profit that it realized. -/
structure Trades (p : PendingRollover) (t : Tick α) (book book' : Book α)
    (closing opening : RolloverAction α) : Prop where
  closes : closing.IsPart p t .closing p.source (Side.ofPosition (book.net p.source)).opposite
    (book.net p.source).natAbs
  opens : opening.IsPart p t .opening p.target (Side.ofPosition (book.net p.source))
    (book.net p.source).natAbs
  closed : (book.position p.source).trade? closing.side closing.volume closing.price =
    some (book'.position p.source, closing.realized)
  opened : (book.position p.target).trade? opening.side opening.volume opening.price =
    some (book'.position p.target, opening.realized)

/-- No trade: a flat contract takes the lots over with their average and all that was realized, and
nothing is charged. -/
structure HandsOver (p : PendingRollover) (t : Tick α) (book book' : Book α)
    (carrying : RolloverAction α) : Prop where
  carries : carrying.IsPart p t .carrying p.target (Side.ofPosition (book.net p.source))
    (book.net p.source).natAbs
  price : carrying.price = (book.position p.source).average
  free : carrying.slippageCost = Scalar.zero ∧ carrying.realized = Scalar.zero
  flat : book.net p.target = 0
  source : book'.get? p.source = some Position.flat
  target : book'.get? p.target =
    some ⟨book.net p.source, (book.position p.source).average,
      (book.position p.target).realized + (book.position p.source).realized⟩

/-- The parts of a move, by the way in which it was made: closing and then opening, or handing over.
-/
inductive Legs (p : PendingRollover) (t : Tick α) (book book' : Book α) :
    RolloverMode → List (RolloverAction α) → Prop
  | strict {closing opening : RolloverAction α} (h : Trades p t book book' closing opening) :
      Legs p t book book' .strict [closing, opening]
  | carry {carrying : RolloverAction α} (h : HandsOver p t book book' carrying) :
      Legs p t book book' .carry [carrying]

variable {r r' : Rollover α} {p : PendingRollover} {t : Tick α} {book book' : Book α}
  {log log' : AuditLog α} {canceled : Nat} {event : RolloverEvent α} {m : Move α}

/-- A move is made by one or the other. -/
theorem legs_of_move? (hne : p.source ≠ p.target) (h : r.move? p t book = some m) :
    Legs p t book m.book (r.modeFor book p.target) m.actions := by
  obtain ⟨volume, hvolume, hstrict | hcarry⟩ := move?_cases h
  · obtain ⟨hmode, mid, closed, opened, hclose, hopen, hactions, -⟩ := hstrict
    obtain rfl := Count.eq_natAbs_of_abs? hvolume
    obtain ⟨old, hold, rfl⟩ := Book.trade?_cases hclose
    obtain ⟨new, hnew, hbook⟩ := Book.trade?_cases hopen
    -- the contracts differ, so that neither trade has noticed the other
    rw [Book.position_put, if_neg hne.symm] at hnew
    rw [hmode, hactions]
    refine .strict ⟨⟨rfl, rfl, rfl, rfl, rfl, rfl⟩, ⟨rfl, rfl, rfl, rfl, rfl, rfl⟩, ?_, ?_⟩
    · rw [hbook, Book.position_put, if_neg hne, Book.position_put, if_pos rfl]
      exact hold
    · rw [hbook, Book.position_put, if_pos rfl]
      exact hnew
  · obtain ⟨hmode, hbook, hactions, -⟩ := hcarry
    obtain rfl := Count.eq_natAbs_of_abs? hvolume
    have htarget : (book.put p.source Position.flat).position p.target =
        book.position p.target := by
      rw [Book.position_put, if_neg hne.symm]
    rw [hmode, hactions]
    refine .carry ⟨⟨rfl, rfl, rfl, rfl, rfl, rfl⟩, rfl, ⟨rfl, rfl⟩,
      flat_of_modeFor_eq_carry hmode, ?_, ?_⟩
    · rw [hbook, Book.handOver, Book.get?_put, if_neg hne, Book.get?_put, if_pos rfl]
    · rw [hbook, Book.handOver, Book.get?_put, if_pos rfl, htarget, Book.net_position]

/-- A move writes the positions of its two contracts alone. -/
lemma get?_of_move? (h : r.move? p t book = some m) {other : String} (hsource : other ≠ p.source)
    (htarget : other ≠ p.target) : m.book.get? other = book.get? other := by
  obtain ⟨volume, -, hstrict | hcarry⟩ := move?_cases h
  · obtain ⟨-, mid, closed, opened, hclose, hopen, -, -⟩ := hstrict
    rw [Book.get?_of_trade? hopen htarget, Book.get?_of_trade? hclose hsource]
  · rw [hcarry.2.1, Book.handOver, Book.get?_put, if_neg htarget, Book.get?_put, if_neg hsource]

/-- Whichever way it was moved, the old contract is flat afterwards and has no average. -/
lemma source_of_move? (hne : p.source ≠ p.target) (hheld : book.net p.source ≠ 0)
    (h : r.move? p t book = some m) :
    ∃ old, m.book.get? p.source = some old ∧ old.net = 0 ∧ old.average = Scalar.zero := by
  obtain ⟨volume, hvolume, hstrict | hcarry⟩ := move?_cases h
  · obtain ⟨-, mid, closed, opened, hclose, hopen, -, -⟩ := hstrict
    obtain ⟨old, hold, rfl⟩ := Book.trade?_cases hclose
    rw [← Book.net_position] at hheld hvolume hold
    have hflat := Position.eq_of_close? hheld hvolume hold
    refine ⟨old, ?_, ?_, ?_⟩
    · rw [Book.get?_of_trade? hopen hne, Book.get?_put, if_pos rfl]
    · rw [hflat]
    · rw [hflat]
  · refine ⟨Position.flat, ?_, rfl, rfl⟩
    rw [hcarry.2.1, Book.handOver, Book.get?_put, if_neg hne, Book.get?_put, if_pos rfl]

/-! ## Everything else -/

/-- The summary of a switch that was executed: what it was, what was asked for, and how many lots
there were. -/
structure Reports (r : Rollover α) (p : PendingRollover) (t : Tick α) (book : Book α)
    (canceled : Nat) (event : RolloverEvent α) : Prop where
  time : event.time = t.time
  symbol : event.symbol = p.symbol
  source : event.source = p.source
  target : event.target = p.target
  requested : event.requested = r.terms.mode
  applied : event.applied = .strict ↔ r.terms.mode = .strict ∨ book.net p.target ≠ 0
  net : event.net = book.net p.source
  canceledOrders : event.canceledOrders = canceled

/-- What there is after a switch was executed, in terms of what there was before.  The old contract
is flat, the new one has taken its lots on and is the active one of its symbol, and nothing else has
changed in the book.  One summary is added, with what the move lost to slippage, and the parts are
added in their order, each of them to the log as well, where it is kept. -/
structure Moves (r : Rollover α) (p : PendingRollover) (t : Tick α) (book : Book α)
    (log : AuditLog α) (canceled : Nat) (r' : Rollover α) (book' : Book α) (log' : AuditLog α)
    (event : RolloverEvent α) : Prop where
  source : ∃ old, book'.get? p.source = some old ∧ old.net = 0 ∧ old.average = Scalar.zero
  target : book'.net p.target = book.net p.target + book.net p.source
  others : ∀ other, other ≠ p.source → other ≠ p.target → book'.get? other = book.get? other
  marks : book'.marks = book.marks
  active : ∀ symbol, r'.activeContract? symbol =
    if symbol = p.symbol then some p.target else r.activeContract? symbol
  kept : r'.terms = r.terms ∧ r'.lastTicks = r.lastTicks
  events : r'.events.toList = r.events.toList ++ [event]
  reports : r.Reports p t book canceled event
  slippage : r'.slippageTotal = r.slippageTotal + event.slippageCost
  legs : ∃ legs, Legs p t book book' event.applied legs ∧
    r'.actions.toList = r.actions.toList ++ legs ∧ log'.enabled = log.enabled ∧
    log'.events.toList = log.events.toList ++
      if log.enabled then legs.map (·.audit event.applied) else []

/-- Every switch that is executed does all of this. -/
theorem moves_of_execute? (hne : p.source ≠ p.target) (hheld : book.net p.source ≠ 0)
    (h : r.execute? p t book log canceled = some (r', book', log', event)) :
    r.Moves p t book log canceled r' book' log' event := by
  obtain ⟨m, hm, rfl, rfl, rfl, rfl⟩ := execute?_cases h
  constructor
  case source => exact source_of_move? hne hheld hm
  case target => rw [net_of_move? hne hheld hm, if_neg hne.symm, if_pos rfl]
  case others => exact fun other hsource htarget => get?_of_move? hm hsource htarget
  case marks => exact marks_of_move? hm
  case active => exact fun symbol => activeContract?_activate r p.symbol p.target symbol
  case kept => exact ⟨rfl, rfl⟩
  case events => exact Array.toList_push
  case slippage => rfl
  case reports => exact ⟨rfl, rfl, rfl, rfl, rfl, modeFor_eq_strict_iff r book p.target, rfl, rfl⟩
  case legs =>
    refine ⟨m.actions, legs_of_move? hne hm, Array.toList_append, AuditLog.enabled_extend _ _, ?_⟩
    exact AuditLog.toList_extend_ite _ _

/-- A switch is executed if and only if there is room for its lots. -/
lemma exists_execute?_iff (hne : p.source ≠ p.target) (hheld : book.net p.source ≠ 0) :
    (∃ r' book' log' event, r.execute? p t book log canceled = some (r', book', log', event)) ↔
      r.HasRoom p book := by
  rw [← exists_move?_iff hne hheld]
  constructor
  · rintro ⟨r', book', log', event, h⟩
    obtain ⟨m, hm, -⟩ := execute?_cases h
    exact ⟨m, hm⟩
  · rintro ⟨m, hm⟩
    rw [execute?, hm]
    exact ⟨_, _, _, _, rfl⟩

end Rollover

end Parts

/-! ## Realized profit -/

namespace Book

/-- A written position counts with what it has realized, in place of the one before it. -/
lemma realizedTotal_put (b : Book ℚ) (instrument : String) (p : Position ℚ) :
    (b.put instrument p).realizedTotal =
      b.realizedTotal + p.realized - (b.position instrument).realized := by
  have htotal : ∀ b : Book ℚ, b.realizedTotal = b.positions.total fun _ p => p.realized :=
    fun b => Scalar.sum_exact _
  have hrow : ((b.positions.get? instrument).map fun p => p.realized).getD 0 =
      (b.position instrument).realized := by
    rw [position, get?]
    cases b.positions.get? instrument <;> rfl
  rw [htotal, htotal, put, Table.total_insert, hrow]

/-- What is handed over is realized profit of the whole book before and after. -/
lemma realizedTotal_handOver (b : Book ℚ) {source target : String} (hne : source ≠ target) :
    (b.handOver source target).realizedTotal = b.realizedTotal := by
  have hflat : (Position.flat : Position ℚ).realized = 0 := rfl
  rw [handOver, realizedTotal_put, realizedTotal_put, position_put, if_neg hne.symm, hflat]
  ring

end Book

/-! ## The result -/

/-- **A rollover moves one position.**  A switch is executed while lots are held in its old
contract.

* It has a result if and only if there is room for the lots: a number of lots that is to be traded
  has to have a size, before and after.
* Then the old contract is flat with no average, the new one holds what it held and the lots of the
  old one, and no other contract, mark or active contract has changed.  One summary is added, with
  the lots that were held, and the parts of the move are added and logged: closing and opening the
  same number of lots, or handing them over.  They are handed over exactly if that was asked for and
  the new contract was flat.
* Read in exact numbers, what is handed over leaves the realized profit of the book as it was. -/
theorem rollover_moves_one_position :
    (∀ {α : Type} [Scalar α] (r : Rollover α) (p : PendingRollover) (t : Tick α) (book : Book α)
        (log : AuditLog α) (canceled : Nat), p.source ≠ p.target → book.net p.source ≠ 0 →
      ((∃ r' book' log' event,
          r.execute? p t book log canceled = some (r', book', log', event)) ↔
        r.HasRoom p book) ∧
      ∀ r' book' log' event, r.execute? p t book log canceled = some (r', book', log', event) →
        r.Moves p t book log canceled r' book' log' event) ∧
    ∀ (r : Rollover ℚ) (p : PendingRollover) (t : Tick ℚ) (book : Book ℚ) (log : AuditLog ℚ)
        (canceled : Nat) r' book' log' event, p.source ≠ p.target →
      r.execute? p t book log canceled = some (r', book', log', event) →
        event.applied = .carry → book'.realizedTotal = book.realizedTotal := by
  refine ⟨?_, ?_⟩
  · intro α _ r p t book log canceled hne hheld
    exact ⟨Rollover.exists_execute?_iff hne hheld,
      fun r' book' log' event h => Rollover.moves_of_execute? hne hheld h⟩
  · intro r p t book log canceled r' book' log' event hne h hcarry
    obtain ⟨m, hm, rfl, rfl, -, -⟩ := Rollover.execute?_cases h
    obtain ⟨volume, -, hstrict | hcarried⟩ := Rollover.move?_cases hm
    · cases hstrict.1.symm.trans hcarry
    · rw [hcarried.2.1, Book.realizedTotal_handOver book hne]

/-! ## Two short lots -/

/-- Two lots are sold in one contract, another one is flat after five were earned, and three lots
are held in a third one. -/
def shortBook : Book ℚ :=
  ((Book.empty.put "rb2405" ⟨-2, 100, 10⟩).put "rb2410" ⟨0, 0, 5⟩).put "rb2501" ⟨3, 90, 0⟩

/-- Positions are to be handed over. -/
def carryTerms : RolloverTerms ℚ := ⟨.carry, ⟨.last, 25⟩⟩

/-- The two lots are handed over to the flat contract, and the fifteen that were realized stay.  The
contract that holds three lots cannot take them over, so that they are closed, and three lots become
one. -/
theorem rollover_moves_one_position_shortBook :
    (∃ r' book' log' event,
      (Rollover.start carryTerms).execute? ⟨"rb", "rb2405", "rb2410"⟩
          ⟨"rb2410", 1, 110, 1, 109, 1, 111, 1⟩ shortBook (.start true) 0 =
        some (r', book', log', event) ∧
      event.applied = .carry ∧ book'.get? "rb2410" = some ⟨-2, 100, 15⟩ ∧
      book'.get? "rb2501" = some ⟨3, 90, 0⟩ ∧ book'.realizedTotal = 15) ∧
    ∃ r' book' log' event,
      (Rollover.start carryTerms).execute? ⟨"rb", "rb2405", "rb2501"⟩
          ⟨"rb2501", 1, 110, 1, 109, 1, 111, 1⟩ shortBook (.start true) 0 =
        some (r', book', log', event) ∧
      event.applied = .strict ∧ book'.net "rb2405" = 0 ∧ book'.net "rb2501" = 1 ∧
      r'.activeContract? "rb" = some "rb2501" ∧ r'.events.size = 1 := by
  obtain ⟨hall, hexact⟩ := rollover_moves_one_position
  constructor
  · obtain ⟨hroom, hmoves⟩ := hall (Rollover.start carryTerms) ⟨"rb", "rb2405", "rb2410"⟩
      ⟨"rb2410", 1, 110, 1, 109, 1, 111, 1⟩ shortBook (.start true) 0 (by decide)
      (by decide +kernel)
    obtain ⟨r', book', log', event, h⟩ := hroom.mpr ⟨by decide +kernel, by decide +kernel⟩
    have hm := hmoves r' book' log' event h
    have hcarry : event.applied = .carry := by
      cases hmode : event.applied with
      | carry => rfl
      | strict => exact absurd (hm.reports.applied.mp hmode) (by decide +kernel)
    obtain ⟨legs, hlegs, -⟩ := hm.legs
    rw [hcarry] at hlegs
    have htarget : book'.get? "rb2410" = some ⟨-2, 100, 15⟩ := by
      cases hlegs with
      | carry hhanded => exact hhanded.target.trans (by decide +kernel)
    have hother : book'.get? "rb2501" = some ⟨3, 90, 0⟩ :=
      (hm.others "rb2501" (by decide) (by decide)).trans (by decide +kernel)
    have hrealized : book'.realizedTotal = 15 :=
      (hexact _ _ _ _ _ _ r' book' log' event (by decide) h hcarry).trans (by decide +kernel)
    exact ⟨r', book', log', event, h, hcarry, htarget, hother, hrealized⟩
  · obtain ⟨hroom, hmoves⟩ := hall (Rollover.start carryTerms) ⟨"rb", "rb2405", "rb2501"⟩
      ⟨"rb2501", 1, 110, 1, 109, 1, 111, 1⟩ shortBook (.start true) 0 (by decide)
      (by decide +kernel)
    obtain ⟨r', book', log', event, h⟩ := hroom.mpr ⟨by decide +kernel, by decide +kernel⟩
    have hm := hmoves r' book' log' event h
    have hstrict : event.applied = .strict := hm.reports.applied.mpr (by decide +kernel)
    obtain ⟨old, hold, hflat, -⟩ := hm.source
    have hsource : book'.net "rb2405" = 0 := by
      rw [Book.net, hold]
      exact hflat
    have htarget : book'.net "rb2501" = 1 := hm.target.trans (by decide +kernel)
    have hevents : r'.events.size = 1 := by
      rw [← Array.length_toList, hm.events]
      rfl
    exact ⟨r', book', log', event, h, hstrict, hsource, htarget, hm.active "rb", hevents⟩

end MarketTape
