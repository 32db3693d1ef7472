import MarketTape.Proofs.Table
import MarketTape.Proofs.Transparency
import MarketTape.Proofs.Upkeep

/-!
# Lots are conserved

What is held in all contracts of a symbol together is what the orders have traded there.  A rollover
takes lots out of one contract and puts as many into another of the same symbol, so it does not
count; and orders that are refused, that wait or that are dropped hold nothing.

* `Book.lots` is what is held in the contracts of a symbol.  `Book.lots_of_trade?` says what a trade
  does to it, and `Rollover.lots_of_move?` that a move does nothing.
* `lotsTraded` is what the orders traded according to a log.
* `lots_conserved` is the result.  A run that keeps no log has a twin that does, and it is the log
  of the twin that tells of the trades.
-/

namespace MarketTape

variable {α : Type}

/-! ## Lots of a symbol -/

namespace Book

/-- The lots held in the contracts of a symbol. -/
def lots (b : Book α) (symbol : String) : Int :=
  b.positions.total fun instrument p => if underlying instrument = symbol then p.net else 0

/-- A written position changes the lots of its own symbol. -/
lemma lots_put (b : Book α) (instrument : String) (p : Position α) (symbol : String) :
    (b.put instrument p).lots symbol =
      b.lots symbol + if underlying instrument = symbol then p.net - b.net instrument else 0 := by
  rw [lots, put, Table.total_insert, lots, net, get?]
  cases b.positions.get? instrument with
  | none => split <;> simp
  | some old =>
    split
    · simp only [Option.map_some, Option.getD_some]
      omega
    · simp

variable [Scalar α]

/-- A trade changes the lots of the symbol of its instrument by what was traded. -/
theorem lots_of_trade? {b b' : Book α} {instrument : String} {side : Side} {volume : Int}
    {price profit : α} (hvolume : 0 < volume)
    (h : b.trade? instrument side volume price = some (b', profit)) (symbol : String) :
    b'.lots symbol =
      b.lots symbol + if underlying instrument = symbol then side.sign * volume else 0 := by
  have hnet := net_of_trade? h instrument
  rw [if_pos ⟨rfl, hvolume⟩] at hnet
  obtain ⟨p, -, rfl⟩ := trade?_cases h
  rw [net_put, if_pos rfl] at hnet
  rw [lots_put, hnet]
  split <;> omega

end Book

/-- A move between contracts of one symbol changes no lots of any symbol. -/
theorem Rollover.lots_of_move? [Scalar α] {r : Rollover α} {p : PendingRollover} {t : Tick α}
    {book : Book α} {m : Move α} (hne : p.source ≠ p.target)
    (hsibling : underlying p.source = underlying p.target) (hheld : book.net p.source ≠ 0)
    (h : r.move? p t book = some m) (symbol : String) : m.book.lots symbol = book.lots symbol := by
  have hnet := net_of_move? hne hheld h
  obtain ⟨volume, hvolume, hstrict | hcarry⟩ := move?_cases h
  · obtain ⟨-, mid, closed, opened, hclose, hopen, -, -⟩ := hstrict
    have hpos := Count.pos_of_abs? hheld hvolume
    rw [Book.lots_of_trade? hpos hopen, Book.lots_of_trade? hpos hclose, hsibling,
      Side.sign_opposite]
    split
    · rw [Int.neg_mul]
      omega
    · omega
  · obtain ⟨-, hbook, -, -⟩ := hcarry
    have htarget := hnet p.target
    rw [hbook, net_handOver, if_pos rfl, if_neg (Ne.symm hne), if_pos rfl] at htarget
    rw [hbook, Book.handOver, Book.lots_put, Book.lots_put, Book.net_put, if_neg (Ne.symm hne),
      Book.net_position, hsibling]
    have hflat : (Position.flat : Position α).net = 0 := rfl
    rw [hflat]
    split <;> omega

/-! ## Lots that orders traded -/

/-- The lots that an event brings into the contracts of a symbol, if it is a trade of an order. -/
def AuditEvent.lotsFor (symbol : String) : AuditEvent α → Int
  | .trade _ instrument side _ volume _ _ _ _ _ =>
    if underlying instrument = symbol then side.sign * volume else 0
  | .order .. => 0
  | .rollover .. => 0

/-- The lots that the orders of a log brought into the contracts of a symbol. -/
def lotsTraded (events : List (AuditEvent α)) (symbol : String) : Int :=
  (events.map (·.lotsFor symbol)).sum

@[simp] lemma lotsTraded_append (events more : List (AuditEvent α)) (symbol : String) :
    lotsTraded (events ++ more) symbol = lotsTraded events symbol + lotsTraded more symbol := by
  simp [lotsTraded]

/-- The parts of a move are no trades of orders. -/
lemma lotsTraded_audit (actions : List (RolloverAction α)) (mode : RolloverMode)
    (symbol : String) : lotsTraded (actions.map (·.audit mode)) symbol = 0 := by
  rw [lotsTraded, List.map_map]
  exact List.sum_eq_zero fun n hn => by
    obtain ⟨a, -, rfl⟩ := List.mem_map.mp hn
    rfl

/-! ## Whole runs -/

/-- A book and an open log that agree on the lots of every symbol. -/
structure Conserved (book : Book α) (log : AuditLog α) : Prop where
  enabled : log.enabled = true
  lots : ∀ symbol, book.lots symbol = lotsTraded log.events.toList symbol

namespace Conserved

variable {book book' : Book α} {log : AuditLog α}

/-- A book that changes by what further events traded still agrees with the log. -/
lemma extend (h : Conserved book log) (more : List (AuditEvent α))
    (hlots : ∀ symbol, book'.lots symbol = book.lots symbol + lotsTraded more symbol) :
    Conserved book' (log.extend more) where
  enabled := (log.enabled_extend more).trans h.enabled
  lots := by
    intro symbol
    rw [AuditLog.toList_extend h.enabled, lotsTraded_append, hlots, h.lots]

variable [Scalar α]

lemma keepsTrades : Floor.KeepsTrades (α := α) Conserved where
  order h intent time price status :=
    h.extend [.settled intent time price status] fun symbol => by
      simp [lotsTraded, AuditEvent.settled, AuditEvent.lotsFor]
  fill := by
    intro book log h intent bar volume book' profit hvolume _ ht
    refine h.extend [.accepted intent bar volume,
      .traded intent bar volume (book'.position bar.instrument)] fun symbol => ?_
    rw [Book.lots_of_trade? hvolume ht]
    simp [lotsTraded, AuditEvent.accepted, AuditEvent.traded, AuditEvent.lotsFor]

end Conserved

namespace Run

variable [Scalar α] {sim : Simulation α} {ticks : List (Tick α)} {run : Run sim}

/-- A run that keeps a log keeps book and log in agreement. -/
lemma upkeep_conserved (hlog : sim.logging = true) (ticks : List (Tick α)) :
    Upkeep sim ticks Conserved where
  start := ⟨hlog, fun _ => rfl⟩
  trade := Conserved.keepsTrades
  mark h t _ := ⟨h.enabled, h.lots⟩
  move := by
    intro r r' before t source book book' log log' canceled event _ _ hdue h hx
    obtain ⟨m, hm, rfl, -, rfl, -⟩ := Rollover.execute?_cases hx
    refine h.extend _ fun symbol => ?_
    have hlots : m.book.lots symbol = book.lots symbol :=
      Rollover.lots_of_move? (p := ⟨_, source, t.instrument⟩) hdue.ne hdue.sibling hdue.held hm
        symbol
    rw [lotsTraded_audit, hlots, Int.add_zero]

end Run

/-- After every tick of a run and after its end, the lots held in the contracts of a symbol are
those that the orders traded there: rollovers, switches of flat contracts, and orders that are
refused, wait or are dropped add nothing.  The trades are read off the log; a run without one has a
twin that is the same but for keeping a log. -/
theorem lots_conserved [Scalar α] {sim : Simulation α} (hdet : sim.deterministic = true)
    {ticks : List (Tick α)} {run : Run sim}
    (h : (Run.start sim).feed ticks = .ok run ∨ Run.through sim ticks = .ok run) :
    (sim.logging = true → ∀ symbol, run.floor.book.lots symbol =
        lotsTraded run.floor.log.events.toList symbol) ∧
      ∃ twin : Run sim.audited, twin.silent = run.silent ∧
        ((Run.start sim.audited).feed ticks = .ok twin ∨ Run.through sim.audited ticks = .ok twin) ∧
        ∀ symbol, run.floor.book.lots symbol =
          lotsTraded twin.floor.log.events.toList symbol := by
  have conserved : ∀ {sim : Simulation α} {run : Run sim}, sim.deterministic = true →
      sim.logging = true →
      ((Run.start sim).feed ticks = .ok run ∨ Run.through sim ticks = .ok run) →
        Conserved run.floor.book run.floor.log := by
    intro sim run hdet hlog h
    have hupkeep := Run.upkeep_conserved hlog ticks
    exact h.elim (fun hfeed => (hupkeep.feed hdet hfeed).2)
      fun hthrough => (hupkeep.through hdet hthrough).2
  refine ⟨fun hlog => (conserved hdet hlog h).lots, ?_⟩
  obtain ⟨twin, hsilent, htwin⟩ : ∃ twin : Run sim.audited, twin.silent = run.silent ∧
      ((Run.start sim.audited).feed ticks = .ok twin ∨
        Run.through sim.audited ticks = .ok twin) := by
    rcases h with hfeed | hthrough
    · obtain ⟨twin, htwin, hsilent⟩ := Run.exists_twin_of_feed hfeed
      exact ⟨twin, hsilent, Or.inl htwin⟩
    · obtain ⟨twin, htwin, hsilent⟩ := Run.exists_twin_of_through hthrough
      exact ⟨twin, hsilent, Or.inr htwin⟩
  have hbook : twin.floor.book = run.floor.book :=
    congrArg (fun quiet : Run sim.silent => quiet.floor.book) hsilent
  refine ⟨twin, hsilent, htwin, fun symbol => ?_⟩
  have hdet' : sim.audited.deterministic = true := hdet
  calc run.floor.book.lots symbol
      = twin.floor.book.lots symbol := by rw [hbook]
    _ = lotsTraded twin.floor.log.events.toList symbol := (conserved hdet' rfl htwin).lots symbol

/-- The short run moves a sold lot to another contract, and it is still one sold lot of the symbol,
as the three trades before say. -/
theorem lots_conserved_shortRun :
    ((shortRun .strict).floor.book.net "rb2410" = -1 ∧
        (shortRun .strict).floor.book.lots "rb" = -1) ∧
      ∀ symbol, (shortRun .strict).floor.book.lots symbol =
        lotsTraded (shortRun .strict).floor.log.events.toList symbol := by
  refine ⟨by decide +kernel, ?_⟩
  exact (lots_conserved rfl (.inr (through_shortSimulation .strict))).1 rfl

end MarketTape
