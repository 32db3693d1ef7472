import MarketTape.Proofs.Desk
import MarketTape.Proofs.Position
import MarketTape.Rollover

/-!
# What a rollover does

A tick of another contract either finds nothing to move, or the whole position of the old contract
goes over to the new one, by two trades or by handing it over.

* `Rollover.detect_cases` says when a tick calls for a move.
* `Rollover.closingLeg`, `Rollover.openingLeg` and `Rollover.carryingLeg` are the parts of moves;
  `Rollover.execute?_cases` says what a move that succeeded has done.
* `Rollover.net_of_move?` is what it comes to in lots: the old contract is flat, and the new one
  has taken on what was there.  `Rollover.exists_move?_iff` says when a position can be moved.
-/

namespace MarketTape

variable {α : Type}

/-- Hands the position of one instrument over to another: lots and average move, and realized profit
is added to what the other has realized. -/
def Book.handOver [Scalar α] (b : Book α) (source target : String) : Book α :=
  let old := b.position source
  let b := b.put source Position.flat
  b.put target ⟨old.net, old.average, (b.position target).realized + old.realized⟩

namespace Rollover

/-! ## Noticing a switch -/

/-- An active contract counts for its own symbol alone. -/
lemma activeContract?_activate (r : Rollover α) (symbol instrument other : String) :
    (r.activate symbol instrument).activeContract? other =
      if other = symbol then some instrument else r.activeContract? other :=
  Table.get?_insert ..

/-- The ticks seen, with one more. -/
def see (r : Rollover α) (t : Tick α) : Rollover α :=
  { r with lastTicks := r.lastTicks.insert t.instrument t }

@[simp] lemma activeContract?_see (r : Rollover α) (t : Tick α) (symbol : String) :
    (r.see t).activeContract? symbol = r.activeContract? symbol := rfl

lemma detect_eq (r : Rollover α) (t : Tick α) (book : Book α) :
    r.detect t book =
      match r.activeContract? (underlying t.instrument) with
      | none => ((r.see t).activate (underlying t.instrument) t.instrument, none)
      | some source =>
        if source = t.instrument then (r.see t, none)
        else if book.net source = 0 then
          ((r.see t).activate (underlying t.instrument) t.instrument, none)
        else (r.see t, some ⟨underlying t.instrument, source, t.instrument⟩) := rfl

/-- A tick may be the first of its symbol, of the active contract, of another contract while the
active one is flat, or of another contract while lots are held in the active one.  Only the last
calls for a move. -/
lemma detect_cases {r seen : Rollover α} {t : Tick α} {book : Book α}
    {pending : Option PendingRollover} (h : r.detect t book = (seen, pending)) :
    (r.activeContract? (underlying t.instrument) = some t.instrument ∧
        seen = r.see t ∧ pending = none) ∨
      ((∀ source, r.activeContract? (underlying t.instrument) = some source →
          source ≠ t.instrument ∧ book.net source = 0) ∧
        seen = (r.see t).activate (underlying t.instrument) t.instrument ∧ pending = none) ∨
      ∃ source, r.activeContract? (underlying t.instrument) = some source ∧
        source ≠ t.instrument ∧ book.net source ≠ 0 ∧ seen = r.see t ∧
        pending = some ⟨underlying t.instrument, source, t.instrument⟩ := by
  rw [detect_eq] at h
  split at h
  · rename_i hnone
    obtain ⟨rfl, rfl⟩ := Prod.mk.inj h
    exact Or.inr (Or.inl ⟨fun source hs => absurd (hnone.symm.trans hs) (by simp), rfl, rfl⟩)
  · rename_i source hsource
    split at h
    · rename_i hsame
      obtain ⟨rfl, rfl⟩ := Prod.mk.inj h
      exact Or.inl ⟨hsame ▸ hsource, rfl, rfl⟩
    · rename_i hother
      split at h
      · rename_i hflat
        obtain ⟨rfl, rfl⟩ := Prod.mk.inj h
        refine Or.inr (Or.inl ⟨fun s hs => ?_, rfl, rfl⟩)
        obtain rfl := Option.some.inj (hsource.symm.trans hs)
        exact ⟨hother, hflat⟩
      · rename_i hheld
        obtain ⟨rfl, rfl⟩ := Prod.mk.inj h
        exact Or.inr (Or.inr ⟨source, hsource, hother, hheld, rfl, rfl⟩)

/-- Where a tick calls for a move, lots are held in the active contract of its symbol, which is
another one. -/
lemma switch_of_detect {r seen : Rollover α} {t : Tick α} {book : Book α} {p : PendingRollover}
    (h : r.detect t book = (seen, some p)) :
    ∃ source, r.activeContract? (underlying t.instrument) = some source ∧
      source ≠ t.instrument ∧ book.net source ≠ 0 ∧ seen = r.see t ∧
      p = ⟨underlying t.instrument, source, t.instrument⟩ := by
  rcases detect_cases h with ⟨-, -, hnone⟩ | ⟨-, -, hnone⟩ |
    ⟨source, hactive, hne, hheld, hseen, hpending⟩
  · cases hnone
  · cases hnone
  · exact ⟨source, hactive, hne, hheld, hseen, Option.some.inj hpending⟩

/-- Noticing a tick moves no position. -/
lemma detect_frame {r seen : Rollover α} {t : Tick α} {book : Book α}
    {pending : Option PendingRollover} (h : r.detect t book = (seen, pending)) :
    seen.terms = r.terms ∧ seen.events = r.events ∧ seen.actions = r.actions := by
  rcases detect_cases h with ⟨-, rfl, -⟩ | ⟨-, rfl, -⟩ | ⟨source, -, -, -, rfl, -⟩ <;>
    exact ⟨rfl, rfl, rfl⟩

variable [Scalar α]

/-! ## Moving a position -/

omit [Scalar α] in
/-- A flat contract takes a position over the way it was asked for. -/
lemma modeFor_of_flat (r : Rollover α) {book : Book α} {target : String}
    (h : book.net target = 0) : r.modeFor book target = r.terms.mode := by
  rw [modeFor]
  cases r.terms.mode with
  | strict => rfl
  | carry => exact if_pos h

omit [Scalar α] in
/-- A position is handed over only if that was asked for and the target is flat. -/
lemma modeFor_eq_strict_iff (r : Rollover α) (book : Book α) (target : String) :
    r.modeFor book target = .strict ↔ r.terms.mode = .strict ∨ book.net target ≠ 0 := by
  rw [modeFor]
  cases r.terms.mode with
  | strict => simp
  | carry =>
    by_cases hflat : book.net target = 0
    · simp [hflat]
    · simp [hflat]

omit [Scalar α] in
lemma flat_of_modeFor_eq_carry {r : Rollover α} {book : Book α} {target : String}
    (h : r.modeFor book target = .carry) : book.net target = 0 := by
  by_contra hheld
  have hstrict := (modeFor_eq_strict_iff r book target).mpr (Or.inr hheld)
  rw [h] at hstrict
  cases hstrict

/-- Where a tick of the old contract was seen, the old position is closed off the last one. -/
lemma closingPrice_of_seen {r : Rollover α} {source : String} {last : Tick α}
    (h : r.lastTicks.get? source = some last) (book : Book α) (side : Side) :
    r.closingPrice book side source = r.terms.pricing.price side last := by
  simp only [closingPrice, h]

/-- The leg of a strict move that closes the old position. -/
def closingLeg (r : Rollover α) (p : PendingRollover) (t : Tick α) (book : Book α)
    (volume : Int) (realized : α) : RolloverAction α :=
  let side := (Side.ofPosition (book.net p.source)).opposite
  let price := r.closingPrice book side p.source
  ⟨t.time, p.symbol, p.source, .closing, side, volume, price.1, price.2 * Scalar.ofInt volume,
    realized⟩

/-- The leg of a strict move that opens the new position. -/
def openingLeg (r : Rollover α) (p : PendingRollover) (t : Tick α) (book : Book α)
    (volume : Int) (realized : α) : RolloverAction α :=
  let side := Side.ofPosition (book.net p.source)
  let price := r.terms.pricing.price side t
  ⟨t.time, p.symbol, p.target, .opening, side, volume, price.1, price.2 * Scalar.ofInt volume,
    realized⟩

/-- The leg that hands the old position over. -/
def carryingLeg (p : PendingRollover) (t : Tick α) (book : Book α) (volume : Int) :
    RolloverAction α :=
  ⟨t.time, p.symbol, p.target, .carrying, Side.ofPosition (book.net p.source), volume,
    (book.position p.source).average, Scalar.zero, Scalar.zero⟩

/-- A move closes and opens, or hands over. -/
lemma move?_cases {r : Rollover α} {p : PendingRollover} {t : Tick α} {book : Book α}
    {m : Move α} (h : r.move? p t book = some m) :
    ∃ volume, Count.abs? (book.net p.source) = some volume ∧
      ((r.modeFor book p.target = .strict ∧ ∃ mid closed opened,
          book.trade? p.source (Side.ofPosition (book.net p.source)).opposite volume
              (r.closingLeg p t book volume closed).price = some (mid, closed) ∧
          mid.trade? p.target (Side.ofPosition (book.net p.source)) volume
              (r.openingLeg p t book volume opened).price = some (m.book, opened) ∧
          m.actions =
            [r.closingLeg p t book volume closed, r.openingLeg p t book volume opened] ∧
          m.closePrice = some (r.closingLeg p t book volume closed).price) ∨
        (r.modeFor book p.target = .carry ∧ m.book = book.handOver p.source p.target ∧
          m.actions = [carryingLeg p t book volume] ∧ m.closePrice = none)) := by
  simp only [move?] at h
  split at h
  · cases h
  · rename_i volume hvolume
    refine ⟨volume, hvolume, ?_⟩
    split at h
    · rename_i hmode
      simp only [moveStrict?, Option.bind_eq_bind, Option.bind_eq_some_iff, Option.some.injEq,
        Prod.exists] at h
      obtain ⟨mid, closed, hclose, final, opened, hopen, rfl⟩ := h
      exact Or.inl ⟨hmode, mid, closed, opened, hclose, hopen, rfl, rfl⟩
    · rename_i hmode
      obtain rfl := Option.some.inj h
      exact Or.inr ⟨hmode, rfl, rfl, rfl⟩

/-- The summary of a move that was made. -/
def summary (r : Rollover α) (p : PendingRollover) (t : Tick α) (book : Book α) (m : Move α)
    (canceledOrders : Nat) : RolloverEvent α :=
  { time := t.time, symbol := p.symbol, source := p.source, target := p.target
    requested := r.terms.mode, applied := r.modeFor book p.target, net := book.net p.source
    closePrice := m.closePrice, openPrice := m.openPrice
    slippageCost := m.slippageCost, canceledOrders }

/-- What is known of contracts and moves after one more move. -/
def afterMove (r : Rollover α) (p : PendingRollover) (m : Move α) (event : RolloverEvent α) :
    Rollover α :=
  { r.activate p.symbol p.target with
    events := r.events.push event
    actions := r.actions ++ m.actions.toArray
    slippageTotal := r.slippageTotal + m.slippageCost }

/-- Executing a switch makes the move, records its parts and its summary, and makes the new contract
the active one. -/
lemma execute?_cases {r r' : Rollover α} {p : PendingRollover} {t : Tick α} {book book' : Book α}
    {log log' : AuditLog α} {canceled : Nat} {event : RolloverEvent α}
    (h : r.execute? p t book log canceled = some (r', book', log', event)) :
    ∃ m, r.move? p t book = some m ∧ book' = m.book ∧
      event = r.summary p t book m canceled ∧
      log' = log.extend (m.actions.map (·.audit (r.modeFor book p.target))) ∧
      r' = r.afterMove p m event := by
  simp only [execute?, Option.map_eq_some_iff, Prod.mk.injEq] at h
  obtain ⟨m, hm, hr, hbook, hlog, hevent⟩ := h
  refine ⟨m, hm, hbook.symm, hevent.symm, ?_, ?_⟩
  · rw [AuditLog.extend, List.foldl_map]
    exact hlog.symm
  · rw [← hr, ← hevent]
    rfl

/-! ## Lots -/

lemma net_handOver (b : Book α) (source target other : String) :
    (b.handOver source target).net other =
      if other = target then b.net source else if other = source then 0 else b.net other := by
  simp only [Book.handOver, Book.net_put, Book.net_position]
  split
  · rfl
  · split <;> rfl

/-- After a move the old contract is flat, the new one has taken its lots on, and no other contract
has noticed. -/
theorem net_of_move? {r : Rollover α} {p : PendingRollover} {t : Tick α} {book : Book α}
    {m : Move α} (hne : p.source ≠ p.target) (hheld : book.net p.source ≠ 0)
    (h : r.move? p t book = some m) (other : String) :
    m.book.net other =
      if other = p.source then 0
      else if other = p.target then book.net p.target + book.net p.source
      else book.net other := by
  obtain ⟨volume, hvolume, hstrict | hcarry⟩ := move?_cases h
  · obtain ⟨-, mid, closed, opened, hclose, hopen, -, -⟩ := hstrict
    have hpos := Count.pos_of_abs? hheld hvolume
    have hsize : (Side.ofPosition (book.net p.source)).sign * volume = book.net p.source := by
      rw [Count.eq_natAbs_of_abs? hvolume, Side.sign_ofPosition]
    have hopened := Book.net_of_trade? hopen other
    by_cases hs : other = p.source
    · subst hs
      rw [hopened, if_neg fun ht => hne ht.1, if_pos rfl, Book.net_of_close? hvolume hclose]
    · have hmid : mid.net other = book.net other := by
        rw [Book.net_of_trade? hclose, if_neg fun hc => hs hc.1]
      rw [hopened, hmid, if_neg hs, hsize]
      by_cases ht : other = p.target
      · subst ht
        rw [if_pos ⟨rfl, hpos⟩, if_pos rfl]
      · rw [if_neg fun hc => ht hc.1, if_neg ht]
  · obtain ⟨hmode, hbook, -, -⟩ := hcarry
    rw [hbook, net_handOver, flat_of_modeFor_eq_carry hmode, Int.zero_add]
    by_cases hs : other = p.source
    · subst hs
      rw [if_neg hne, if_pos rfl, if_pos rfl]
    · rw [if_neg hs, if_neg hs]

/-- A move between contracts moves no mark. -/
lemma marks_of_move? {r : Rollover α} {p : PendingRollover} {t : Tick α} {book : Book α}
    {m : Move α} (h : r.move? p t book = some m) : m.book.marks = book.marks := by
  obtain ⟨volume, -, hstrict | hcarry⟩ := move?_cases h
  · obtain ⟨-, mid, closed, opened, hclose, hopen, -, -⟩ := hstrict
    exact (Book.marks_of_trade? hopen).trans (Book.marks_of_trade? hclose)
  · rw [hcarry.2.1]
    rfl

/-- There is room for a move: the lots that are moved have a size, and so have the lots of the
target before and after it is traded. -/
def HasRoom (r : Rollover α) (p : PendingRollover) (book : Book α) : Prop :=
  ((book.net p.source).natAbs : Int) ≤ Count.greatest ∧
    (r.modeFor book p.target = .strict →
      ((book.net p.target).natAbs : Int) ≤ Count.greatest ∧
        ((book.net p.target + book.net p.source).natAbs : Int) ≤ Count.greatest)

omit [Scalar α] in
/-- A flat contract has room for whatever has a size. -/
lemma hasRoom_of_flat {p : PendingRollover} {book : Book α} (r : Rollover α)
    (hheld : ((book.net p.source).natAbs : Int) ≤ Count.greatest)
    (hflat : book.net p.target = 0) : r.HasRoom p book := by
  refine ⟨hheld, fun _ => ?_⟩
  rw [hflat, Int.zero_add]
  exact ⟨by decide, hheld⟩

/-- Where there is room the position is moved. -/
theorem exists_move? {p : PendingRollover} {book : Book α} (r : Rollover α) (t : Tick α)
    (hne : p.source ≠ p.target) (hroom : r.HasRoom p book) : ∃ m, r.move? p t book = some m := by
  obtain ⟨hheld, htarget⟩ := hroom
  have hsize := Side.sign_ofPosition (book.net p.source)
  simp only [move?, Count.abs?_of_le hheld]
  split
  · rename_i hstrict
    obtain ⟨hbefore, hafter⟩ := htarget hstrict
    -- closing leaves nothing, and the target has not noticed when it is traded
    have hclosed : ((book.net p.source +
        (Side.ofPosition (book.net p.source)).opposite.sign *
          (book.net p.source).natAbs).natAbs : Int) ≤ Count.greatest := by
      rw [Side.sign_opposite, Int.neg_mul, hsize, Int.add_right_neg]
      decide
    obtain ⟨mid, closed, hclose⟩ := Book.exists_trade?
      (r.closingPrice book (Side.ofPosition (book.net p.source)).opposite p.source).1 hheld hclosed
    have hmid : mid.net p.target = book.net p.target := by
      rw [Book.net_of_trade? hclose, if_neg fun hc => hne hc.1.symm]
    rw [← hmid] at hbefore hafter
    rw [← hsize] at hafter
    obtain ⟨final, opened, hopen⟩ := Book.exists_trade?
      (r.terms.pricing.price (Side.ofPosition (book.net p.source)) t).1 hbefore hafter
    simp only [moveStrict?, hclose, hopen, Option.bind_eq_bind, Option.bind_some]
    exact ⟨_, rfl⟩
  · exact ⟨_, rfl⟩

/-- A position is moved if and only if there is room. -/
theorem exists_move?_iff {r : Rollover α} {p : PendingRollover} {t : Tick α} {book : Book α}
    (hne : p.source ≠ p.target) (hheld : book.net p.source ≠ 0) :
    (∃ m, r.move? p t book = some m) ↔ r.HasRoom p book := by
  refine ⟨?_, r.exists_move? t hne⟩
  rintro ⟨m, hm⟩
  obtain ⟨volume, hvolume, hways⟩ := move?_cases hm
  have hsize := Count.natAbs_le_of_abs? hvolume
  refine ⟨hsize, fun hmode => ?_⟩
  obtain ⟨-, mid, closed, opened, hclose, hopen, -, -⟩ | ⟨hcarry, -⟩ := hways
  · have hpos := Count.pos_of_abs? hheld hvolume
    have hlots := Side.sign_ofPosition (book.net p.source)
    rw [← Count.eq_natAbs_of_abs? hvolume] at hlots hsize
    have hmid : mid.net p.target = book.net p.target := by
      rw [Book.net_of_trade? hclose, if_neg fun hc => hne hc.1.symm]
    have hopens := (Book.exists_trade?_iff hsize).mp ⟨_, _, hopen⟩ hpos
    rw [hmid, hlots] at hopens
    exact hopens
  · rw [hmode] at hcarry
    cases hcarry

end Rollover

end MarketTape
