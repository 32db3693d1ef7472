import Mathlib.Tactic.Common
import MarketTape.Book

/-!
# What a trade does

A trade has three ways to go: it blends into the position, it closes lots, or it closes all of them
and opens the other side.  The number of lots does not care: it moves by what was traded, whichever
way was taken.

* `Position.net_of_trade?` is that fact, and `Position.exists_trade?_iff` says when a trade has a
  result.
* `Position.eq_of_close?` is the trade that leaves nothing.
* `Book.trade?_cases` and `Book.net_of_trade?` lift it to the book, where no other instrument
  notices.
-/

namespace MarketTape

variable {α : Type}

namespace Count

/-- The distance from zero, where there is one. -/
lemma eq_natAbs_of_abs? {n m : Int} (h : abs? n = some m) : m = n.natAbs :=
  (fit_eq_some_iff.mp h).2.symm

/-- A number that has a distance from zero is not too far from it. -/
lemma natAbs_le_of_abs? {n m : Int} (h : abs? n = some m) : (n.natAbs : Int) ≤ greatest := by
  rw [← eq_natAbs_of_abs? h]
  exact (fits_of_fit h).2

/-- A number that is not too far from zero has a distance from it. -/
lemma abs?_of_le {n : Int} (h : (n.natAbs : Int) ≤ greatest) : abs? n = some (n.natAbs : Int) := by
  have hleast : least ≤ (n.natAbs : Int) := Int.le_trans (by decide) (Int.natCast_nonneg _)
  exact fit_eq_some_iff.mpr ⟨⟨hleast, h⟩, rfl⟩

/-- So has every number that is no further away. -/
lemma fits_of_le {n m : Int} (h : (n.natAbs : Int) ≤ greatest) (hm : m.natAbs ≤ n.natAbs) :
    Fits m := by
  simp only [Fits, least, greatest] at h ⊢
  omega

/-- What is held has a size. -/
lemma pos_of_abs? {n m : Int} (hn : n ≠ 0) (h : abs? n = some m) : 0 < m := by
  rw [eq_natAbs_of_abs? h]
  omega

end Count

lemma Side.sign_eq (s : Side) : s.sign = 1 ∨ s.sign = -1 := by cases s <;> simp [sign]

/-- A position is its size times the sign of the side on which it grows. -/
lemma Side.sign_ofPosition (net : Int) :
    (ofPosition net).sign * net.natAbs = net := by
  rw [ofPosition]
  split <;> simp only [sign] <;> omega

namespace Side

variable {net volume : Int} {side : Side}

lemma natAbs_sign_mul (side : Side) (n : Int) : (side.sign * n).natAbs = n.natAbs := by
  cases side <;> simp [sign]

lemma sign_sign_mul (side : Side) {n : Int} (hn : 0 < n) : (side.sign * n).sign = side.sign := by
  rw [Int.sign_mul, Int.sign_eq_one_of_pos hn]
  cases side <;> rfl

/-- No lots, or lots on a side, are their size on that side. -/
lemma eq_of_along (h : net = 0 ∨ net.sign = side.sign) : net = side.sign * net.natAbs := by
  rcases side.sign_eq with hs | hs <;> rw [hs] at h ⊢
  · have hlong := h.imp_right Int.sign_eq_one_iff_pos.mp
    omega
  · have hshort := h.imp_right Int.sign_eq_neg_one_iff_neg.mp
    omega

/-- Trading along adds to the size. -/
lemma add_of_along (h : net = 0 ∨ net.sign = side.sign) :
    net + side.sign * volume = side.sign * (net.natAbs + volume) := by
  rw [Int.mul_add, ← eq_of_along h]

/-- Trading against lots takes off their size. -/
lemma add_of_against (h : net.sign = -side.sign) :
    net + side.sign * volume = side.opposite.sign * (net.natAbs - volume) := by
  have hopposite := eq_of_along (Or.inr (h.trans side.sign_opposite.symm))
  rw [Int.mul_sub, ← hopposite, sign_opposite, Int.neg_mul, Int.sub_neg]

end Side

/-! ## One position -/

namespace Position

variable [Scalar α]

/-- A trade that blends into a position adds its lots. -/
lemma net_of_grow? {p p' : Position α} {side : Side} {volume : Int} {price : α}
    (h : p.grow? side volume price = some p') : p'.net = p.net + side.sign * volume := by
  simp only [grow?, Option.bind_eq_bind, Option.bind_eq_some_iff, Option.some.injEq] at h
  obtain ⟨before, -, net, hnet, after, -, rfl⟩ := h
  exact (Count.fit_eq_some_iff.mp hnet).2.symm

/-- A trade against a position takes its lots away, and what is left of it opens the other side. -/
lemma net_of_reduce? {p p' : Position α} {side : Side} {volume : Int} {price profit : α}
    (hnet : p.net ≠ 0) (hside : p.net.sign ≠ side.sign)
    (h : p.reduce? side volume price = some (p', profit)) :
    p'.net = p.net + side.sign * volume := by
  simp only [reduce?, Option.bind_eq_bind, Option.bind_eq_some_iff, Option.some.injEq,
    Prod.mk.injEq] at h
  obtain ⟨held, hheld, net, hfit, hp', -⟩ := h
  have habs := Count.eq_natAbs_of_abs? hheld
  have hsum := (Count.fit_eq_some_iff.mp hfit).2
  have hopposite : p.net = -(side.sign * held) := by
    rcases Int.lt_trichotomy p.net 0 with hlt | heq | hgt
    · rw [Int.sign_eq_neg_one_of_neg hlt] at hside
      rcases side.sign_eq with hs | hs <;> rw [hs] at hside ⊢ <;> omega
    · exact absurd heq hnet
    · rw [Int.sign_eq_one_of_pos hgt] at hside
      rcases side.sign_eq with hs | hs <;> rw [hs] at hside ⊢ <;> omega
  rw [← hp']
  -- the three outcomes differ in prices only
  rcases side.sign_eq with hs | hs <;> rw [hs] at hopposite hsum ⊢ <;> split
  · simp only; omega
  · split <;> simp only <;> omega
  · simp only; omega
  · split <;> simp only <;> omega

/-- The number of lots moves by what was traded. -/
theorem net_of_trade? {p p' : Position α} {side : Side} {volume : Int} {price profit : α}
    (h : p.trade? side volume price = some (p', profit)) :
    p'.net = if volume ≤ 0 then p.net else p.net + side.sign * volume := by
  rw [trade?] at h
  split at h
  · rename_i hvolume
    simp only [Option.some.injEq, Prod.mk.injEq] at h
    rw [if_pos hvolume, h.1]
  · rename_i hvolume
    rw [if_neg hvolume]
    split at h
    · simp only [Option.map_eq_some_iff, Prod.mk.injEq] at h
      obtain ⟨q, hq, rfl, -⟩ := h
      exact net_of_grow? hq
    · rename_i hside
      rw [not_or] at hside
      exact net_of_reduce? hside.1 hside.2 h

/-- A trade between numbers of lots that have a distance from zero has a result. -/
theorem exists_trade? {p : Position α} {side : Side} {volume : Int} (price : α)
    (hbefore : (p.net.natAbs : Int) ≤ Count.greatest)
    (hafter : ((p.net + side.sign * volume).natAbs : Int) ≤ Count.greatest) :
    ∃ p' profit, p.trade? side volume price = some (p', profit) := by
  have habs := Count.abs?_of_le hbefore
  rw [trade?]
  split
  · exact ⟨p, Scalar.zero, rfl⟩
  · rename_i hvolume
    split
    · have hfit : Count.fit (p.net + side.sign * volume) = some (p.net + side.sign * volume) :=
        Count.fit_eq_some_iff.mpr ⟨Count.fits_of_le hafter (Nat.le_refl _), rfl⟩
      have hgrow : ∃ p', p.grow? side volume price = some p' := by
        rw [grow?, habs, hfit]
        simp only [Option.bind_eq_bind, Option.bind_some, Count.abs?_of_le hafter]
        exact ⟨_, rfl⟩
      obtain ⟨p', hp'⟩ := hgrow
      exact ⟨p', Scalar.zero, by rw [hp']; rfl⟩
    · rename_i hside
      rw [not_or] at hside
      -- closing at most what is held takes the position towards zero
      have hclosed : (p.net + side.sign * min volume p.net.natAbs).natAbs ≤ p.net.natAbs := by
        rcases side.sign_eq with hs | hs <;> rw [hs] at hside ⊢
        · have hshort := mt Int.sign_eq_one_iff_pos.mpr hside.2
          omega
        · have hlong := mt Int.sign_eq_neg_one_iff_neg.mpr hside.2
          omega
      have hfit : Count.fit (p.net + side.sign * min volume p.net.natAbs) =
          some (p.net + side.sign * min volume p.net.natAbs) :=
        Count.fit_eq_some_iff.mpr ⟨Count.fits_of_le hbefore hclosed, rfl⟩
      rw [reduce?, habs]
      simp only [Option.bind_eq_bind, Option.bind_some, hfit]
      exact ⟨_, _, rfl⟩

variable {p p' : Position α} {side : Side} {volume : Int} {price profit : α}

/-- A trade that takes lots on has asked for the size of what there was and of what there is. -/
lemma sizes_of_grow? (h : p.grow? side volume price = some p') :
    (p.net.natAbs : Int) ≤ Count.greatest ∧ (p'.net.natAbs : Int) ≤ Count.greatest := by
  simp only [grow?, Option.bind_eq_bind, Option.bind_eq_some_iff, Option.some.injEq] at h
  obtain ⟨before, hbefore, net, -, after, hafter, rfl⟩ := h
  exact ⟨Count.natAbs_le_of_abs? hbefore, Count.natAbs_le_of_abs? hafter⟩

/-- A trade that closes lots has asked for the size of what there was. -/
lemma size_of_reduce? (h : p.reduce? side volume price = some (p', profit)) :
    (p.net.natAbs : Int) ≤ Count.greatest := by
  simp only [reduce?, Option.bind_eq_bind, Option.bind_eq_some_iff] at h
  obtain ⟨held, hheld, -⟩ := h
  exact Count.natAbs_le_of_abs? hheld

omit [Scalar α] in
/-- Against the position lots of neither side become more than there were, or than are traded. -/
lemma natAbs_against_le (hside : p.net.sign ≠ side.sign) (hvolume : 0 ≤ volume) :
    ((p.net + side.sign * volume).natAbs : Int) ≤ max (p.net.natAbs : Int) volume := by
  rcases side.sign_eq with hs | hs <;> rw [hs] at hside ⊢
  · have hshort := mt Int.sign_eq_one_iff_pos.mpr hside
    omega
  · have hlong := mt Int.sign_eq_neg_one_iff_neg.mpr hside
    omega

/-- A trade has a result if and only if the position has a size before it and after it; a trade of
no lots always has one. -/
theorem exists_trade?_iff (hcounted : volume ≤ Count.greatest) :
    (∃ p' profit, p.trade? side volume price = some (p', profit)) ↔
      (0 < volume → (p.net.natAbs : Int) ≤ Count.greatest ∧
        ((p.net + side.sign * volume).natAbs : Int) ≤ Count.greatest) := by
  by_cases hsome : 0 < volume
  swap
  · have hnone : p.trade? side volume price = some (p, Scalar.zero) := if_pos (Int.not_lt.mp hsome)
    exact iff_of_true ⟨p, Scalar.zero, hnone⟩ fun h => absurd h hsome
  constructor
  · rintro ⟨p', profit, h⟩ -
    rw [trade?, if_neg (Int.not_le.mpr hsome)] at h
    split at h
    · simp only [Option.map_eq_some_iff, Prod.mk.injEq] at h
      obtain ⟨q, hq, rfl, -⟩ := h
      rw [← net_of_grow? hq]
      exact sizes_of_grow? hq
    · rename_i hside
      have hbefore := size_of_reduce? h
      have hafter := natAbs_against_le (not_or.mp hside).2 (Int.le_of_lt hsome)
      exact ⟨hbefore, Int.le_trans hafter (Int.max_le.mpr ⟨hbefore, hcounted⟩)⟩
  · intro h
    obtain ⟨hbefore, hafter⟩ := h hsome
    exact exists_trade? price hbefore hafter

/-- Trading all lots of a position on the other side leaves nothing but the profit. -/
lemma eq_of_close? (hheld : p.net ≠ 0) (hvolume : Count.abs? p.net = some volume)
    (h : p.trade? (Side.ofPosition p.net).opposite volume price = some (p', profit)) :
    p' = ⟨0, Scalar.zero, p.realized + profit⟩ := by
  have hsome := Count.pos_of_abs? hheld hvolume
  have hlots := Side.sign_ofPosition p.net
  rw [← Count.eq_natAbs_of_abs? hvolume] at hlots
  have hagainst : ¬ (p.net = 0 ∨ p.net.sign = (Side.ofPosition p.net).opposite.sign) := by
    rw [not_or, Side.sign_opposite]
    refine ⟨hheld, fun hsign => ?_⟩
    rcases (Side.ofPosition p.net).sign_eq with hs | hs <;> rw [hs] at hsign hlots
    · rw [Int.sign_eq_neg_one_iff_neg] at hsign
      omega
    · rw [Int.neg_neg, Int.sign_eq_one_iff_pos] at hsign
      omega
  have hrest : p.net + (Side.ofPosition p.net).opposite.sign * volume = 0 := by
    rw [Side.sign_opposite, Int.neg_mul, hlots, Int.add_right_neg]
  rw [trade?, if_neg (Int.not_le.mpr hsome), if_neg hagainst] at h
  simp only [reduce?, hvolume, Option.bind_eq_bind, Option.bind_some, Int.min_self, Int.sub_self,
    hrest, Option.bind_eq_some_iff, Option.some.injEq, Prod.mk.injEq] at h
  obtain ⟨net, hnet, hp', rfl⟩ := h
  obtain ⟨-, rfl⟩ := Count.fit_eq_some_iff.mp hnet
  rw [← hp', if_neg (Int.lt_irrefl 0), if_pos rfl]

end Position

/-! ## The book -/

namespace Book

variable [Scalar α]

lemma net_position (b : Book α) (instrument : String) :
    (b.position instrument).net = b.net instrument := by
  rw [position, net]
  cases b.get? instrument <;> rfl

@[simp] lemma position_put (b : Book α) (instrument : String) (p : Position α) (other : String) :
    (b.put instrument p).position other = if other = instrument then p else b.position other := by
  rw [position]
  rw [get?_put]
  split <;> rfl

/-- A trade writes the position of its own instrument. -/
lemma trade?_cases {b b' : Book α} {instrument : String} {side : Side} {volume : Int}
    {price profit : α} (h : b.trade? instrument side volume price = some (b', profit)) :
    ∃ p, (b.position instrument).trade? side volume price = some (p, profit) ∧
      b' = b.put instrument p := by
  simp only [trade?, Option.map_eq_some_iff, Prod.exists, Prod.mk.injEq] at h
  obtain ⟨p, profit', hp, hb', rfl⟩ := h
  exact ⟨p, hp, hb'.symm⟩

/-- A trade between numbers of lots that have a distance from zero has a result. -/
lemma exists_trade? {b : Book α} {instrument : String} {side : Side} {volume : Int} (price : α)
    (hbefore : ((b.net instrument).natAbs : Int) ≤ Count.greatest)
    (hafter : ((b.net instrument + side.sign * volume).natAbs : Int) ≤ Count.greatest) :
    ∃ b' profit, b.trade? instrument side volume price = some (b', profit) := by
  rw [← net_position] at hbefore hafter
  obtain ⟨p, profit, hp⟩ := Position.exists_trade? price hbefore hafter
  exact ⟨b.put instrument p, profit, by rw [trade?, hp]; rfl⟩

/-- A trade has a result if and only if the lots of its instrument have a size before it and after
it. -/
lemma exists_trade?_iff {b : Book α} {instrument : String} {side : Side} {volume : Int} {price : α}
    (hcounted : volume ≤ Count.greatest) :
    (∃ b' profit, b.trade? instrument side volume price = some (b', profit)) ↔
      (0 < volume → ((b.net instrument).natAbs : Int) ≤ Count.greatest ∧
        ((b.net instrument + side.sign * volume).natAbs : Int) ≤ Count.greatest) := by
  rw [← net_position, ← Position.exists_trade?_iff hcounted]
  simp only [trade?, Option.map_eq_some_iff, Prod.exists, Prod.mk.injEq]
  constructor
  · rintro ⟨-, profit, p, profit', hp, -, rfl⟩
    exact ⟨p, profit', hp⟩
  · rintro ⟨p, profit, hp⟩
    exact ⟨_, profit, p, profit, hp, rfl, rfl⟩

/-- No other instrument has a new record after a trade. -/
lemma get?_of_trade? {b b' : Book α} {instrument : String} {side : Side} {volume : Int}
    {price profit : α} (h : b.trade? instrument side volume price = some (b', profit))
    {other : String} (hother : other ≠ instrument) : b'.get? other = b.get? other := by
  obtain ⟨p, -, rfl⟩ := trade?_cases h
  rw [get?_put, if_neg hother]

/-- A trade moves no mark. -/
lemma marks_of_trade? {b b' : Book α} {instrument : String} {side : Side} {volume : Int}
    {price profit : α} (h : b.trade? instrument side volume price = some (b', profit)) :
    b'.marks = b.marks := by
  obtain ⟨p, -, rfl⟩ := trade?_cases h
  rfl

/-- A trade moves the lots of its own instrument by what was traded, and no others. -/
theorem net_of_trade? {b b' : Book α} {instrument : String} {side : Side} {volume : Int}
    {price profit : α} (h : b.trade? instrument side volume price = some (b', profit))
    (other : String) :
    b'.net other = if other = instrument ∧ 0 < volume then b.net other + side.sign * volume
      else b.net other := by
  obtain ⟨p, hp, rfl⟩ := trade?_cases h
  have hnet := Position.net_of_trade? hp
  rw [net_position] at hnet
  rw [net_put]
  by_cases hother : other = instrument
  · subst hother
    rw [if_pos rfl, hnet]
    by_cases hvolume : volume ≤ 0
    · rw [if_pos hvolume, if_neg (fun hpos => absurd hpos.2 (Int.not_lt.mpr hvolume))]
    · rw [if_neg hvolume, if_pos ⟨rfl, Int.not_le.mp hvolume⟩]
  · rw [if_neg hother, if_neg (fun hpos => hother hpos.1)]

/-- Trading all that is held on the other side leaves nothing. -/
lemma net_of_close? {b b' : Book α} {instrument : String} {volume : Int} {price profit : α}
    (hvolume : Count.abs? (b.net instrument) = some volume)
    (h : b.trade? instrument (Side.ofPosition (b.net instrument)).opposite volume price =
      some (b', profit)) : b'.net instrument = 0 := by
  have hsize := Side.sign_ofPosition (b.net instrument)
  have hvol := Count.eq_natAbs_of_abs? hvolume
  rw [← hvol] at hsize
  rw [net_of_trade? h, Side.sign_opposite, Int.neg_mul, hsize]
  by_cases hpos : 0 < volume
  · rw [if_pos ⟨rfl, hpos⟩]
    omega
  · rw [if_neg fun h => hpos h.2]
    omega

end Book

end MarketTape
