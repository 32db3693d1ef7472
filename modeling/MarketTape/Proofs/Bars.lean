import Mathlib.Tactic.Common
import MarketTape.Bar

/-!
# What a tick does to the open bar

A tick is added to the open bar, or it closes it and opens a bar of its own.  Either way the open
bar then ends with the tick: its instrument, its time and its close are those of the tick.  So a bar
that is closed ends with the tick before the one that closed it, and every tick is counted in one
bar.

* `Bars.push?_split` says the two things that a tick can do, `Bars.flush_eq` what the end does.
* `OpenBar.EndsWith` is the relation of a bar to its last tick, and `Bars.push?_endsWith` gives it.
* `Bars.held` are the ticks of the open bar; `Bars.held_push?` and `Bars.held_flush` count them.
-/

namespace MarketTape

variable {α : Type}

/-! ## The last tick of a bar -/

/-- A bar whose last tick is the given one. -/
structure OpenBar.EndsWith (b : OpenBar α) (t : Tick α) : Prop where
  instrument : b.instrument = t.instrument
  lastTime : b.lastTime = t.time
  close : b.close = t.last

namespace OpenBar

lemma ofTick?_endsWith {t : Tick α} {bucket width : Int} {b : OpenBar α}
    (h : ofTick? t bucket width = some b) : b.EndsWith t ∧ b.tickCount = 1 := by
  rw [ofTick?, Option.map_eq_some_iff] at h
  obtain ⟨start, -, rfl⟩ := h
  exact ⟨⟨rfl, rfl, rfl⟩, rfl⟩

lemma add_endsWith [Scalar α] {b : OpenBar α} {t : Tick α} (h : b.instrument = t.instrument) :
    (b.add t).EndsWith t := ⟨h, rfl, rfl⟩

lemma eq_add_of_add? [Scalar α] {b b' : OpenBar α} {t : Tick α} (h : b.add? t = some b') :
    b' = b.add t := by
  obtain ⟨-, hadd⟩ := Option.ite_none_right_eq_some.mp h
  exact (Option.some.inj hadd).symm

end OpenBar

namespace Bars

variable [Scalar α] {s s' : Bars α} {t : Tick α} {closed : Option (Bar α)}

/-! ## The open bar under a tick -/

lemma reopen?_split {bucket : Int} (h : s.reopen? t bucket = some (s', closed)) :
    ∃ fresh, OpenBar.ofTick? t bucket s.width = some fresh ∧ s'.current = some fresh ∧
      closed = s.current.map OpenBar.finish := by
  rw [reopen?, Option.map_eq_some_iff] at h
  obtain ⟨fresh, hfresh, hs⟩ := h
  refine ⟨fresh, hfresh, ?_⟩
  cases hcurrent : s.current with
  | none =>
    simp only [hcurrent, Prod.mk.injEq] at hs
    obtain ⟨rfl, rfl⟩ := hs
    exact ⟨rfl, rfl⟩
  | some b =>
    simp only [hcurrent, Prod.mk.injEq] at hs
    obtain ⟨rfl, rfl⟩ := hs
    exact ⟨rfl, rfl⟩

/-- A tick is added to the open bar, or it closes it and opens a bar of its own. -/
theorem push?_split (h : s.push? t = some (s', closed)) :
    (∃ b, s.current = some b ∧ b.instrument = t.instrument ∧ s'.current = some (b.add t) ∧
        closed = none) ∨
      ∃ bucket fresh, OpenBar.ofTick? t bucket s.width = some fresh ∧ s'.current = some fresh ∧
        closed = s.current.map OpenBar.finish := by
  rw [push?] at h
  split at h
  · cases h
  · rename_i bucket hbucket
    split at h
    · rename_i b hcurrent
      split at h
      · rename_i htakes
        rw [Option.map_eq_some_iff] at h
        obtain ⟨added, hadd, hs⟩ := h
        obtain rfl := OpenBar.eq_add_of_add? hadd
        obtain ⟨rfl, rfl⟩ := Prod.mk.inj hs
        simp only [OpenBar.takes, Bool.and_eq_true, beq_iff_eq] at htakes
        exact Or.inl ⟨b, hcurrent, htakes.2, rfl, rfl⟩
      · exact Or.inr ⟨bucket, reopen?_split h⟩
    · exact Or.inr ⟨bucket, reopen?_split h⟩

/-- After a tick the open bar ends with it. -/
lemma push?_endsWith (h : s.push? t = some (s', closed)) :
    ∃ b, s'.current = some b ∧ b.EndsWith t := by
  rcases push?_split h with ⟨b, -, hinstrument, hcurrent, -⟩ | ⟨bucket, fresh, hfresh, hcurrent, -⟩
  · exact ⟨b.add t, hcurrent, OpenBar.add_endsWith hinstrument⟩
  · exact ⟨fresh, hcurrent, (OpenBar.ofTick?_endsWith hfresh).1⟩

/-- A bar that a tick closed was the open one. -/
lemma push?_closed {bar : Bar α} (h : s.push? t = some (s', some bar)) :
    ∃ b, s.current = some b ∧ bar = b.finish := by
  rcases push?_split h with ⟨b, -, -, -, hclosed⟩ | ⟨bucket, fresh, -, -, hclosed⟩
  · cases hclosed
  · obtain ⟨b, hb, hbar⟩ := Option.map_eq_some_iff.mp hclosed.symm
    exact ⟨b, hb, hbar.symm⟩

lemma flush_eq (s : Bars α) : s.flush.2 = s.current.map OpenBar.finish := by
  rw [flush]
  split
  · rename_i hcurrent
    rw [hcurrent]
    rfl
  · rename_i b hcurrent
    rw [hcurrent]
    rfl

/-! ## Counting ticks -/

omit [Scalar α] in
/-- The number of ticks of the open bar. -/
def held (s : Bars α) : Nat := (s.current.map (·.tickCount)).getD 0

/-- A tick is held, or what was held is now in the bar that it closed. -/
lemma held_push? (h : s.push? t = some (s', closed)) :
    s'.held + (closed.map (·.tickCount)).getD 0 = s.held + 1 := by
  rcases push?_split h with ⟨b, hb, -, hcurrent, rfl⟩ | ⟨bucket, fresh, hfresh, hcurrent, rfl⟩
  · rw [held, held, hb, hcurrent]
    rfl
  · have hone := (OpenBar.ofTick?_endsWith hfresh).2
    simp only [held, hcurrent, hone, Option.map_some, Option.getD_some, Option.map_map]
    exact Nat.add_comm ..

/-- The last bar has the ticks that were held. -/
lemma held_flush (s : Bars α) : (s.flush.2.map (·.tickCount)).getD 0 = s.held := by
  rw [flush_eq, Option.map_map]
  rfl

end Bars

end MarketTape
