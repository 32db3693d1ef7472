import Mathlib.Data.List.Forall2
import MarketTape.Proofs.Stretches

/-!
# Bars are the runs of a stream

Bars can be built under way, with the end of the stream called out wherever one likes.  What comes
of that is told by the calls alone.  They are cut between any two that do not push ticks of one
cell; what is left of a section, without the calls that only flush, is a run.  A bar sums up a run,
it comes with the call after the last tick of the run, and so every run but the last one has its
bar at any time, and the last one has it once it was flushed.  A run of more ticks than can be
counted has no bar, and the calls that make it have no result.

* `BarCall` is a push or a flush, and `Bars.serveAll?` makes one call after the other.
* `sections` cuts the calls, and `runs` and `closedRuns` are what the bars are made of.
* `Bars.after` is what the calls have led to, `Bars.serve?_after` one call more, and
  `Bars.serveAll?_eq` all of them.
* `bars_sum_up_runs` is the result.
-/

namespace MarketTape

variable {α : Type}

/-! ## Calls -/

/-- What the building of bars can be asked for: a tick is to be taken, or the open bar is to be
closed. -/
inductive BarCall (α : Type) where
  | push (t : Tick α)
  | flush
  deriving DecidableEq, Repr

namespace BarCall

/-- The tick that is to be taken. -/
def tick? : BarCall α → Option (Tick α)
  | .push t => some t
  | .flush => none

/-- The ticks that are to be taken. -/
def pushed (calls : List (BarCall α)) : List (Tick α) := calls.filterMap tick?

/-- Whether the second call goes on with the run of the first one: both push ticks of one cell. -/
def goesOn (width : Int) : BarCall α → BarCall α → Bool
  | .push a, .push b => a.cell width == b.cell width
  | _, _ => false

lemma pushed_concat_push (calls : List (BarCall α)) (t : Tick α) :
    pushed (calls ++ [.push t]) = pushed calls ++ [t] := by
  simp [pushed, tick?]

lemma pushed_concat_flush (calls : List (BarCall α)) :
    pushed (calls ++ [.flush]) = pushed calls := by
  simp [pushed, tick?]

lemma pushed_map_push (ticks : List (Tick α)) : pushed (ticks.map .push) = ticks := by
  simp [pushed, List.filterMap_map, Function.comp_def, tick?]

end BarCall

open BarCall

namespace Bars

variable [Scalar α]

/-- Makes a call, and gives the bar that it closed. -/
def serve? (s : Bars α) : BarCall α → Option (Bars α × Option (Bar α))
  | .push t => s.push? t
  | .flush => some s.flush

/-- Makes one call after the other, and gives the bars that they closed. -/
def serveAll? (s : Bars α) : List (BarCall α) → Option (Bars α × List (Bar α))
  | [] => some (s, [])
  | call :: calls =>
    (s.serve? call).bind fun (s, closed) =>
      (s.serveAll? calls).map fun (s, bars) => (s, closed.toList ++ bars)

/-- One call more. -/
lemma serveAll?_concat (s : Bars α) (calls : List (BarCall α)) (call : BarCall α) :
    s.serveAll? (calls ++ [call]) =
      (s.serveAll? calls).bind fun (s, bars) =>
        (s.serve? call).map fun (s, closed) => (s, bars ++ closed.toList) := by
  induction calls generalizing s with
  | nil => cases h : s.serve? call <;> simp [serveAll?, h]
  | cons first calls ih =>
    cases h : s.serve? first with
    | none => simp [serveAll?, h]
    | some answer =>
      simp only [List.cons_append, serveAll?, h, Option.bind_some, ih]
      cases h' : answer.1.serveAll? calls with
      | none => simp
      | some result => cases h'' : result.1.serve? call <;> simp [h'']

end Bars

/-! ## Runs -/

/-- An element that goes on with the last part of a list goes into that part. -/
lemma splitBy_concat {β : Type} {r : β → β → Bool} {xs : List β} {front : List (List β)}
    {part : List β} {x : β} (h : xs.splitBy r = front ++ [part])
    (hx : ∀ y ∈ part.getLast?, r y x = true) :
    (xs ++ [x]).splitBy r = front ++ [part ++ [x]] := by
  obtain ⟨hflat, hne, hchain, hbreak⟩ := List.splitBy_eq_iff.mp h
  have hpart : part ≠ [] := fun hnil => hne (by simp [hnil])
  refine List.splitBy_eq_iff.mpr ⟨?_, ?_, ?_, ?_⟩
  · rw [hflat]
    simp
  · simpa using fun hmem => hne (List.mem_append_left _ hmem)
  · intro m hm
    rcases List.mem_append.mp hm with hm | hm
    · exact hchain m (List.mem_append_left _ hm)
    · obtain rfl := List.mem_singleton.mp hm
      refine List.isChain_append.mpr ⟨hchain part (by simp), List.isChain_singleton x, ?_⟩
      simpa using hx
  · obtain ⟨hfront, -, hlast⟩ := List.isChain_append.mp hbreak
    refine List.isChain_append.mpr ⟨hfront, List.isChain_singleton _, fun m hm n hn => ?_⟩
    obtain ⟨hm', hpart', hr⟩ := hlast m hm part (by simp)
    obtain rfl : part ++ [x] = n := by simpa using hn
    refine ⟨hm', by simp, ?_⟩
    rwa [List.head_append_of_ne_nil hpart]

/-- The calls, cut where a call does not go on with the run of the one before it. -/
def sections (width : Int) (calls : List (BarCall α)) : List (List (BarCall α)) :=
  calls.splitBy (goesOn width)

/-- The ticks of the sections, where there are any: cut at every flush, and where the instrument or
the bucket changes. -/
def runs (width : Int) (calls : List (BarCall α)) : List (List (Tick α)) :=
  ((sections width calls).map pushed).filter (!·.isEmpty)

/-- The runs that no further tick can go into: all of them, but for the last one where the last call
is a push. -/
def closedRuns (width : Int) (calls : List (BarCall α)) : List (List (Tick α)) :=
  if (calls.getLast?.bind tick?).isSome then (runs width calls).dropLast else runs width calls

/-- The ticks of the last section, which further ticks may still go into. -/
def openRun (width : Int) (calls : List (BarCall α)) : List (Tick α) :=
  ((sections width calls).getLast?.map pushed).getD []

section Runs

variable {width : Int} {calls : List (BarCall α)}

/-- A section is a flush alone, or it pushes ticks of one cell. -/
lemma section_cases {part : List (BarCall α)} (h : part ∈ sections width calls) :
    part = [.flush] ∨ ∃ first rest, part = (first :: rest).map .push ∧
      ∀ t ∈ rest, t.cell width = first.cell width := by
  have hchain := List.isChain_of_mem_splitBy h
  have hne := List.ne_nil_of_mem_splitBy h
  clear h
  induction part with
  | nil => exact absurd rfl hne
  | cons call part ih =>
    cases part with
    | nil =>
      cases call with
      | push t => exact Or.inr ⟨t, [], rfl, by simp⟩
      | flush => exact Or.inl rfl
    | cons next part =>
      obtain ⟨hon, hchain⟩ := List.isChain_cons_cons.mp hchain
      rcases ih hchain (List.cons_ne_nil _ _) with hflush | ⟨first, rest, hpart, hsame⟩
      · -- nothing goes on with a flush
        obtain ⟨rfl, rfl⟩ := List.cons.inj hflush
        cases call <;> cases hon
      · obtain ⟨rfl, rfl⟩ := List.cons.inj hpart
        cases call with
        | flush => cases hon
        | push t =>
          have hcell : t.cell width = first.cell width := beq_iff_eq.mp hon
          refine Or.inr ⟨t, first :: rest, rfl, fun x hx => ?_⟩
          rcases List.mem_cons.mp hx with rfl | hx
          · exact hcell.symm
          · exact (hsame x hx).trans hcell.symm

/-- A call that does not go on with the last run is a section of its own. -/
lemma sections_concat_of_break {call : BarCall α}
    (h : ∀ last ∈ calls.getLast?, goesOn width last call = false) :
    sections width (calls ++ [call]) = sections width calls ++ [[call]] :=
  List.splitBy_append_cons [] h

/-- A tick that goes on with the last run goes into its section. -/
lemma sections_concat_of_goesOn {front : List (List (BarCall α))} {first last t : Tick α}
    {rest : List (Tick α)} (hparts : sections width calls = front ++ [(first :: rest).map .push])
    (hlast : (first :: rest).getLast? = some last) (hcell : t.cell width = last.cell width) :
    sections width (calls ++ [.push t]) = front ++ [(first :: (rest ++ [t])).map .push] := by
  rw [← List.cons_append, List.map_append, List.map_singleton]
  refine splitBy_concat hparts fun call hcall => ?_
  rw [List.getLast?_map, hlast] at hcall
  obtain rfl := Option.some.inj hcall
  exact beq_iff_eq.mpr hcell.symm

/-- The last call is the last one of the last section. -/
lemma getLast?_of_sections {front : List (List (BarCall α))} {part : List (BarCall α)}
    (h : sections width calls = front ++ [part]) : calls.getLast? = part.getLast? := by
  obtain ⟨hflat, hne, -, -⟩ := List.splitBy_eq_iff.mp h
  have hpart : part ≠ [] := fun hnil => hne (by simp [hnil])
  rw [hflat, List.flatten_append, List.flatten_singleton, List.getLast?_append_of_ne_nil _ hpart]

/-- The closed runs are those of the sections before the last one. -/
lemma closedRuns_eq : closedRuns width calls =
    ((sections width calls).dropLast.map pushed).filter (!·.isEmpty) := by
  rcases List.eq_nil_or_concat' (sections width calls) with hnil | ⟨front, part, hparts⟩
  · obtain rfl := List.splitBy_eq_nil.mp hnil
    rfl
  · rw [closedRuns, getLast?_of_sections hparts, runs, hparts, List.dropLast_concat,
      List.map_append, List.filter_append]
    rcases section_cases (hparts ▸ List.mem_append_right front (List.mem_singleton_self part)) with
      rfl | ⟨first, rest, rfl, -⟩
    · simp [pushed, tick?]
    · rw [List.getLast?_map, List.getLast?_eq_some_getLast (List.cons_ne_nil first rest),
        List.map_singleton, pushed_map_push]
      simp [tick?]

lemma closedRuns_of_sections {front : List (List (BarCall α))} {part : List (BarCall α)}
    (h : sections width calls = front ++ [part]) :
    closedRuns width calls = (front.map pushed).filter (!·.isEmpty) := by
  rw [closedRuns_eq, h, List.dropLast_concat]

lemma openRun_of_sections {front : List (List (BarCall α))} {part : List (BarCall α)}
    (h : sections width calls = front ++ [part]) : openRun width calls = pushed part := by
  rw [openRun, h, List.getLast?_concat]
  rfl

/-- A call that begins a section leaves all runs before it closed. -/
lemma closedRuns_of_break {call : BarCall α}
    (h : ∀ last ∈ calls.getLast?, goesOn width last call = false) :
    closedRuns width (calls ++ [call]) = runs width calls :=
  closedRuns_of_sections (sections_concat_of_break h)

lemma openRun_of_break {call : BarCall α}
    (h : ∀ last ∈ calls.getLast?, goesOn width last call = false) :
    openRun width (calls ++ [call]) = pushed [call] :=
  openRun_of_sections (sections_concat_of_break h)

/-- The last run is open, or there is no run that is. -/
lemma runs_eq : runs width calls =
    closedRuns width calls ++ [openRun width calls].filter (!·.isEmpty) := by
  rw [closedRuns_eq, runs, openRun]
  rcases List.eq_nil_or_concat' (sections width calls) with hnil | ⟨front, part, hparts⟩
  · simp [hnil]
  · simp [hparts]

variable (width calls) in
/-- Nothing is lost by cutting. -/
lemma flatten_runs : (runs width calls).flatten = pushed calls := by
  rw [runs, List.flatten_filter_not_isEmpty, pushed]
  conv_rhs => rw [← List.flatten_splitBy (goesOn width) calls, List.filterMap_flatten]
  rfl

variable (width calls) in
/-- There is no open run, and then the last call is no push, or it ends with the tick of the last
call. -/
lemma openRun_cases :
    (openRun width calls = [] ∧ ∀ last ∈ calls.getLast?, last = .flush) ∨
      ∃ front first rest last, sections width calls = front ++ [(first :: rest).map .push] ∧
        openRun width calls = first :: rest ∧ (first :: rest).getLast? = some last ∧
          calls.getLast? = some (.push last) ∧ last.cell width = first.cell width := by
  rcases List.eq_nil_or_concat' (sections width calls) with hnil | ⟨front, part, hparts⟩
  · obtain rfl := List.splitBy_eq_nil.mp hnil
    exact Or.inl ⟨rfl, by simp⟩
  rcases section_cases (hparts ▸ List.mem_append_right front (List.mem_singleton_self part)) with
    rfl | ⟨first, rest, rfl, hsame⟩
  · refine Or.inl ⟨openRun_of_sections hparts, ?_⟩
    simp [getLast?_of_sections hparts]
  · obtain ⟨last, hlast⟩ : ∃ last, (first :: rest).getLast? = some last :=
      ⟨_, List.getLast?_eq_some_getLast (List.cons_ne_nil first rest)⟩
    refine Or.inr ⟨front, first, rest, last, hparts, ?_, hlast, ?_, ?_⟩
    · exact (openRun_of_sections hparts).trans (pushed_map_push _)
    · rw [getLast?_of_sections hparts, List.getLast?_map, hlast]
      rfl
    · rcases List.mem_cons.mp (List.mem_of_getLast? hlast) with heq | hmem
      · rw [heq]
      · exact hsame _ hmem

variable (width calls) in
/-- One call more closes the open run, or lets it grow. -/
lemma closedRuns_concat_cases (call : BarCall α) :
    closedRuns width (calls ++ [call]) = runs width calls ∨
      closedRuns width (calls ++ [call]) = closedRuns width calls ∧
        (openRun width calls).length ≤ (openRun width (calls ++ [call])).length := by
  by_cases hbreak : ∀ last ∈ calls.getLast?, goesOn width last call = false
  · exact Or.inl (closedRuns_of_break hbreak)
  simp only [not_forall, Bool.not_eq_false] at hbreak
  obtain ⟨before, hbefore, hon⟩ := hbreak
  rcases openRun_cases width calls with
    ⟨-, hflush⟩ | ⟨front, first, rest, last, hparts, hrun, hends, hlast, -⟩
  · obtain rfl := hflush before hbefore
    cases hon
  · obtain rfl := Option.some.inj (hlast.symm.trans hbefore)
    cases call with
    | flush => cases hon
    | push t =>
      have hsections := sections_concat_of_goesOn hparts hends (beq_iff_eq.mp hon).symm
      refine Or.inr ⟨?_, ?_⟩
      · rw [closedRuns_of_sections hsections, closedRuns_of_sections hparts]
      · rw [openRun_of_sections hsections, pushed_map_push, hrun]
        simp

/-- The ticks of all runs can be counted if those of the closed runs can, and those of the open
one. -/
lemma countFits_runs_iff : (∀ run ∈ runs width calls, Bar.CountFits run.length) ↔
    (∀ run ∈ closedRuns width calls, Bar.CountFits run.length) ∧
      Bar.CountFits (openRun width calls).length := by
  rw [runs_eq, List.forall_mem_append]
  cases openRun width calls <;> simp

/-- One call more keeps the runs countable if the open run stays so. -/
lemma countFits_runs_concat_iff (call : BarCall α) :
    (∀ run ∈ runs width (calls ++ [call]), Bar.CountFits run.length) ↔
      (∀ run ∈ runs width calls, Bar.CountFits run.length) ∧
        Bar.CountFits (openRun width (calls ++ [call])).length := by
  rw [countFits_runs_iff]
  refine and_congr_left fun hopen => ?_
  rcases closedRuns_concat_cases width calls call with hclosed | ⟨hclosed, hgrown⟩
  · rw [hclosed]
  · rw [hclosed, countFits_runs_iff]
    exact (and_iff_left (Nat.lt_of_le_of_lt hgrown hopen)).symm

end Runs

/-! ## What the calls have led to -/

/-- The open bar that the ticks of a run make. -/
def OpenBar.ofRun? [Scalar α] (width : Int) : List (Tick α) → Option (OpenBar α)
  | [] => none
  | first :: rest => some (ofTicks width first rest)

/-- When it is finished, it sums up the run. -/
lemma OpenBar.finish_ofRun? [Scalar α] (width : Int) (run : List (Tick α)) :
    (ofRun? width run).map finish = Bar.summary? width run := by
  cases run with
  | nil => rfl
  | cons first rest => exact (summary?_eq_finish width first rest).symm

namespace Bars

variable [Scalar α] {width : Int}

/-- The bars that the calls have closed. -/
def closedBy (width : Int) (calls : List (BarCall α)) : List (Bar α) :=
  (closedRuns width calls).filterMap (Bar.summary? width)

/-- The state that the calls have led to. -/
def after (width : Int) (calls : List (BarCall α)) : Bars α :=
  ⟨width, OpenBar.ofRun? width (openRun width calls), (closedRuns width calls).length⟩

/-- A call that begins a section closes the open run. -/
lemma after_of_break {calls : List (BarCall α)} {call : BarCall α}
    (h : ∀ last ∈ calls.getLast?, goesOn width last call = false) :
    after width (calls ++ [call]) =
        ⟨width, OpenBar.ofRun? width (pushed [call]),
          (after width calls).emitted + (after width calls).current.toList.length⟩ ∧
      closedBy width (calls ++ [call]) =
        closedBy width calls ++ ((after width calls).current.map OpenBar.finish).toList := by
  rw [after, closedBy, closedRuns_of_break h, openRun_of_break h, runs_eq, closedBy,
    List.filterMap_append, after, OpenBar.finish_ofRun?]
  cases hrun : openRun width calls with
  | nil => simp [OpenBar.ofRun?, Bar.summary?]
  | cons first rest => simp [OpenBar.ofRun?, Bar.summary?]

/-- A tick that goes on with the last run goes into it, and closes nothing. -/
lemma after_of_goesOn {calls : List (BarCall α)} {front : List (List (BarCall α))}
    {first last t : Tick α} {rest : List (Tick α)}
    (hparts : sections width calls = front ++ [(first :: rest).map .push])
    (hlast : (first :: rest).getLast? = some last) (hcell : t.cell width = last.cell width) :
    after width (calls ++ [.push t]) =
        { after width calls with
          current := some (OpenBar.ofTicks width first (rest ++ [t])) } ∧
      closedBy width (calls ++ [.push t]) = closedBy width calls ∧
      (openRun width (calls ++ [.push t])).length = rest.length + 2 := by
  have hsections := sections_concat_of_goesOn hparts hlast hcell
  have hclosed : closedRuns width (calls ++ [.push t]) = closedRuns width calls := by
    rw [closedRuns_of_sections hsections, closedRuns_of_sections hparts]
  have hopen : openRun width (calls ++ [.push t]) = first :: (rest ++ [t]) :=
    (openRun_of_sections hsections).trans (pushed_map_push _)
  refine ⟨?_, by rw [closedBy, closedBy, hclosed], by simp [hopen]⟩
  rw [after, after, hclosed, hopen]
  rfl

omit [Scalar α] in
/-- The ticks of the open run were pushed. -/
lemma mem_pushed_of_openRun {calls : List (BarCall α)} {t : Tick α}
    (ht : t ∈ openRun width calls) : t ∈ pushed calls := by
  rw [← flatten_runs width calls, runs_eq, List.flatten_append]
  refine List.mem_append_right _ (List.mem_flatten.mpr ⟨_, ?_, ht⟩)
  simpa using List.ne_nil_of_mem ht

/-- A flush closes the open bar, if there is one. -/
lemma flush_eq_closing (s : Bars α) :
    s.flush = (⟨s.width, none, s.emitted + s.current.toList.length⟩,
      s.current.map OpenBar.finish) := by
  obtain ⟨width, current, emitted⟩ := s
  cases current <;> rfl

/-- A tick begins a section, and then the open bar does not take it, or it goes on with the open
run, and then the open bar takes it. -/
lemma push_cases (width : Int) (calls : List (BarCall α)) (t : Tick α) :
    ((∀ last ∈ calls.getLast?, goesOn width last (.push t) = false) ∧
        ∀ b, (after width calls).current = some b →
          b.takes t.instrument (t.time / width) = false) ∨
      ∃ front first rest last, sections width calls = front ++ [(first :: rest).map .push] ∧
        first ∈ pushed calls ∧ (first :: rest).getLast? = some last ∧
          t.cell width = last.cell width ∧ t.cell width = first.cell width ∧
            (after width calls).current = some (OpenBar.ofTicks width first rest) := by
  rcases openRun_cases width calls with
    ⟨hnone, hflush⟩ | ⟨front, first, rest, last, hparts, hrun, hends, hlast, hfirst⟩
  · refine Or.inl ⟨fun last hlast => ?_, fun b hb => ?_⟩
    · rw [hflush last hlast]
      rfl
    · rw [after, hnone] at hb
      cases hb
  have hcurrent : (after width calls).current = some (OpenBar.ofTicks width first rest) := by
    rw [after, hrun]
    rfl
  by_cases hcell : t.cell width = last.cell width
  · have hmem : first ∈ pushed calls := mem_pushed_of_openRun (hrun ▸ List.mem_cons_self)
    exact Or.inr ⟨front, first, rest, last, hparts, hmem, hends, hcell, hcell.trans hfirst,
      hcurrent⟩
  · refine Or.inl ⟨fun call hcall => ?_, fun b hb => ?_⟩
    · obtain rfl := Option.some.inj (hlast.symm.trans hcall)
      exact beq_eq_false_iff_ne.mpr (Ne.symm hcell)
    · obtain rfl := Option.some.inj (hcurrent.symm.trans hb)
      rw [← Bool.not_eq_true, OpenBar.takes_ofTicks, ← hfirst]
      exact hcell

/-- One tick more: it has a result unless the bucket of the tick starts before the first time
stamp, or the open run cannot be counted with it. -/
lemma push?_after (hwidth : 0 < width) {calls : List (BarCall α)}
    (hdatable : ∀ t ∈ pushed calls, t.Datable width) (t : Tick α) :
    ∃ closed, closedBy width (calls ++ [.push t]) = closedBy width calls ++ closed.toList ∧
      (after width calls).push? t =
        if t.Datable width ∧ Bar.CountFits (openRun width (calls ++ [.push t])).length then
          some (after width (calls ++ [.push t]), closed)
        else none := by
  rcases push_cases width calls t with
    ⟨hbreak, htakes⟩ | ⟨front, first, rest, last, hparts, hmem, hends, hlast, hfirst, hcurrent⟩
  · obtain ⟨hafter, hclosed⟩ := after_of_break hbreak
    have hopen : openRun width (calls ++ [.push t]) = [t] := openRun_of_break hbreak
    have hpush := @push?_of_not_takes _ _ (after width calls) t hwidth htakes
    simp only [hopen, List.length_singleton, Bar.countFits_one, and_true]
    exact ⟨_, hclosed, hafter ▸ hpush⟩
  · obtain ⟨hafter, hclosed, hlength⟩ := after_of_goesOn hparts hends hlast
    have ht : t.Datable width := by
      rw [Tick.Datable, (Prod.mk.inj hfirst).2]
      exact hdatable first hmem
    have hpush := @push?_of_takes _ _ (after width calls) _ t hwidth hcurrent ht
      ((OpenBar.takes_ofTicks ..).mpr hfirst)
    refine ⟨none, by simpa using hclosed, ?_⟩
    simp only [hpush, hafter, hlength, ht, true_and, OpenBar.add?_ofTicks]
    split <;> rfl

/-- The open run can be counted with one tick more if the open bar, where it takes the tick, can
count it. -/
lemma countFits_openRun_push_iff (width : Int) (calls : List (BarCall α)) (t : Tick α) :
    Bar.CountFits (openRun width (calls ++ [.push t])).length ↔
      ∀ b, (after width calls).current = some b →
        b.takes t.instrument (t.time / width) = true → Bar.CountFits (b.tickCount + 1) := by
  rcases push_cases width calls t with
    ⟨hbreak, htakes⟩ | ⟨front, first, rest, last, hparts, -, hends, hlast, hfirst, hcurrent⟩
  · have hopen : openRun width (calls ++ [.push t]) = [t] := openRun_of_break hbreak
    rw [hopen]
    refine iff_of_true Bar.countFits_one fun b hb htaken => ?_
    rw [htakes b hb] at htaken
    cases htaken
  · obtain ⟨-, -, hlength⟩ := after_of_goesOn hparts hends hlast
    have htaken := (OpenBar.takes_ofTicks width first rest t).mpr hfirst
    have hcount : (OpenBar.ofTicks width first rest).tickCount = rest.length + 1 := by
      rw [OpenBar.ofTicks_eq]
    rw [hlength, hcurrent]
    simp [htaken, hcount]

/-- One call more. -/
theorem serve?_after (hwidth : 0 < width) {calls : List (BarCall α)}
    (hdatable : ∀ t ∈ pushed calls, t.Datable width) (call : BarCall α) :
    ∃ closed, closedBy width (calls ++ [call]) = closedBy width calls ++ closed.toList ∧
      (after width calls).serve? call =
        if (∀ t ∈ call.tick?, t.Datable width) ∧
            Bar.CountFits (openRun width (calls ++ [call])).length then
          some (after width (calls ++ [call]), closed)
        else none := by
  cases call with
  | push t =>
    obtain ⟨closed, hclosed, hpush⟩ := push?_after hwidth hdatable t
    exact ⟨closed, hclosed, by simpa [serve?, tick?] using hpush⟩
  | flush =>
    have hbreak : ∀ last ∈ calls.getLast?, goesOn width last .flush = false := fun last _ => by
      cases last <;> rfl
    obtain ⟨hafter, hclosed⟩ := after_of_break hbreak
    have hopen : openRun width (calls ++ [.flush]) = [] := openRun_of_break hbreak
    have hnone : ∀ t ∈ (BarCall.flush : BarCall α).tick?, t.Datable width := fun t ht => by cases ht
    refine ⟨_, hclosed, ?_⟩
    rw [hafter, serve?, flush_eq_closing, hopen, if_pos ⟨hnone, Bar.countFits_zero⟩]
    rfl

/-- All of them. -/
theorem serveAll?_eq (hwidth : 0 < width) (calls : List (BarCall α)) :
    (start width).serveAll? calls =
      if (∀ t ∈ pushed calls, t.Datable width) ∧
          ∀ run ∈ runs width calls, Bar.CountFits run.length then
        some (after width calls, closedBy width calls)
      else none := by
  induction calls using List.reverseRecOn with
  | nil => rfl
  | append_singleton calls call ih =>
    have hpushed : (∀ t ∈ pushed (calls ++ [call]), t.Datable width) ↔
        (∀ t ∈ pushed calls, t.Datable width) ∧ ∀ t ∈ call.tick?, t.Datable width := by
      cases call with
      | push t => simp [pushed_concat_push, tick?, or_imp, forall_and]
      | flush => simp [pushed_concat_flush, tick?]
    have hall : ((∀ t ∈ pushed (calls ++ [call]), t.Datable width) ∧
          ∀ run ∈ runs width (calls ++ [call]), Bar.CountFits run.length) ↔
        ((∀ t ∈ pushed calls, t.Datable width) ∧
            ∀ run ∈ runs width calls, Bar.CountFits run.length) ∧
          (∀ t ∈ call.tick?, t.Datable width) ∧
            Bar.CountFits (openRun width (calls ++ [call])).length := by
      rw [hpushed, countFits_runs_concat_iff, and_and_and_comm]
    rw [serveAll?_concat, ih]
    by_cases hbefore : (∀ t ∈ pushed calls, t.Datable width) ∧
        ∀ run ∈ runs width calls, Bar.CountFits run.length
    · obtain ⟨closed, hclosed, hserve⟩ := serve?_after hwidth hbefore.1 call
      simp only [if_pos hbefore, Option.bind_some, hserve]
      by_cases hcall : (∀ t ∈ call.tick?, t.Datable width) ∧
          Bar.CountFits (openRun width (calls ++ [call])).length
      · rw [if_pos hcall, if_pos (hall.mpr ⟨hbefore, hcall⟩), hclosed]
        rfl
      · rw [if_neg hcall, if_neg fun h => hcall (hall.mp h).2]
        rfl
    · rw [if_neg hbefore, if_neg fun h => hbefore (hall.mp h).1]
      rfl

end Bars

/-! ## The result -/

/-- The ticks of a run are of one cell. -/
lemma cell_of_mem_runs {width : Int} {calls : List (BarCall α)} {run : List (Tick α)}
    (hrun : run ∈ runs width calls) :
    ∃ first rest, run = first :: rest ∧ ∀ t ∈ run, t.cell width = first.cell width := by
  rw [runs, List.mem_filter, List.mem_map] at hrun
  obtain ⟨⟨part, hpart, rfl⟩, hsome⟩ := hrun
  rcases section_cases hpart with rfl | ⟨first, rest, rfl, hsame⟩
  · simp [pushed, tick?] at hsome
  · rw [pushed_map_push]
    refine ⟨first, rest, rfl, fun t ht => ?_⟩
    rcases List.mem_cons.mp ht with rfl | ht
    · rfl
    · exact hsame t ht

/-- Every run has a summary. -/
lemma forall₂_summary? [Scalar α] {width : Int} {calls : List (BarCall α)}
    {cut : List (List (Tick α))} (h : ∀ run ∈ cut, run ∈ runs width calls) :
    List.Forall₂ (fun run bar => Bar.summary? width run = some bar) cut
      (cut.filterMap (Bar.summary? width)) := by
  induction cut with
  | nil => exact List.Forall₂.nil
  | cons run cut ih =>
    obtain ⟨first, rest, rfl, -⟩ := cell_of_mem_runs (h run List.mem_cons_self)
    exact List.Forall₂.cons rfl (ih fun run hrun => h run (List.mem_cons_of_mem _ hrun))

lemma mem_runs_of_closedRuns {width : Int} {calls : List (BarCall α)} {run : List (Tick α)}
    (h : run ∈ closedRuns width calls) : run ∈ runs width calls := by
  rw [runs_eq]
  exact List.mem_append_left _ h

/-- **Bars are the runs of the stream.**  Ticks are pushed and bars are flushed in any order.

* There is a result if and only if every tick lies in a bucket that starts at a time stamp and every
  run has fewer than `2 ^ 32` ticks.
* The runs are the ticks, cut at every flush and where the cell changes.  No tick is lost or doubled
  by that, no run is empty, and the ticks of a run are of one cell.
* Each closed run has its bar, which sums up the ticks of the run; the bars come in the order of the
  runs and are counted.  Only the last run may be open: it is where the last call is a push, and a
  flush gives its bar. -/
theorem bars_sum_up_runs [Scalar α] {width : Int} (hwidth : 0 < width)
    (calls : List (BarCall α)) :
    ((∀ t ∈ pushed calls, t.Datable width) ∧
        (∀ run ∈ runs width calls, Bar.CountFits run.length) ↔
      ∃ s bars, (Bars.start width).serveAll? calls = some (s, bars)) ∧
    (runs width calls).flatten = pushed calls ∧
    (∀ run ∈ runs width calls, run ≠ [] ∧ ∀ a ∈ run, ∀ b ∈ run, a.cell width = b.cell width) ∧
    ∀ s bars, (Bars.start width).serveAll? calls = some (s, bars) →
      List.Forall₂ (fun run bar => Bar.summary? width run = some bar) (closedRuns width calls)
        bars ∧
      s.emitted = bars.length ∧
      List.Forall₂ (fun run bar => Bar.summary? width run = some bar) (runs width calls)
        (bars ++ s.flush.2.toList) := by
  rw [Bars.serveAll?_eq hwidth]
  refine ⟨by simp [ite_eq_iff], flatten_runs width calls, fun run hrun => ?_, fun s bars h => ?_⟩
  · obtain ⟨first, rest, rfl, hsame⟩ := cell_of_mem_runs hrun
    exact ⟨List.cons_ne_nil _ _, fun a ha b hb => (hsame a ha).trans (hsame b hb).symm⟩
  · obtain ⟨-, h⟩ := Option.ite_none_right_eq_some.mp h
    obtain ⟨rfl, rfl⟩ := Prod.mk.inj (Option.some.inj h)
    have hclosed : List.Forall₂ _ (closedRuns width calls) (Bars.closedBy width calls) :=
      forall₂_summary? fun run => mem_runs_of_closedRuns
    refine ⟨hclosed, hclosed.length_eq, ?_⟩
    have hall : Bars.closedBy width calls ++ (Bars.after width calls).flush.2.toList =
        (runs width calls).filterMap (Bar.summary? width) := by
      rw [runs_eq, List.filterMap_append, Bars.flush_eq_closing, Bars.after, OpenBar.finish_ofRun?,
        Bars.closedBy]
      cases openRun width calls <;> rfl
    rw [hall]
    exact forall₂_summary? fun run hrun => hrun

/-- Two ticks of a minute, a flush, a third tick of that minute, and two of another instrument with
two flushes between them. -/
def flushedCalls : List (BarCall Float) :=
  [.push ⟨"ag2406", 0, 50, 7, 49, 1, 51, 1⟩, .push ⟨"ag2406", 20, 52, 9, 51, 1, 53, 1⟩, .flush,
    .push ⟨"ag2406", 40, 51, 9, 50, 1, 52, 1⟩, .push ⟨"rb2405", 50, 100, 3, 99, 1, 101, 1⟩,
    .flush, .flush, .push ⟨"rb2405", 55, 101, 2, 100, 1, 102, 1⟩]

/-- The calls close three bars, and the last tick is still open. -/
theorem bars_sum_up_runs_flushedCalls :
    ∃ s bars, (Bars.start 60).serveAll? flushedCalls = some (s, bars) ∧
      bars.map (fun b => (b.instrument, b.tickCount)) =
        [("ag2406", 2), ("ag2406", 1), ("rb2405", 1)] ∧
      List.Forall₂ (fun run bar => Bar.summary? 60 run = some bar)
        (closedRuns 60 flushedCalls) bars ∧
      s.emitted = 3 ∧ (runs 60 flushedCalls).length = 4 := by
  obtain ⟨hresult, -, -, hbars⟩ := bars_sum_up_runs (by decide : (0 : Int) < 60) flushedCalls
  obtain ⟨s, bars, h⟩ := hresult.mp ⟨by decide, by decide +kernel⟩
  obtain ⟨hsummaries, hemitted, -⟩ := hbars s bars h
  have hshape : ((Bars.start 60).serveAll? flushedCalls).map
      (fun r => r.2.map fun b => (b.instrument, b.tickCount)) =
        some [("ag2406", 2), ("ag2406", 1), ("rb2405", 1)] := by decide +kernel
  rw [h] at hshape
  have hshape := Option.some.inj hshape
  have hlength : bars.length = 3 := by simpa using congrArg List.length hshape
  exact ⟨s, bars, h, hshape, hsummaries, hemitted.trans hlength, by decide +kernel⟩

end MarketTape
