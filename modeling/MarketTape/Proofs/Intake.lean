import MarketTape.Proofs.Merge
import MarketTape.Proofs.Run
import MarketTape.Replay

/-!
# What a replay takes in

The ticks of a replay pass a window, a sort of every partition, a cap on every partition, a merge,
and a cap on the merged stream.  What comes out is as simple as if only the last step had a cap: the
first ticks of the stable sort of everything that lies in the window.  Capping a partition early is
harmless because the stream is known from its partitions (`Sourced.take_eq_of_filter_take_eq`): its
first `n` ticks need no more than the first `n` of each of them.

* `ScanRequest.within` are the ticks of the window, and `ScanRequest.intake` are those that a replay
  is to take, with the news whether there are more.
* `map_tick_stream` says that the stream in the order of the partitions is a stable sort.
* `take_mergeSort_selected` is the harmlessness of the early cap, and `selection_stops_early` says
  that the two flags for a cut together tell about the window.
* `replay_takes_intake` is the result, for the merge of a scan and for a whole replay.
-/

namespace MarketTape

variable {α : Type}

/-! ## The order of ticks -/

namespace Tick

/-- What the order of ticks looks at. -/
def stamp (t : Tick α) : Int × String := (t.time, t.instrument)

/-- Ticks tie if they agree in everything the order looks at. -/
lemma stamp_eq {a b : Tick α} (hab : comesBy a b = true) (hba : comesBy b a = true) :
    a.stamp = b.stamp := by
  rw [comesBy_iff] at hab hba
  have htime : a.time = b.time := by omega
  have hinstrument : a.instrument = b.instrument :=
    le_antisymm (hab.resolve_left (by omega)).2 (hba.resolve_left (by omega)).2
  simp only [stamp, htime, hinstrument]

lemma comesBy_of_stamp_eq {a b : Tick α} (h : a.stamp = b.stamp) : comesBy a b = true := by
  simp only [stamp, Prod.mk.injEq] at h
  exact comesBy_iff.mpr (Or.inr ⟨h.1, le_of_eq h.2⟩)

/-- Ticks with one stamp are in order, whatever their sequence. -/
lemma pairwise_filter_stamp (ticks : List (Tick α)) (k : Int × String) :
    (ticks.filter (·.stamp == k)).Pairwise fun a b => comesBy a b = true := by
  refine List.pairwise_of_forall_mem_list fun a ha b hb => comesBy_of_stamp_eq ?_
  simp only [List.mem_filter, beq_iff_eq] at ha hb
  exact ha.2.trans hb.2.symm

/-- The check for order only saves work. -/
lemma sorted_eq (ticks : List (Tick α)) : sorted ticks = ticks.mergeSort comesBy := by
  rw [sorted]
  split
  · rename_i h
    exact (List.mergeSort_of_pairwise (pairwise_of_inOrder h)).symm
  · rfl

lemma pairwise_sorted (ticks : List (Tick α)) :
    (sorted ticks).Pairwise fun a b => comesBy a b = true := by
  rw [sorted_eq]
  exact List.pairwise_mergeSort comesBy_trans comesBy_total ticks

lemma inOrder_of_pairwise : ∀ {ticks : List (Tick α)},
    ticks.Pairwise (fun a b => comesBy a b = true) → inOrder ticks = true
  | [], _ => rfl
  | [_], _ => rfl
  | a :: b :: rest, h => by
    rw [inOrder, Bool.and_eq_true]
    exact ⟨List.rel_of_pairwise_cons h List.mem_cons_self, inOrder_of_pairwise h.tail⟩

/-- Ticks with one stamp stay as they were. -/
lemma filter_sorted (ticks : List (Tick α)) (k : Int × String) :
    (sorted ticks).filter (·.stamp == k) = ticks.filter (·.stamp == k) := by
  rw [sorted_eq]
  exact filter_mergeSort comesBy_trans comesBy_total (pairwise_filter_stamp ticks k)

@[simp] lemma length_sorted (ticks : List (Tick α)) : (sorted ticks).length = ticks.length := by
  rw [sorted_eq, List.length_mergeSort]

end Tick

/-! ## The stream is a stable sort -/

lemma map_tick_sourced (partitions : List (List (Tick α))) :
    (sourced partitions).map (·.tick) = partitions.flatten := by
  have go : ∀ (partitions : List (List (Tick α))) (k : Nat),
      ((partitions.zipIdx k).flatMap fun row =>
        row.1.map fun tick => (⟨row.2, tick⟩ : Sourced α)).map (·.tick) =
          partitions.flatten := by
    intro partitions
    induction partitions with
    | nil => simp
    | cons ticks rest ih =>
      intro k
      rw [List.zipIdx_cons, List.flatMap_cons, List.map_append, ih (k + 1), List.map_map,
        List.flatten_cons]
      exact congrArg (· ++ rest.flatten) (List.map_id ticks)
  exact go partitions 0

lemma length_sourced (partitions : List (List (Tick α))) :
    (sourced partitions).length = partitions.flatten.length := by
  rw [← map_tick_sourced, List.length_map]

/-- The numbers of the partitions increase. -/
lemma pairwise_sourced (partitions : List (List (Tick α))) :
    (sourced partitions).Pairwise fun a b => a.partition ≤ b.partition := by
  have go : ∀ (partitions : List (List (Tick α))) (k : Nat),
      ((partitions.zipIdx k).flatMap fun row =>
        row.1.map fun tick => (⟨row.2, tick⟩ : Sourced α)).Pairwise
          fun a b => a.partition ≤ b.partition := by
    intro partitions
    induction partitions with
    | nil => simp
    | cons ticks rest ih =>
      intro k
      rw [List.zipIdx_cons, List.flatMap_cons, List.pairwise_append]
      refine ⟨List.pairwise_map.mpr (List.pairwise_of_forall fun _ _ => le_rfl), ih (k + 1),
        fun a ha b hb => ?_⟩
      simp only [List.mem_map, List.mem_flatMap] at ha hb
      obtain ⟨tick, -, rfl⟩ := ha
      obtain ⟨row, hrow, tick', -, rfl⟩ := hb
      exact Nat.le_of_succ_le (List.mem_zipIdx hrow).1
  exact go partitions 0

/-- In the stream, ticks with one stamp follow each other as they do in the partitions. -/
lemma filter_stream_stamp (partitions : List (List (Tick α))) (k : Int × String) :
    ((sourced partitions).mergeSort Sourced.comesBy).filter (·.tick.stamp == k) =
      (sourced partitions).filter (·.tick.stamp == k) := by
  refine filter_mergeSort Sourced.comesBy_trans Sourced.comesBy_total ?_
  refine List.Pairwise.imp_of_mem ?_ ((pairwise_sourced partitions).filter _)
  intro a b ha hb hle
  simp only [List.mem_filter, beq_iff_eq, Tick.stamp] at ha hb
  have hstamp := ha.2.trans hb.2.symm
  simp only [Prod.mk.injEq] at hstamp
  exact Sourced.comesBy_iff.mpr (Or.inr ⟨hstamp.1, Or.inr ⟨hstamp.2, hle⟩⟩)

/-- The stream of partitions that were sorted one by one is the stable sort of all their ticks. -/
theorem map_tick_stream (partitions : List (List (Tick α))) :
    ((sourced (partitions.map Tick.sorted)).mergeSort Sourced.comesBy).map (·.tick) =
      partitions.flatten.mergeSort Tick.comesBy := by
  refine eq_of_pairwise_of_filter_eq Tick.stamp Tick.comesBy_refl Tick.stamp_eq ?_
    (List.pairwise_mergeSort Tick.comesBy_trans Tick.comesBy_total _) fun k => ?_
  · refine List.pairwise_map.mpr (List.Pairwise.imp ?_ (pairwise_mergeSort_sourced _))
    intro a b hab
    rw [Sourced.comesBy_iff] at hab
    refine Tick.comesBy_iff.mpr (hab.imp_right fun h => ⟨h.1, ?_⟩)
    exact h.2.elim le_of_lt fun h => le_of_eq h.1
  · have hflatten : (partitions.map Tick.sorted).flatten.filter (·.stamp == k) =
        partitions.flatten.filter (·.stamp == k) := by
      simp [List.filter_flatten, List.map_map, Function.comp_def, Tick.filter_sorted]
    calc (((sourced (partitions.map Tick.sorted)).mergeSort Sourced.comesBy).map
            (·.tick)).filter (·.stamp == k)
        = ((sourced (partitions.map Tick.sorted)).filter (·.tick.stamp == k)).map (·.tick) := by
          rw [List.filter_map]
          exact congrArg _ (filter_stream_stamp _ k)
      _ = (partitions.map Tick.sorted).flatten.filter (·.stamp == k) := by
          rw [← map_tick_sourced, List.filter_map]
          rfl
      _ = (partitions.flatten.mergeSort Tick.comesBy).filter (·.stamp == k) := by
          rw [hflatten, filter_mergeSort Tick.comesBy_trans Tick.comesBy_total
            (Tick.pairwise_filter_stamp _ k)]

/-! ## Caps -/

namespace ScanRequest

/-- The ticks of the window, partition by partition. -/
def within (r : ScanRequest) (partitions : List (List (Tick α))) : List (Tick α) :=
  partitions.flatten.filter fun t => r.contains t.time

/-- What a replay is to take: the first ticks of the window in their order, up to the cap, and
whether there are more. -/
def intake (r : ScanRequest) (partitions : List (List (Tick α))) : List (Tick α) × Bool :=
  capped r.maxRows ((r.within partitions).mergeSort Tick.comesBy)

/-- The ticks of every partition that lie in the window, in order. -/
def windows (r : ScanRequest) (partitions : List (List (Tick α))) : List (List (Tick α)) :=
  partitions.map fun ticks => Tick.sorted (ticks.filter fun t => r.contains t.time)

/-- What every partition gives to the merge. -/
def selected (r : ScanRequest) (partitions : List (List (Tick α))) : List (List (Tick α)) :=
  partitions.map fun ticks => (r.select ticks).1

/-- Whether some partition had to hold ticks back. -/
def holdsBack (r : ScanRequest) (partitions : List (List (Tick α))) : Bool :=
  partitions.any fun ticks => (r.select ticks).2

variable {r : ScanRequest} {partitions : List (List (Tick α))}

lemma map_tick_windows :
    ((sourced (r.windows partitions)).mergeSort Sourced.comesBy).map (·.tick) =
      (r.within partitions).mergeSort Tick.comesBy := by
  have h := map_tick_stream (partitions.map fun ticks => ticks.filter fun t => r.contains t.time)
  rwa [List.map_map, ← List.filter_flatten] at h

lemma length_windows : (r.windows partitions).flatten.length = (r.within partitions).length := by
  simp [windows, within, List.filter_flatten, List.length_flatten, Function.comp_def]

lemma windows_inOrder : ∀ ticks ∈ r.windows partitions, Tick.inOrder ticks = true := by
  intro ticks hticks
  obtain ⟨all, -, rfl⟩ := List.mem_map.mp hticks
  exact Tick.inOrder_of_pairwise (Tick.pairwise_sorted _)

lemma selected_eq_windows (h : r.maxRows = none) :
    r.selected partitions = r.windows partitions := by
  simp [selected, windows, select, capped, h]

lemma selected_eq_take {cap : Nat} (h : r.maxRows = some cap) :
    r.selected partitions = (r.windows partitions).map (·.take cap) := by
  simp [selected, windows, select, capped, h, Function.comp_def]

lemma holdsBack_eq {cap : Nat} (h : r.maxRows = some cap) :
    r.holdsBack partitions =
      (r.windows partitions).any fun ticks => decide (cap < ticks.length) := by
  simp [holdsBack, windows, select, capped, h, List.any_map, Function.comp_def]

/-- What a partition gives to the merge is in order. -/
lemma selected_inOrder : ∀ ticks ∈ r.selected partitions, Tick.inOrder ticks = true := by
  intro ticks hticks
  obtain ⟨all, -, rfl⟩ := List.mem_map.mp hticks
  have hsub : (r.select all).1.Sublist (Tick.sorted (all.filter fun t => r.contains t.time)) := by
    cases h : r.maxRows <;> simp [select, capped, h, List.take_sublist]
  exact Tick.inOrder_of_pairwise ((Tick.pairwise_sorted _).sublist hsub)

/-- A cap on every partition loses none of the ticks that a cap on the whole stream keeps. -/
theorem take_mergeSort_selected {cap : Nat} (h : r.maxRows = some cap) :
    ((sourced (r.selected partitions)).mergeSort Sourced.comesBy).take cap =
      ((sourced (r.windows partitions)).mergeSort Sourced.comesBy).take cap := by
  refine Sourced.take_eq_of_filter_take_eq (pairwise_mergeSort_sourced _)
    (pairwise_mergeSort_sourced _) fun p => ?_
  rw [filter_mergeSort_sourced selected_inOrder, filter_mergeSort_sourced windows_inOrder,
    selected_eq_take h, List.getElem?_map]
  cases (r.windows partitions)[p]? with
  | none => rfl
  | some ticks => simp [← List.map_take, List.take_take]

end ScanRequest

/-- Of lists that were capped one by one, either one was cut or all of them together are too long,
exactly if they were too long together before. -/
lemma any_or_length_take {β : Type} (cap : Nat) (xss : List (List β)) :
    ((xss.any fun xs => decide (cap < xs.length)) ||
        decide (cap < (xss.map (·.take cap)).flatten.length)) =
      decide (cap < xss.flatten.length) := by
  cases hany : xss.any fun xs => decide (cap < xs.length) with
  | true =>
    obtain ⟨xs, hxs, hlong⟩ := List.any_eq_true.mp hany
    have hle := (List.sublist_flatten_of_mem hxs).length_le
    have hlong' : cap < xs.length := of_decide_eq_true hlong
    rw [Bool.true_or, eq_comm, decide_eq_true_eq]
    omega
  | false =>
    have hshort : xss.map (·.take cap) = xss := by
      rw [List.any_eq_false] at hany
      calc xss.map (·.take cap)
          = xss.map id :=
            List.map_congr_left fun xs hxs => List.take_of_length_le (by simpa using hany xs hxs)
        _ = xss := List.map_id xss
    rw [Bool.false_or, hshort]

namespace ScanRequest

variable {r : ScanRequest} {partitions : List (List (Tick α))}

/-- Ticks were held back by a partition or left over by the merge exactly if the window holds more
of them than the cap allows. -/
theorem selection_stops_early :
    (r.holdsBack partitions || (mergeBySorting (r.selected partitions) r.maxRows).earlyStop) =
      (r.intake partitions).2 := by
  cases h : r.maxRows with
  | none => simp [holdsBack, select, mergeBySorting, intake, capped, h]
  | some cap =>
    have hmerged : (mergeBySorting (r.selected partitions) (some cap)).earlyStop =
        decide (cap < ((r.windows partitions).map (·.take cap)).flatten.length) := by
      simp only [mergeBySorting, capped, List.length_mergeSort, length_sourced, selected_eq_take h]
    rw [holdsBack_eq h, hmerged, any_or_length_take, length_windows]
    simp only [intake, capped, h, List.length_mergeSort]

/-- The merge hands out what is to be taken. -/
theorem ticks_mergeBySorting_selected :
    (mergeBySorting (r.selected partitions) r.maxRows).ticks = (r.intake partitions).1 := by
  cases h : r.maxRows with
  | none =>
    simp only [mergeBySorting, capped, intake, h, selected_eq_windows h, map_tick_windows]
  | some cap =>
    simp only [mergeBySorting, capped, intake, h, take_mergeSort_selected h, List.map_take,
      map_tick_windows]

/-- Something more was to be taken exactly if there is a cap and the window holds more. -/
lemma intake_stops_early :
    (r.intake partitions).2 = true ↔
      ∃ cap, r.maxRows = some cap ∧ cap < (r.within partitions).length := by
  cases h : r.maxRows <;> simp [intake, capped, h]

end ScanRequest

/-! ## Scans -/

/-- What is read off the scan of a partition and depends on its ticks alone. -/
lemma map_scanMemory {β : Type} {f : List (Tick α) → β} {g : PartitionScan α → β}
    (r : ScanRequest) (partitions : List (List (Tick α)))
    (h : ∀ ticks p, g
      { partition := p, path := none, ticks := (r.select ticks).1, rowsScanned := ticks.length
        rowGroupsScanned := 1, bytesRead := 0, earlyStop := (r.select ticks).2, pruned := false } =
      f ticks) :
    (scanMemory partitions r).map g = partitions.map f := by
  have hfst : partitions.zipIdx.map (fun row => f row.1) = partitions.map f := by
    rw [← Function.comp_def, ← List.map_map, List.zipIdx_map_fst]
  rw [← hfst, scanMemory, List.map_map]
  exact List.map_congr_left fun row _ => h row.1 row.2

lemma map_ticks_scanMemory (r : ScanRequest) (partitions : List (List (Tick α))) :
    (scanMemory partitions r).map (·.ticks) = r.selected partitions :=
  map_scanMemory r partitions fun _ _ => rfl

/-- Added up, the scans stopped early if one of them did. -/
lemma ScanMetrics.earlyStop_ofScans (scans : List (PartitionScan α)) :
    (ofScans scans).earlyStop = scans.any (·.earlyStop) := by
  have go : ∀ (scans : List (PartitionScan α)) (m : ScanMetrics),
      (scans.foldl add m).earlyStop = (m.earlyStop || scans.any (·.earlyStop)) := by
    intro scans
    induction scans with
    | nil => simp
    | cons s rest ih => intro m; simp [ih, add, Bool.or_assoc]
  exact go scans none

lemma earlyStop_scanMemory (r : ScanRequest) (partitions : List (List (Tick α))) :
    (ScanMetrics.ofScans (scanMemory partitions r)).earlyStop = r.holdsBack partitions := by
  have hflags : (scanMemory partitions r).map (·.earlyStop) =
      partitions.map fun ticks => (r.select ticks).2 := map_scanMemory r partitions fun _ _ => rfl
  calc (ScanMetrics.ofScans (scanMemory partitions r)).earlyStop
      = ((scanMemory partitions r).map (·.earlyStop)).any id := by
        rw [ScanMetrics.earlyStop_ofScans, List.any_map]
        rfl
    _ = r.holdsBack partitions := by
        rw [hflags, List.any_map]
        rfl

/-! ## Replays -/

namespace Replay

/-- Partitions in order are merged as by sorting, however many ticks they hold. -/
lemma merge_eq {s : DataSettings} {scans : List (PartitionScan Float)}
    (h : ∀ ticks ∈ scans.map (·.ticks), Tick.inOrder ticks = true) :
    merge s scans = mergeBySorting (scans.map (·.ticks)) s.maxRows := by
  rw [merge]
  split
  · rfl
  · exact mergeByQueue_eq h s.maxRows

/-- The merge of a scan of ticks at hand. -/
lemma merge_scanMemory {s : DataSettings} {request : ScanRequest}
    (hcap : request.maxRows = s.maxRows) (partitions : List (List (Tick Float))) :
    merge s (scanMemory partitions request) =
      mergeBySorting (request.selected partitions) request.maxRows := by
  have hticks := map_ticks_scanMemory request partitions
  have horder : ∀ ticks ∈ (scanMemory partitions request).map (·.ticks),
      Tick.inOrder ticks = true := by
    rw [hticks]
    exact ScanRequest.selected_inOrder
  rw [merge_eq horder, hticks, hcap]

/-- Scanning and merging ticks at hand gives what is to be taken, and says whether there is more. -/
lemma scan_and_merge {s : DataSettings} {request : ScanRequest}
    (hcap : request.maxRows = s.maxRows) (partitions : List (List (Tick Float))) :
    (merge s (scanMemory partitions request)).ticks = (request.intake partitions).1 ∧
      (metrics (scanMemory partitions request)
          (merge s (scanMemory partitions request))).earlyStop = (request.intake partitions).2 := by
  rw [merge_scanMemory hcap]
  refine ⟨ScanRequest.ticks_mergeBySorting_selected, ?_⟩
  rw [metrics]
  simp only [earlyStop_scanMemory]
  exact ScanRequest.selection_stops_early

/-- The request of settings has their cap. -/
lemma maxRows_request {s : DataSettings} {request : ScanRequest} (h : s.request = .ok request) :
    request.maxRows = s.maxRows := by
  rw [DataSettings.request] at h
  cases hw : s.window with
  | error e => simp [hw, Except.map] at h
  | ok window =>
    simp only [hw, Except.map, Except.ok.injEq] at h
    exact h ▸ rfl

/-- A replay of ticks at hand that has an outcome was set up, and it went through the merged
ticks of the scan. -/
lemma runOn_memory_cases {r : Replay} {files files' : FileTree}
    {partitions : List (List (Tick Float))} {o : Outcome}
    (h : r.runOn files (.memory partitions) = (files', .ok o)) :
    ∃ request sim signatures, r.settings.data.request = .ok request ∧ r.prepare = .ok sim ∧
      o = outcome "memory" signatures
        (metrics (scanMemory partitions request)
          (merge r.settings.data (scanMemory partitions request)))
        (Run.through sim (merge r.settings.data (scanMemory partitions request)).ticks) := by
  simp only [runOn, execute] at h
  split at h
  · cases h
  rename_i request hrequest
  split at h
  · cases h
  rename_i sim hsim
  split at h
  · cases h
  split at h
  · cases h
  rename_i scans hscans
  obtain rfl : scanMemory partitions request = scans := Except.ok.inj hscans
  split at h
  · cases h
  simp only [Prod.mk.injEq, Except.ok.injEq] at h
  exact ⟨request, sim, _, hrequest, hsim, h.2.symm⟩

end Replay

/-- Whatever the window and the cap, and whether few ticks are sorted or many taken from a queue: a
scan of ticks at hand and its merge give the first ticks, up to the cap, of the stable sort of all
ticks in the window, and they tell whether the window holds more.  A replay goes through these
ticks, reports their number, and reports an early stop exactly if the window holds more of them than
the cap. -/
theorem replay_takes_intake (partitions : List (List (Tick Float))) :
    (∀ (s : DataSettings) (request : ScanRequest), request.maxRows = s.maxRows →
        (Replay.merge s (scanMemory partitions request)).ticks = (request.intake partitions).1 ∧
          (Replay.metrics (scanMemory partitions request)
              (Replay.merge s (scanMemory partitions request))).earlyStop =
            (request.intake partitions).2) ∧
      ∀ (r : Replay) (files files' : FileTree) (o : Outcome),
        r.runOn files (.memory partitions) = (files', .ok o) →
          ∃ request sim signatures scan, r.settings.data.request = .ok request ∧
            request.maxRows = r.settings.data.maxRows ∧ r.prepare = .ok sim ∧
            o = Replay.outcome "memory" signatures scan
              (Run.through sim (request.intake partitions).1) ∧
            ∀ report calls, o = .finished report calls →
              report.ticksRead = (request.intake partitions).1.length ∧
                (report.scan.earlyStop = true ↔
                  ∃ cap, r.settings.data.maxRows = some cap ∧
                    cap < (request.within partitions).length) := by
  refine ⟨fun s request hcap => Replay.scan_and_merge hcap partitions, ?_⟩
  intro r files files' o h
  obtain ⟨request, sim, signatures, hrequest, hsim, ho⟩ := Replay.runOn_memory_cases h
  have hcap := Replay.maxRows_request hrequest
  obtain ⟨hticks, hstop⟩ := Replay.scan_and_merge hcap partitions
  rw [hticks] at ho
  refine ⟨request, sim, signatures, _, hrequest, hcap, hsim, ho, ?_⟩
  intro report calls hreport
  cases hrun : Run.through sim (request.intake partitions).1 with
  | error run =>
    rw [hrun, hreport] at ho
    cases ho
  | ok run =>
    rw [hrun, hreport] at ho
    injection ho with hreport _
    subst hreport
    refine ⟨Run.ticksRead_through hrun, ?_⟩
    rw [← hcap, ← ScanRequest.intake_stops_early, ← hstop]
    rfl

/-- A tick of the day before, and ticks that tie in a partition and across partitions. -/
def recordedPartitions : List (List (Tick Float)) :=
  [[⟨"rb2405", 1704067199000000000, 100, 0, 0, 0, 0, 0⟩,
      ⟨"rb2405", 1704067201000000000, 101, 0, 0, 0, 0, 0⟩,
      ⟨"rb2405", 1704067202000000000, 103, 0, 0, 0, 0, 0⟩],
    [⟨"rb2405", 1704067201000000000, 102, 0, 0, 0, 0, 0⟩,
      ⟨"rb2405", 1704067201000000000, 105, 0, 0, 0, 0, 0⟩,
      ⟨"ag2406", 1704067202000000000, 104, 0, 0, 0, 0, 0⟩]]

/-- A replay of at most four ticks from the first day of 2024 on, which are taken from the queue. -/
def cappedReplay : Replay where
  settings :=
    { Settings.initial with
      data :=
        { Settings.initial.data with
          csvPath := some "ticks.csv", startDate := some ⟨2024, 1, 1, by decide⟩
          maxRows := some 4, preloadMaxRows := 2 } }
  registry := builtins

/-- What the capped replay asks for. -/
def dayRequest : ScanRequest := ⟨some 1704067200000000000, none, some 4⟩

/-- The recorded partitions hold five ticks of the day, of which the replay takes four and says that
it stopped early. -/
theorem replay_takes_intake_recordedPartitions :
    (dayRequest.intake recordedPartitions).1.map (·.instrument) =
        ["rb2405", "rb2405", "rb2405", "ag2406"] ∧
      ∃ files report calls,
        cappedReplay.runOn default (.memory recordedPartitions) =
            (files, .ok (.finished report calls)) ∧
          report.ticksRead = 4 ∧ report.scan.earlyStop = true := by
  have hfinished : (match (cappedReplay.runOn default (.memory recordedPartitions)).2 with
      | .ok (.finished _ _) => true
      | _ => false) = true := by decide +kernel
  obtain ⟨files, report, calls, hrun⟩ : ∃ files report calls,
      cappedReplay.runOn default (.memory recordedPartitions) =
        (files, .ok (.finished report calls)) := by
    cases hrun : cappedReplay.runOn default (.memory recordedPartitions) with
    | mk files result =>
      rw [hrun] at hfinished
      cases result with
      | error e => cases hfinished
      | ok o =>
        cases o with
        | overflowed => cases hfinished
        | finished report calls => exact ⟨files, report, calls, rfl⟩
  obtain ⟨hscans, hruns⟩ := replay_takes_intake recordedPartitions
  have hticks := (hscans cappedReplay.settings.data dayRequest rfl).1
  obtain ⟨request, _, _, _, hrequest, -, -, -, hreport⟩ := hruns cappedReplay _ _ _ hrun
  obtain rfl : dayRequest = request := Except.ok.inj (by exact hrequest)
  obtain ⟨hread, hstop⟩ := hreport report calls rfl
  refine ⟨?_, files, report, calls, hrun, ?_, hstop.mpr ⟨4, rfl, by decide⟩⟩
  · rw [← hticks]
    decide +kernel
  · rw [hread, ← hticks]
    decide +kernel

end MarketTape
