import Mathlib.Data.List.SplitBy
import Mathlib.Data.List.TakeWhile
import MarketTape.Bar
import MarketTape.Proofs.Merge

/-!
# The bars of a stream

Only one bar is open at a time.  A bar is therefore the summary of a stretch of consecutive ticks of
one cell, which is an instrument in a time bucket, and a cell has as many bars as the stream has
stretches of it.  In a stream that is ordered by time, a cell has a single bar exactly if no tick of
another instrument falls between its ticks.  There are bars as long as every bucket starts at a time
stamp and the ticks of every stretch can be counted.

* `groups` cuts a list where a key changes, and `Together` says that the elements of one key are not
  parted by others; `groups_of_together` and `nodup_groupKeys_iff` say when a key has one group.
* `Bars.ofStream?` are the bars of a whole stream, `Bar.summary?` is the summary of ticks of one
  cell, and `Bars.ofStream?_eq` says that the bars are the summaries of the stretches.
* `Uninterrupted` is the condition on a cell, and `bars_of_stream` is the result.
* `interleaved_bars` is a stream that gives one cell two bars.
-/

namespace MarketTape

/-! ## Cutting a list where a key changes -/

section Groups

variable {β κ : Type} [BEq κ] [LawfulBEq κ] (key : β → κ)

/-- The stretches of consecutive elements of one key. -/
def groups (xs : List β) : List (List β) := xs.splitBy fun a b => key a == key b

/-- The keys of the stretches. -/
def groupKeys (xs : List β) : List κ := (groups key xs).filterMap fun g => g.head?.map key

/-- The elements of a key are not parted by elements of another one. -/
def Together (k : κ) (xs : List β) : Prop :=
  ∀ a x b, [a, x, b].Sublist xs → key a = k → key b = k → key x = k

variable {key}

omit [BEq κ] [LawfulBEq κ] in
lemma Together.sublist {k : κ} {xs ys : List β} (h : Together key k ys) (hsub : xs.Sublist ys) :
    Together key k xs :=
  fun a x b hxs => h a x b (hxs.trans hsub)

omit [LawfulBEq κ] in
@[simp] lemma groups_nil : groups key [] = [] := rfl

/-- A stretch ends where the key changes. -/
lemma groups_append {first : β} {rest more : List β} (hsame : ∀ x ∈ rest, key x = key first)
    (hmore : ∀ x ∈ more.head?, key x ≠ key first) :
    groups key (first :: rest ++ more) = (first :: rest) :: groups key more := by
  have hall : ∀ x ∈ first :: rest, key x = key first := by
    intro x hx
    rcases List.mem_cons.mp hx with rfl | hx
    · rfl
    · exact hsame x hx
  have hchain : (first :: rest).IsChain fun a b => (key a == key b) = true := by
    refine List.Pairwise.isChain (List.pairwise_of_forall_mem_list fun a ha b hb => ?_)
    rw [beq_iff_eq, hall a ha, hall b hb]
  have hbreak : ∀ x ∈ (first :: rest).getLast?, ∀ y ∈ more.head?, (key x == key y) = false := by
    intro x hx y hy
    rw [beq_eq_false_iff_ne, hall x (List.mem_of_getLast? hx)]
    exact (hmore y hy).symm
  rw [groups, List.splitBy_append hbreak, List.splitBy_of_isChain (List.cons_ne_nil _ _) hchain]
  rfl

lemma groups_of_same {first : β} {rest : List β} (hsame : ∀ x ∈ rest, key x = key first) :
    groups key (first :: rest) = [first :: rest] := by
  have h : groups key (first :: rest ++ []) = (first :: rest) :: groups key [] :=
    groups_append hsame (by simp)
  rwa [List.append_nil] at h

lemma same_of_mem_takeWhile {a x : β} {xs : List β}
    (hx : x ∈ xs.takeWhile (key · == key a)) : key x = key a := by
  simpa using List.mem_takeWhile_imp hx

/-- The first stretch are the elements up to the first change of the key. -/
lemma groups_cons (a : β) (xs : List β) :
    groups key (a :: xs) = (a :: xs.takeWhile (key · == key a)) ::
      groups key (xs.dropWhile (key · == key a)) := by
  have hsplit : a :: xs = a :: xs.takeWhile (key · == key a) ++ xs.dropWhile (key · == key a) := by
    rw [List.cons_append, List.takeWhile_append_dropWhile]
  rw [hsplit]
  refine groups_append (fun x hx => ?_) fun x hx => ?_
  · exact same_of_mem_takeWhile hx
  · have hhead := List.head?_dropWhile_not (key · == key a) xs
    rw [Option.mem_def.mp hx] at hhead
    simpa using hhead

/-- Elements of one key at the front of a list are in one stretch. -/
lemma exists_group_of_same {first : β} {rest : List β} (hsame : ∀ x ∈ rest, key x = key first)
    (more : List β) : ∃ g ∈ groups key (first :: rest ++ more), rest.length + 1 ≤ g.length := by
  rw [List.cons_append, groups_cons]
  refine ⟨_, List.mem_cons_self, ?_⟩
  rw [List.takeWhile_append_of_pos fun x hx => beq_iff_eq.mpr (hsame x hx), List.length_cons,
    List.length_append]
  omega

omit [LawfulBEq κ] in
/-- Induction over the stretches of a list. -/
theorem groups_induct (key : β → κ) {P : List β → Prop} (nil : P [])
    (cons : ∀ a xs, P (xs.dropWhile (key · == key a)) → P (a :: xs)) : ∀ xs, P xs
  | [] => nil
  | a :: xs => cons a xs (groups_induct key nil cons _)
termination_by xs => xs.length
decreasing_by
  exact Nat.lt_succ_of_le (List.dropWhile_sublist _).length_le

lemma groupKeys_cons (a : β) (xs : List β) :
    groupKeys key (a :: xs) = key a :: groupKeys key (xs.dropWhile (key · == key a)) := by
  rw [groupKeys, groups_cons]
  rfl

lemma mem_groupKeys {k : κ} : ∀ {xs : List β}, k ∈ groupKeys key xs ↔ ∃ x ∈ xs, key x = k := by
  intro xs
  induction xs using groups_induct key with
  | nil => simp [groupKeys]
  | cons a xs ih =>
    rw [groupKeys_cons, List.mem_cons, ih]
    constructor
    · rintro (rfl | ⟨x, hx, hk⟩)
      · exact ⟨a, List.mem_cons_self, rfl⟩
      · exact ⟨x, List.mem_cons_of_mem _ ((List.dropWhile_sublist _).subset hx), hk⟩
    · rintro ⟨x, hx, hk⟩
      rcases List.mem_cons.mp hx with rfl | hx
      · exact Or.inl hk.symm
      · rw [← List.takeWhile_append_dropWhile (p := (key · == key a)) (l := xs),
          List.mem_append] at hx
        rcases hx with hx | hx
        · exact Or.inl (hk.symm.trans (same_of_mem_takeWhile hx))
        · exact Or.inr ⟨x, hx, hk⟩

/-- If the elements of the first key are together, none comes after the first change. -/
lemma Together.ne_of_mem_dropWhile {a b : β} {xs : List β} (h : Together key (key a) (a :: xs))
    (hb : b ∈ xs.dropWhile (key · == key a)) : key b ≠ key a := by
  intro hkey
  cases hdrop : xs.dropWhile (key · == key a) with
  | nil => simp [hdrop] at hb
  | cons x rest =>
    have hx : key x ≠ key a := by
      have hhead := List.head?_dropWhile_not (key · == key a) xs
      simpa [hdrop] using hhead
    rcases List.mem_cons.mp (hdrop ▸ hb) with rfl | hrest
    · exact hx hkey
    · have hsub : [a, x, b].Sublist (a :: xs) := by
        have htail : [x, b].Sublist (xs.dropWhile (key · == key a)) :=
          hdrop ▸ (List.singleton_sublist.mpr hrest).cons_cons x
        exact (htail.trans (List.dropWhile_sublist _)).cons_cons a
      exact hx (h a x b hsub rfl hkey)

/-- Elements of a key that are together are one stretch. -/
theorem groups_of_together {k : κ} : ∀ {xs : List β}, Together key k xs → (∃ x ∈ xs, key x = k) →
    (groups key xs).filter (fun g => g.head?.map key == some k) = [xs.filter (key · == k)] := by
  intro xs
  induction xs using groups_induct key with
  | nil => simp
  | cons a xs ih =>
    intro htogether hmem
    have hsplit : a :: xs =
        a :: xs.takeWhile (key · == key a) ++ xs.dropWhile (key · == key a) := by
      rw [List.cons_append, List.takeWhile_append_dropWhile]
    have hsame : ∀ x ∈ a :: xs.takeWhile (key · == key a), key x = key a := by
      intro x hx
      rcases List.mem_cons.mp hx with rfl | hx
      · rfl
      · exact same_of_mem_takeWhile hx
    rw [groups_cons, List.filter_cons]
    by_cases hk : key a = k
    · -- nothing of the key comes after its first stretch
      subst hk
      have hnone : (xs.dropWhile (key · == key a)).filter (key · == key a) = [] := by
        refine List.filter_eq_nil_iff.mpr fun x hx => ?_
        simpa using htogether.ne_of_mem_dropWhile hx
      have hgone : (groups key (xs.dropWhile (key · == key a))).filter
          (fun g => g.head?.map key == some (key a)) = [] := by
        refine List.filter_eq_nil_iff.mpr fun g hg hkey => ?_
        have hmem : key a ∈ groupKeys key (xs.dropWhile (key · == key a)) :=
          List.mem_filterMap.mpr ⟨g, hg, beq_iff_eq.mp hkey⟩
        obtain ⟨x, hx, hxa⟩ := mem_groupKeys.mp hmem
        exact htogether.ne_of_mem_dropWhile hx hxa
      have hall : (a :: xs.takeWhile (key · == key a)).filter (key · == key a) =
          a :: xs.takeWhile (key · == key a) :=
        List.filter_eq_self.mpr fun x hx => beq_iff_eq.mpr (hsame x hx)
      rw [hgone, if_pos (by simp)]
      conv_rhs => rw [hsplit, List.filter_append, hall, hnone, List.append_nil]
    · -- the first stretch is of another key
      have hnone : (a :: xs.takeWhile (key · == key a)).filter (key · == k) = [] := by
        refine List.filter_eq_nil_iff.mpr fun x hx => ?_
        simpa [hsame x hx] using hk
      have hsub : (xs.dropWhile (key · == key a)).Sublist (a :: xs) :=
        (List.dropWhile_sublist _).cons a
      obtain ⟨x, hx, hxk⟩ := hmem
      have hlater : x ∈ xs.dropWhile (key · == key a) := by
        rw [hsplit, List.mem_append] at hx
        exact hx.resolve_left fun hx => hk ((hsame x hx).symm.trans hxk)
      rw [if_neg (by simpa using hk), ih (htogether.sublist hsub) ⟨x, hlater, hxk⟩]
      conv_rhs => rw [hsplit, List.filter_append, hnone, List.nil_append]

omit [BEq κ] [LawfulBEq κ] in
/-- Elements of one key, followed by elements of other keys that are together, are together. -/
lemma together_append {j : κ} {xs ys : List β} (hxs : ∀ x ∈ xs, key x = j)
    (hys : ∀ y ∈ ys, key y ≠ j) (h : ∀ k, Together key k ys) (k : κ) :
    Together key k (xs ++ ys) := by
  intro a x b hsub ha hb
  obtain ⟨left, right, heq, hleft, hright⟩ := List.sublist_append_iff.mp hsub
  -- the three elements lie all behind, or the first one is of the first key, and so are the others
  cases left with
  | nil =>
    rw [List.nil_append] at heq
    exact h k a x b (heq ▸ hright) ha hb
  | cons a' left =>
    simp only [List.cons_append, List.cons.injEq] at heq
    obtain ⟨rfl, heq⟩ := heq
    have hak : key a = j := hxs a (hleft.subset List.mem_cons_self)
    have hbk : key b = j := hb.trans (ha.symm.trans hak)
    cases left with
    | nil =>
      have hbmem : b ∈ right := by rw [← List.nil_append right, ← heq]; simp
      exact absurd hbk (hys b (hright.subset hbmem))
    | cons x' left =>
      simp only [List.cons_append, List.cons.injEq] at heq
      obtain ⟨rfl, -⟩ := heq
      have hxk : key x = j := hxs x (hleft.subset (by simp))
      exact hxk.trans (hak.symm.trans ha)

/-- Every key has one stretch exactly if the elements of every key are together. -/
theorem nodup_groupKeys_iff : ∀ {xs : List β},
    (groupKeys key xs).Nodup ↔ ∀ k, Together key k xs := by
  intro xs
  induction xs using groups_induct key with
  | nil => simp [groupKeys, Together]
  | cons a xs ih =>
    rw [groupKeys_cons, List.nodup_cons, ih, mem_groupKeys]
    constructor
    · rintro ⟨hfresh, hrest⟩ k
      rw [← List.takeWhile_append_dropWhile (p := (key · == key a)) (l := xs), ← List.cons_append]
      refine together_append (j := key a) (fun x hx => ?_) (fun y hy hya => ?_) hrest k
      · rcases List.mem_cons.mp hx with rfl | hx
        · rfl
        · exact same_of_mem_takeWhile hx
      · exact hfresh ⟨y, hy, hya⟩
    · intro h
      refine ⟨fun ⟨x, hx, hxa⟩ => (h (key a)).ne_of_mem_dropWhile hx hxa, fun k => ?_⟩
      exact (h k).sublist ((List.dropWhile_sublist _).cons a)

end Groups

/-! ## The bars of a whole stream -/

variable {α : Type}

/-- The instrument of a tick and the number of its bucket. -/
def Tick.cell (width : Int) (t : Tick α) : String × Int := (t.instrument, t.time / width)

/-- The instrument of a bar and the number of its bucket. -/
def Bar.cell (b : Bar α) : String × Int := (b.instrument, b.bucket)

namespace Bars

variable [Scalar α]

/-- Takes all ticks and then closes the bar that is still open; gives the bars that were closed. -/
def drain? (s : Bars α) : List (Tick α) → Option (List (Bar α))
  | [] => some s.flush.2.toList
  | t :: rest =>
    match s.push? t with
    | none => none
    | some (s, closed) => (s.drain? rest).map (closed.toList ++ ·)

/-- The bars of a whole stream. -/
def ofStream? (width : Int) (ticks : List (Tick α)) : Option (List (Bar α)) :=
  (start width).drain? ticks

end Bars

/-- The summary of ticks of one cell: the first price, the highest, the lowest and the last one,
what the market looked like at the last tick, and how many ticks there were. -/
def Bar.summary? [Scalar α] (width : Int) : List (Tick α) → Option (Bar α)
  | [] => none
  | first :: rest =>
    let last := rest.getLast?.getD first
    some
      { instrument := first.instrument, bucket := first.time / width
        start := first.time / width * width, lastTime := last.time
        openPrice := first.last
        high := (rest.map (·.last)).foldl Scalar.larger first.last
        low := (rest.map (·.last)).foldl Scalar.smaller first.last
        close := last.last, volume := Scalar.excess last.volume first.volume
        tickCount := rest.length + 1
        bid := last.bid, ask := last.ask, bidSize := last.bidSize, askSize := last.askSize }

/-- The bucket of a tick starts at a time stamp. -/
def Tick.Datable (width : Int) (t : Tick α) : Prop := Count.Fits (t.time / width * width)

instance (width : Int) (t : Tick α) : Decidable (t.Datable width) :=
  inferInstanceAs (Decidable (Count.Fits _))

namespace OpenBar

/-- The bar that a tick opens. -/
def opened (width : Int) (t : Tick α) : OpenBar α :=
  { instrument := t.instrument, bucket := t.time / width, start := t.time / width * width
    lastTime := t.time, openPrice := t.last, high := t.last, low := t.last, close := t.last
    firstVolume := t.volume, lastVolume := t.volume, tickCount := 1
    bid := t.bid, bidSize := t.bidSize, ask := t.ask, askSize := t.askSize }

variable [Scalar α]

/-- The bar that a tick opened and further ticks went into. -/
def ofTicks (width : Int) (first : Tick α) (rest : List (Tick α)) : OpenBar α :=
  rest.foldl add (opened width first)

lemma ofTicks_concat (width : Int) (first : Tick α) (rest : List (Tick α)) (t : Tick α) :
    ofTicks width first (rest ++ [t]) = (ofTicks width first rest).add t := by
  simp [ofTicks]

/-- What an open bar holds of the ticks that went into it. -/
lemma ofTicks_eq (width : Int) (first : Tick α) (rest : List (Tick α)) :
    let last := rest.getLast?.getD first
    ofTicks width first rest =
      { instrument := first.instrument, bucket := first.time / width
        start := first.time / width * width, lastTime := last.time
        openPrice := first.last
        high := (rest.map (·.last)).foldl Scalar.larger first.last
        low := (rest.map (·.last)).foldl Scalar.smaller first.last
        close := last.last, firstVolume := first.volume, lastVolume := last.volume
        tickCount := rest.length + 1
        bid := last.bid, bidSize := last.bidSize, ask := last.ask, askSize := last.askSize } := by
  induction rest using List.reverseRecOn with
  | nil => rfl
  | append_singleton rest t ih => simp [ofTicks_concat, ih, add]

/-- A further tick goes into the bar as long as the ticks can be counted. -/
lemma add?_ofTicks (width : Int) (first : Tick α) (rest : List (Tick α)) (t : Tick α) :
    (ofTicks width first rest).add? t =
      if Bar.CountFits (rest.length + 2) then some (ofTicks width first (rest ++ [t]))
      else none := by
  rw [add?, ofTicks_concat, ofTicks_eq]

/-- A finished bar sums up the ticks that went into it. -/
lemma summary?_eq_finish (width : Int) (first : Tick α) (rest : List (Tick α)) :
    Bar.summary? width (first :: rest) = some (ofTicks width first rest).finish := by
  rw [ofTicks_eq]
  rfl

/-- A bar takes exactly the ticks of its cell. -/
lemma takes_ofTicks (width : Int) (first : Tick α) (rest : List (Tick α)) (t : Tick α) :
    (ofTicks width first rest).takes t.instrument (t.time / width) = true ↔
      t.cell width = first.cell width := by
  rw [ofTicks_eq]
  simp only [takes, Tick.cell, Bool.and_eq_true, beq_iff_eq, Prod.mk.injEq]
  constructor
  · exact fun ⟨hbucket, hinstrument⟩ => ⟨hinstrument.symm, hbucket.symm⟩
  · exact fun ⟨hinstrument, hbucket⟩ => ⟨hbucket.symm, hinstrument.symm⟩

end OpenBar

/-- A bucket that starts at a time stamp has a number. -/
lemma Tick.fits_of_datable {width : Int} {t : Tick α} (hwidth : 0 < width)
    (h : t.Datable width) : Count.Fits (t.time / width) := by
  have h' : Count.Fits (t.time / width * width) := h
  generalize t.time / width = n at h'
  simp only [Count.Fits, Count.least, Count.greatest] at h' ⊢
  rcases le_total 0 n with hn | hn
  · have hle : n * 1 ≤ n * width := Int.mul_le_mul_of_nonneg_left hwidth hn
    omega
  · have hle : n * width ≤ n * 1 := Int.mul_le_mul_of_nonpos_left hn hwidth
    omega

namespace Bars

variable [Scalar α]

/-- What is left open after a tick that closed a bar or opened the first one. -/
def reopened (s : Bars α) (t : Tick α) : Bars α :=
  { s with
    current := some (OpenBar.opened s.width t)
    emitted := s.emitted + s.current.toList.length }

/-- A tick that the open bar takes closes nothing. -/
lemma push?_of_takes {s : Bars α} {b : OpenBar α} {t : Tick α} (hwidth : 0 < s.width)
    (hcurrent : s.current = some b) (ht : t.Datable s.width)
    (htakes : b.takes t.instrument (t.time / s.width) = true) :
    s.push? t = (b.add? t).map fun b => ({ s with current := some b }, none) := by
  have hbucket : bucketOf? t.time s.width = some (t.time / s.width) := by
    rw [bucketOf?, Count.quotient?, if_neg (by omega)]
    exact Count.fit_eq_some_iff.mpr ⟨Tick.fits_of_datable hwidth ht, rfl⟩
  simp only [push?, hbucket, hcurrent, htakes, if_true]

/-- A tick that the open bar does not take closes it and opens another one, if the bucket of the
tick starts at a time stamp. -/
lemma push?_of_not_takes {s : Bars α} {t : Tick α} (hwidth : 0 < s.width)
    (htakes : ∀ b, s.current = some b → b.takes t.instrument (t.time / s.width) = false) :
    s.push? t =
      if t.Datable s.width then some (s.reopened t, s.current.map OpenBar.finish) else none := by
  have hreopen : s.reopen? t (t.time / s.width) =
      if t.Datable s.width then some (s.reopened t, s.current.map OpenBar.finish) else none := by
    rw [reopen?, OpenBar.ofTick?, Count.fit]
    by_cases ht : t.Datable s.width
    · have hfits : Count.Fits (t.time / s.width * s.width) := ht
      cases hcurrent : s.current <;> simp [hfits, ht, reopened, OpenBar.opened, hcurrent]
    · have hfits : ¬ Count.Fits (t.time / s.width * s.width) := ht
      simp [hfits, ht]
  have hpush : ∀ bucket, bucketOf? t.time s.width = some bucket → bucket = t.time / s.width := by
    intro bucket hbucket
    rw [bucketOf?, Count.quotient?, if_neg (by omega), Count.fit_eq_some_iff] at hbucket
    exact hbucket.2.symm
  rw [push?]
  split
  · rename_i hnone
    rw [if_neg]
    intro ht
    rw [bucketOf?, Count.quotient?, if_neg (by omega), Count.fit_eq_none_iff] at hnone
    exact hnone (Tick.fits_of_datable hwidth ht)
  · rename_i bucket hbucket
    obtain rfl := hpush bucket hbucket
    split
    · rename_i b hcurrent
      rw [if_neg (by simp [htakes b hcurrent]), hreopen]
    · exact hreopen

/-- With a bar open, the bars that are closed from now on are the summaries of the stretches of
what went into it and of what is still to come. -/
lemma drain?_eq : ∀ (ticks : List (Tick α)) (first : Tick α) (rest : List (Tick α)) {s : Bars α},
    0 < s.width → s.current = some (OpenBar.ofTicks s.width first rest) → first.Datable s.width →
      Bar.CountFits (rest.length + 1) → (∀ x ∈ rest, x.cell s.width = first.cell s.width) →
      s.drain? ticks =
        if (∀ t ∈ ticks, t.Datable s.width) ∧
            ∀ g ∈ groups (Tick.cell s.width) (first :: rest ++ ticks), Bar.CountFits g.length then
          some ((groups (Tick.cell s.width) (first :: rest ++ ticks)).filterMap
            (Bar.summary? s.width))
        else none
  | [], first, rest, s, _, hcurrent, _, hcount, hsame => by
    rw [drain?, flush, hcurrent, List.append_nil, groups_of_same hsame]
    simp [OpenBar.summary?_eq_finish, hcount]
  | t :: ticks, first, rest, s, hwidth, hcurrent, hfirst, hcount, hsame => by
    by_cases hcell : t.cell s.width = first.cell s.width
    · -- the bucket of the tick is that of the open bar
      have ht : t.Datable s.width := by
        rw [Tick.Datable, (Prod.mk.inj hcell).2]
        exact hfirst
      have hpush := push?_of_takes hwidth hcurrent ht ((OpenBar.takes_ofTicks ..).mpr hcell)
      have hsame' : ∀ x ∈ rest ++ [t], x.cell s.width = first.cell s.width := by
        intro x hx
        rcases List.mem_append.mp hx with hx | hx
        · exact hsame x hx
        · exact List.mem_singleton.mp hx ▸ hcell
      have hassoc : first :: rest ++ t :: ticks = first :: (rest ++ [t]) ++ ticks := by simp
      rw [OpenBar.add?_ofTicks] at hpush
      rw [drain?, hpush, hassoc]
      by_cases hroom : Bar.CountFits (rest.length + 2)
      · have hcount' : Bar.CountFits ((rest ++ [t]).length + 1) := by
          rwa [List.length_append, List.length_singleton]
        have ih := drain?_eq ticks first (rest ++ [t])
          (s := { s with current := some (OpenBar.ofTicks s.width first (rest ++ [t])) }) hwidth
          rfl hfirst hcount' hsame'
        simp only [hroom, if_true, Option.map_some, ih, List.forall_mem_cons, ht, true_and]
        split <;> simp
      · -- the stretch has more ticks than can be counted
        obtain ⟨g, hg, hlong⟩ := exists_group_of_same hsame' ticks
        have hmany : ¬ Bar.CountFits g.length := by
          rw [List.length_append, List.length_singleton] at hlong
          exact fun hfits => hroom (Nat.lt_of_le_of_lt hlong hfits)
        rw [if_neg hroom, if_neg fun h => hmany (h.2 g hg)]
        rfl
    · have hnot : ∀ b, s.current = some b → b.takes t.instrument (t.time / s.width) = false := by
        intro b hb
        obtain rfl := Option.some.inj (hcurrent.symm.trans hb)
        rw [← Bool.not_eq_true, OpenBar.takes_ofTicks]
        exact hcell
      have hgroups : groups (Tick.cell s.width) (first :: rest ++ t :: ticks) =
          (first :: rest) :: groups (Tick.cell s.width) (t :: ticks) :=
        groups_append hsame (by simpa using hcell)
      rw [drain?, push?_of_not_takes hwidth hnot, hgroups, List.filterMap_cons,
        OpenBar.summary?_eq_finish]
      by_cases ht : t.Datable s.width
      · have ih := drain?_eq ticks t [] (s := s.reopened t) hwidth rfl ht Bar.countFits_one
          (by simp)
        have hs : (s.reopened t).width = s.width := rfl
        rw [hs, List.singleton_append] at ih
        simp only [ih, ht, if_true, hcurrent, List.forall_mem_cons, true_and, List.length_cons,
          hcount]
        split <;> simp
      · simp [ht]

/-- The bars of a stream are the summaries of its stretches.  There are none if the bucket of a tick
starts before the first time stamp, or if a stretch has more ticks than can be counted. -/
theorem ofStream?_eq {width : Int} (hwidth : 0 < width) (ticks : List (Tick α)) :
    ofStream? width ticks =
      if (∀ t ∈ ticks, t.Datable width) ∧
          ∀ g ∈ groups (Tick.cell width) ticks, Bar.CountFits g.length then
        some ((groups (Tick.cell width) ticks).filterMap (Bar.summary? width))
      else none := by
  cases ticks with
  | nil => rfl
  | cons t ticks =>
    have hnot : ∀ b, (start (α := α) width).current = some b →
        b.takes t.instrument (t.time / width) = false := fun b hb => by cases hb
    rw [ofStream?, drain?, push?_of_not_takes hwidth hnot]
    by_cases ht : t.Datable width
    · have ih := drain?_eq ticks t [] (s := (start width).reopened t) hwidth rfl ht
        Bar.countFits_one (by simp)
      have hs : ((start width).reopened t).width = width := rfl
      have hs' : (start (α := α) width).width = width := rfl
      have hcurrent : (start (α := α) width).current = none := rfl
      rw [hs, List.singleton_append] at ih
      simp only [hs', hcurrent, ih, ht, if_true, List.forall_mem_cons, true_and]
      split <;> simp
    · have hs' : (start (α := α) width).width = width := rfl
      simp [hs', ht]

end Bars

/-! ## One bar for a cell -/

/-- No tick of another instrument falls between two ticks of a cell. -/
def Uninterrupted (width : Int) (ticks : List (Tick α)) (c : String × Int) : Prop :=
  ∀ a t b, [a, t, b].Sublist ticks → a.cell width = c → b.cell width = c → t.instrument = c.1

/-- What falls between two ticks of a bucket, in a stream ordered by time, is in the bucket; so only
another instrument can part the ticks of a cell. -/
lemma uninterrupted_iff {width : Int} (hwidth : 0 < width) {ticks : List (Tick α)}
    (hsorted : Tick.inOrder ticks = true) (c : String × Int) :
    Uninterrupted width ticks c ↔ Together (Tick.cell width) c ticks := by
  constructor
  · intro h a t b hsub ha hb
    have horder := (Tick.pairwise_of_inOrder hsorted).sublist hsub
    simp only [List.pairwise_cons, List.mem_cons, List.not_mem_nil, or_false, forall_eq_or_imp,
      forall_eq] at horder
    obtain ⟨⟨hat, -⟩, htb, -⟩ := horder
    have hlow : a.time / width ≤ t.time / width :=
      Int.ediv_le_ediv hwidth (Tick.time_le_of_comesBy hat)
    have hhigh : t.time / width ≤ b.time / width :=
      Int.ediv_le_ediv hwidth (Tick.time_le_of_comesBy htb)
    have hfirst : a.time / width = c.2 := congrArg Prod.snd ha
    have hlast : b.time / width = c.2 := congrArg Prod.snd hb
    have hbucket : t.time / width = c.2 := by omega
    exact Prod.ext (h a t b hsub ha hb) hbucket
  · intro h a t b hsub ha hb
    exact congrArg Prod.fst (h a t b hsub ha hb)

section Cells

variable [Scalar α] {width : Int}

/-- The summary of a stretch has the cell of its first tick. -/
lemma cell_summary? (g : List (Tick α)) :
    (Bar.summary? width g).map Bar.cell = g.head?.map (Tick.cell width) := by
  cases g <;> rfl

lemma cells_summaries (ticks : List (Tick α)) :
    ((groups (Tick.cell width) ticks).filterMap (Bar.summary? width)).map Bar.cell =
      groupKeys (Tick.cell width) ticks := by
  rw [List.map_filterMap]
  exact List.filterMap_congr fun g _ => cell_summary? g

/-- The bars of a cell are the summaries of its stretches. -/
lemma filter_summaries (ticks : List (Tick α)) (c : String × Int) :
    ((groups (Tick.cell width) ticks).filterMap (Bar.summary? width)).filter (·.cell == c) =
      ((groups (Tick.cell width) ticks).filter fun g =>
        g.head?.map (Tick.cell width) == some c).filterMap (Bar.summary? width) := by
  rw [List.filter_filterMap, List.filterMap_filter]
  refine List.filterMap_congr fun g _ => ?_
  rw [← cell_summary?]
  cases Bar.summary? width g <;> simp [Option.filter]

end Cells

/-- The bars of a stream that is ordered by time, if every bucket starts at a time stamp and every
stretch has fewer than `2 ^ 32` ticks: the cells of the bars are the cells of the ticks; a cell
whose ticks are not interrupted by another instrument has one bar, which sums up all of them; and no
cell has two bars exactly if none is interrupted. -/
theorem bars_of_stream [Scalar α] {width : Int} (hwidth : 0 < width) {ticks : List (Tick α)}
    (hsorted : Tick.inOrder ticks = true) :
    ((∀ t ∈ ticks, t.Datable width) ∧
        (∀ g ∈ groups (Tick.cell width) ticks, Bar.CountFits g.length) ↔
      ∃ bars, Bars.ofStream? width ticks = some bars) ∧
      ∀ bars, Bars.ofStream? width ticks = some bars →
        (∀ c, (∃ b ∈ bars, b.cell = c) ↔ ∃ t ∈ ticks, t.cell width = c) ∧
          (∀ c, (∃ t ∈ ticks, t.cell width = c) → Uninterrupted width ticks c →
            ∃ bar, Bar.summary? width (ticks.filter (·.cell width == c)) = some bar ∧
              bars.filter (·.cell == c) = [bar]) ∧
          ((bars.map Bar.cell).Nodup ↔ ∀ c, Uninterrupted width ticks c) := by
  rw [Bars.ofStream?_eq hwidth]
  refine ⟨by simp [ite_eq_iff], fun bars hbars => ?_⟩
  obtain ⟨-, hbars⟩ := Option.ite_none_right_eq_some.mp hbars
  obtain rfl := Option.some.inj hbars
  refine ⟨fun c => ?_, fun c hc hfree => ?_, ?_⟩
  · have hkeys : c ∈ groupKeys (Tick.cell width) ticks ↔ ∃ t ∈ ticks, t.cell width = c :=
      mem_groupKeys
    rw [← hkeys, ← cells_summaries, List.mem_map]
  · rw [filter_summaries, groups_of_together ((uninterrupted_iff hwidth hsorted c).mp hfree) hc]
    obtain ⟨t, ht, htc⟩ := hc
    cases hticks : ticks.filter (·.cell width == c) with
    | nil => exact absurd (List.filter_eq_nil_iff.mp hticks t ht) (by simp [htc])
    | cons first rest => exact ⟨_, rfl, rfl⟩
  · rw [cells_summaries, nodup_groupKeys_iff]
    exact forall_congr' fun c => (uninterrupted_iff hwidth hsorted c).symm

/-- Two instruments in one minute, one after the other, and then the first one a minute later. -/
def groupedTicks : List (Tick Float) :=
  [⟨"ag2406", 0, 50, 7, 49, 1, 51, 1⟩, ⟨"ag2406", 20, 52, 9, 51, 1, 53, 1⟩,
    ⟨"rb2405", 40, 100, 3, 99, 1, 101, 1⟩, ⟨"ag2406", 60, 51, 9, 50, 1, 52, 1⟩]

/-- The grouped ticks make three bars, and the first one sums up two ticks. -/
theorem bars_of_groupedTicks :
    ∃ bars, Bars.ofStream? 60 groupedTicks = some bars ∧
      bars.map Bar.cell = [("ag2406", 0), ("rb2405", 0), ("ag2406", 1)] ∧
      ∃ bar, bars.filter (·.cell == ("ag2406", 0)) = [bar] ∧ bar.tickCount = 2 ∧
        Bar.summary? 60 (groupedTicks.filter (·.cell 60 == ("ag2406", 0))) = some bar := by
  obtain ⟨hbuilt, hbars⟩ :=
    bars_of_stream (by decide : (0 : Int) < 60) (by decide : Tick.inOrder groupedTicks = true)
  obtain ⟨bars, hstream⟩ := hbuilt.mp ⟨by decide, by decide +kernel⟩
  obtain ⟨-, hone, hnodup⟩ := hbars bars hstream
  have hcells : bars.map Bar.cell = [("ag2406", 0), ("rb2405", 0), ("ag2406", 1)] := by
    have hall : (Bars.ofStream? 60 groupedTicks).map (·.map Bar.cell) =
        some [("ag2406", 0), ("rb2405", 0), ("ag2406", 1)] := by decide +kernel
    rw [hstream] at hall
    exact Option.some.inj hall
  have hfree := hnodup.mp (hcells ▸ by decide)
  obtain ⟨bar, hsummary, hbar⟩ :=
    hone ("ag2406", 0) ⟨_, List.mem_cons_self, by decide⟩ (hfree _)
  refine ⟨bars, hstream, hcells, bar, hbar, ?_, hsummary⟩
  obtain rfl := Option.some.inj hsummary
  decide +kernel

/-- Two instruments that take turns in one minute. -/
def interleavedTicks : List (Tick Float) :=
  [⟨"ag2406", 1704067200000000000, 5000, 1, 4999, 1, 5001, 1⟩,
    ⟨"rb2405", 1704067210000000000, 100, 1, 99, 1, 101, 1⟩,
    ⟨"ag2406", 1704067220000000000, 5002, 2, 5001, 1, 5003, 1⟩]

/-- The interleaved ticks are in order, and yet one instrument has two bars in the minute. -/
theorem interleaved_bars :
    Tick.inOrder interleavedTicks = true ∧
      ∃ bars, Bars.ofStream? 60000000000 interleavedTicks = some bars ∧
        bars.map Bar.cell =
          [("ag2406", 28401120), ("rb2405", 28401120), ("ag2406", 28401120)] ∧
        ¬ (bars.map Bar.cell).Nodup := by
  refine ⟨by decide, ?_⟩
  have hcells : (Bars.ofStream? 60000000000 interleavedTicks).map (·.map Bar.cell) =
      some [("ag2406", 28401120), ("rb2405", 28401120), ("ag2406", 28401120)] := by
    decide +kernel
  obtain ⟨bars, hbars, hmap⟩ := Option.map_eq_some_iff.mp hcells
  exact ⟨bars, hbars, hmap, hmap ▸ by decide⟩

end MarketTape
