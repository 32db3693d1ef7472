import Mathlib.Algebra.Group.Nat.Hom
import Mathlib.Data.List.Infix
import Mathlib.Tactic.Common
import MarketTape.Signature

/-!
# Telling scans apart by their bytes

The signature of scanned ticks digests one sequence of bytes: for every partition its number, and
then its ticks, one behind the other.  Two scans should have the same signature only by a collision
of the digest, so their bytes should differ whenever the ticks do.

A tick ends where it says it does: its instrument ends at the first zero byte, and all that follows
has a fixed width.  A partition does not say how many ticks it has.  It ends where the number of the
next one begins, and a tick may begin with these very bytes: the number 1 is a one and seven zeros,
which is what a tick of the instrument `\x01` looks like at a time that is a multiple of a power of
two.  No instrument of more than a few letters does that, and then the bytes tell scans apart.

* `PrefixFree` are values that can be taken off the front of a sequence of bytes, and
  `PrefixFree.flatMap_inj` tells sequences of them apart.
* `Tick.bytes_append_inj` says that a tick can be taken off the front of a sequence of bytes.
* `PartitionScan.Unmistakable` are partitions none of whose ticks begins like the next partition,
  and `PartitionScan.unmistakable_of_long` says that the ticks of long instruments do not.
* `scanBytes_inj` is the result, and `scanBytes_ambiguous` are two scans that have the same bytes.
-/

namespace MarketTape

/-! ## Text -/

namespace Node

lemma toList_loop (bytes : ByteArray) (i : Nat) (taken : List UInt8) :
    ByteArray.toList.loop bytes i taken = taken.reverse ++ bytes.data.toList.drop i := by
  induction i, taken using ByteArray.toList.loop.induct bytes with
  | case1 i taken hi ih =>
    have hi' : i < bytes.data.toList.length := by rwa [Array.length_toList]
    have hget : bytes.get! i = bytes.data.toList[i] := by
      rw [Array.getElem_toList]
      exact getElem!_pos bytes.data i hi
    rw [ByteArray.toList.loop, if_pos hi, ih, List.reverse_cons, List.append_assoc,
      List.singleton_append, hget, List.getElem_cons_drop]
  | case2 i taken hi =>
    have hdrop : bytes.data.toList.drop i = [] :=
      List.drop_eq_nil_of_le (by rw [Array.length_toList]; exact Nat.le_of_not_lt hi)
    rw [ByteArray.toList.loop, if_neg hi, hdrop, List.append_nil]

lemma toList_eq (bytes : ByteArray) : bytes.toList = bytes.data.toList := toList_loop bytes 0 []

lemma bytesOf_eq (text : String) : bytesOf text = text.toList.flatMap String.utf8EncodeChar := by
  rw [bytesOf, toList_eq, String.toUTF8_eq_toByteArray, ← String.utf8Encode_toList,
    List.utf8Encode, List.toList_data_toByteArray]

lemma bytesOf_inj {text other : String} (h : bytesOf text = bytesOf other) : text = other := by
  rw [bytesOf, bytesOf, toList_eq, toList_eq] at h
  exact String.toByteArray_inj.mp (ByteArray.ext (Array.toList_inj.mp h))

/-- Only the zero character has a zero byte. -/
lemma zero_not_mem_bytesOf {text : String} (h : '\x00' ∉ text.toList) : 0 ∉ bytesOf text := by
  rw [bytesOf_eq, List.mem_flatMap]
  rintro ⟨c, hc, hzero⟩
  have hne : c.val.toNat ≠ 0 := by
    intro hval
    refine h ?_
    have hnul : c = '\x00' := Char.ext (UInt32.toNat_inj.mp hval)
    rwa [hnul] at hc
  have hbyte : ∀ n, (0 : UInt8) = UInt8.ofNat n ↔ n % 256 = 0 := fun n => by
    rw [eq_comm, UInt8.ofNat_eq_iff_mod_eq_toNat]
    rfl
  unfold String.utf8EncodeChar at hzero
  dsimp only at hzero
  split at hzero
  · simp only [List.mem_singleton, hbyte] at hzero
    omega
  · split at hzero
    · simp only [List.mem_cons, List.not_mem_nil, or_false, hbyte] at hzero
      omega
    · split at hzero <;>
      · simp only [List.mem_cons, List.not_mem_nil, or_false, hbyte] at hzero
        omega

end Node

/-- What stands before the first zero is known. -/
lemma append_zero_inj {name other rest rest' : List UInt8} (h : 0 ∉ name) (h' : 0 ∉ other)
    (heq : name ++ 0 :: rest = other ++ 0 :: rest') : name = other ∧ rest = rest' := by
  induction name generalizing other with
  | nil =>
    cases other with
    | nil => exact ⟨rfl, (List.cons.inj heq).2⟩
    | cons byte other => exact absurd (List.cons.inj heq).1 (List.ne_of_not_mem_cons h')
  | cons byte name ih =>
    cases other with
    | nil => exact absurd (List.cons.inj heq).1.symm (List.ne_of_not_mem_cons h)
    | cons byte' other =>
      obtain ⟨rfl, hrest⟩ := List.cons.inj heq
      obtain ⟨rfl, hrest'⟩ :=
        ih (List.not_mem_of_not_mem_cons h) (List.not_mem_of_not_mem_cons h') hrest
      exact ⟨rfl, hrest'⟩

/-- A text that ends in a zero byte, and bytes of a known number behind it, can be taken off the
front of a sequence of bytes in one way only. -/
lemma framed_append_inj {text other : String} {fixed fixed' rest rest' : List UInt8}
    (h : '\x00' ∉ text.toList) (h' : '\x00' ∉ other.toList) (hlength : fixed.length = fixed'.length)
    (heq : Node.bytesOf text ++ 0 :: fixed ++ rest = Node.bytesOf other ++ 0 :: fixed' ++ rest') :
    text = other ∧ fixed = fixed' ∧ rest = rest' := by
  rw [List.append_assoc, List.append_assoc, List.cons_append, List.cons_append] at heq
  obtain ⟨hname, hbehind⟩ :=
    append_zero_inj (Node.zero_not_mem_bytesOf h) (Node.zero_not_mem_bytesOf h') heq
  obtain ⟨hfixed, hrest⟩ := List.append_inj hbehind hlength
  exact ⟨Node.bytesOf_inj hname, hfixed, hrest⟩

/-! ## Words of a code -/

/-- A way to write values as bytes, at least one for each, such that a value can be taken off the
front of a sequence of bytes in one way only. -/
structure PrefixFree {β : Type} (allowed : β → Prop) (bytes : β → List UInt8) : Prop where
  nonempty : ∀ x, allowed x → bytes x ≠ []
  append_inj : ∀ x y rest rest', allowed x → allowed y →
    bytes x ++ rest = bytes y ++ rest' → x = y ∧ rest = rest'

/-- Values that are written one behind the other can be told apart, however many there are. -/
theorem PrefixFree.flatMap_inj {β : Type} {allowed : β → Prop} {bytes : β → List UInt8}
    (hcode : PrefixFree allowed bytes) : ∀ {xs ys : List β}, (∀ x ∈ xs, allowed x) →
    (∀ y ∈ ys, allowed y) → xs.flatMap bytes = ys.flatMap bytes → xs = ys
  | [], [], _, _, _ => rfl
  | [], y :: ys, _, hys, h => by
    rw [List.flatMap_nil, List.flatMap_cons] at h
    exact absurd (List.append_eq_nil_iff.mp h.symm).1 (hcode.nonempty y (hys y List.mem_cons_self))
  | x :: xs, [], hxs, _, h => by
    rw [List.flatMap_nil, List.flatMap_cons] at h
    exact absurd (List.append_eq_nil_iff.mp h).1 (hcode.nonempty x (hxs x List.mem_cons_self))
  | x :: xs, y :: ys, hxs, hys, h => by
    rw [List.flatMap_cons, List.flatMap_cons] at h
    rw [List.forall_mem_cons] at hxs hys
    obtain ⟨rfl, hrest⟩ := hcode.append_inj x y _ _ hxs.1 hys.1 h
    rw [flatMap_inj hcode hxs.2 hys.2 hrest]

/-! ## Numbers -/

namespace Digest

lemma littleEndian_inj : ∀ {width n m : Nat}, n < 256 ^ width → m < 256 ^ width →
    littleEndian width n = littleEndian width m → n = m
  | 0, n, m, hn, hm, _ => by
    rw [Nat.pow_zero, Nat.lt_one_iff] at hn hm
    rw [hn, hm]
  | width + 1, n, m, hn, hm, h => by
    obtain ⟨hlow, hhigh⟩ := List.cons.inj h
    rw [Nat.pow_succ] at hn hm
    have hhigh' : n / 256 = m / 256 :=
      littleEndian_inj (Nat.div_lt_of_lt_mul (by omega)) (Nat.div_lt_of_lt_mul (by omega)) hhigh
    have hlow' : n % 256 = m % 256 := by
      have hbytes := congrArg UInt8.toNat hlow
      rwa [UInt8.toNat_ofNat', UInt8.toNat_ofNat', Nat.mod_mod_of_dvd n (by decide),
        Nat.mod_mod_of_dvd m (by decide)] at hbytes
    omega

/-- Where a number is small, its bytes are zero from some place on. -/
lemma getElem?_littleEndian_of_lt : ∀ {width n place : Nat}, n < 256 ^ place → place < width →
    (littleEndian width n)[place]? = some 0
  | width + 1, n, 0, hn, _ => by
    rw [Nat.pow_zero, Nat.lt_one_iff] at hn
    rw [hn]
    rfl
  | width + 1, n, place + 1, hn, hplace => by
    rw [Nat.pow_succ] at hn
    rw [littleEndian, List.getElem?_cons_succ]
    exact getElem?_littleEndian_of_lt (Nat.div_lt_of_lt_mul (by omega)) (by omega)

@[simp] lemma length_signed (width : Nat) (n : Int) : (signed width n).length = width :=
  length_littleEndian _ _

@[simp] lemma length_ofFloat (x : Float) : (ofFloat x).length = 8 := length_littleEndian _ _

/-- Two's complement tells numbers apart that are close enough to each other. -/
lemma signed_inj_of_near {width : Nat} {n m : Int} (hnear : (n - m).natAbs < 256 ^ width)
    (h : signed width n = signed width m) : n = m := by
  have hne : ((256 ^ width : Nat) : Int) ≠ 0 := by exact_mod_cast (Nat.pow_pos (by decide)).ne'
  have hrange (k : Int) :
      0 ≤ k % (256 ^ width : Nat) ∧ k % (256 ^ width : Nat) < (256 ^ width : Nat) :=
    ⟨Int.emod_nonneg k hne, Int.emod_lt_of_pos k (by omega)⟩
  have hn := hrange n
  have hm := hrange m
  have hmod : n % (256 ^ width : Nat) = m % (256 ^ width : Nat) := by
    have hnat : (n % (256 ^ width : Nat)).toNat = (m % (256 ^ width : Nat)).toNat :=
      littleEndian_inj (by omega) (by omega) h
    omega
  have hdvd : ((256 ^ width : Nat) : Int) ∣ n - m :=
    Int.dvd_of_emod_eq_zero (Int.emod_eq_emod_iff_emod_sub_eq_zero.mp hmod)
  exact Int.sub_eq_zero.mp (Int.eq_zero_of_dvd_of_natAbs_lt_natAbs hdvd hnear)

/-- A count in two's complement is no other count. -/
lemma signed_inj {n m : Int} (hn : Count.Fits n) (hm : Count.Fits m)
    (h : signed 8 n = signed 8 m) : n = m := by
  simp only [Count.Fits, Count.least, Count.greatest] at hn hm
  exact signed_inj_of_near (by omega) h

/-- The bits of a double are its own. -/
lemma ofFloat_inj {x y : Float} (h : ofFloat x = ofFloat y) : x = y := by
  have hbits : x.toBits = y.toBits :=
    UInt64.toNat_inj.mp (littleEndian_inj x.toBits.toNat_lt y.toBits.toNat_lt h)
  obtain ⟨⟨bits, hvalid⟩⟩ := x
  obtain ⟨⟨bits', hvalid'⟩⟩ := y
  obtain rfl : bits = bits' := hbits
  rfl

/-- Doubles can be told apart one behind the other. -/
lemma prefixFree_ofFloat : PrefixFree (fun _ => True) ofFloat where
  nonempty x _ := List.ne_nil_of_length_pos (by rw [length_ofFloat]; decide)
  append_inj x y rest rest' _ _ h := by
    obtain ⟨hx, hrest⟩ := List.append_inj h (by rw [length_ofFloat, length_ofFloat])
    exact ⟨ofFloat_inj hx, hrest⟩

end Digest

/-! ## Ticks -/

namespace Tick

/-- The six numbers of a tick. -/
def numbers (t : Tick Float) : List Float := [t.last, t.volume, t.bid, t.bidSize, t.ask, t.askSize]

/-- A tick as it can be recorded: its time is a count, and its instrument has no zero character. -/
structure Sealed (t : Tick Float) : Prop where
  time : Count.Fits t.time
  instrument : '\x00' ∉ t.instrument.toList

/-- What follows the instrument of a tick. -/
def fixedBytes (t : Tick Float) : List UInt8 :=
  Digest.signed 8 t.time ++ t.numbers.flatMap Digest.ofFloat

lemma bytes_eq (t : Tick Float) : t.bytes = Node.bytesOf t.instrument ++ 0 :: t.fixedBytes := rfl

lemma length_fixedBytes (t : Tick Float) : t.fixedBytes.length = 56 := by
  simp [fixedBytes, numbers]

/-- A tick is longer than the number of a partition. -/
lemma length_bytes (t : Tick Float) : 8 < t.bytes.length := by
  rw [bytes_eq, List.length_append, List.length_cons, length_fixedBytes]
  omega

/-- A tick can be taken off the front of a sequence of bytes in one way only. -/
theorem bytes_append_inj {t t' : Tick Float} {rest rest' : List UInt8} (ht : t.Sealed)
    (ht' : t'.Sealed) (h : t.bytes ++ rest = t'.bytes ++ rest') : t = t' ∧ rest = rest' := by
  rw [bytes_eq, bytes_eq] at h
  obtain ⟨hinstrument, hfixed, hrest⟩ := framed_append_inj ht.instrument ht'.instrument
    (by rw [length_fixedBytes, length_fixedBytes]) h
  obtain ⟨htime, hnumbers⟩ := List.append_inj hfixed (by
    rw [Digest.length_signed, Digest.length_signed])
  have hsame : t.numbers = t'.numbers :=
    Digest.prefixFree_ofFloat.flatMap_inj (fun _ _ => trivial) (fun _ _ => trivial) hnumbers
  have htimes := Digest.signed_inj ht.time ht'.time htime
  obtain ⟨instrument, time, last, volume, bid, bidSize, ask, askSize⟩ := t
  obtain ⟨instrument', time', last', volume', bid', bidSize', ask', askSize'⟩ := t'
  simp only [numbers, List.cons.injEq, and_true] at hsame hinstrument htimes
  obtain ⟨rfl, rfl, rfl, rfl, rfl, rfl⟩ := hsame
  subst hinstrument htimes
  exact ⟨rfl, hrest⟩

end Tick

/-! ## Partitions -/

/-- The bytes that announce a partition. -/
def headerBytes (partition : Nat) : List UInt8 := Digest.littleEndian 8 partition

@[simp] lemma length_headerBytes (partition : Nat) : (headerBytes partition).length = 8 :=
  Digest.length_littleEndian _ _

lemma scanBytes_cons (s : PartitionScan Float) (rest : List (PartitionScan Float)) :
    scanBytes (s :: rest) =
      headerBytes s.partition ++ (s.ticks.flatMap Tick.bytes ++ scanBytes rest) := by
  rw [scanBytes, List.flatMap_cons, List.append_assoc]
  rfl

lemma scanBytes_ne_nil (s : PartitionScan Float) (rest : List (PartitionScan Float)) :
    scanBytes (s :: rest) ≠ [] := by
  intro h
  have hlength := congrArg List.length h
  rw [scanBytes_cons, List.length_append, length_headerBytes, List.length_nil] at hlength
  omega

namespace PartitionScan

/-- Scans that are numbered from some number on. -/
def NumberedFrom (first : Nat) (scans : List (PartitionScan Float)) : Prop :=
  scans.map (·.partition) = List.range' first scans.length

/-- A scan none of whose ticks begins like the number of the next partition. -/
def Unmistakable (s : PartitionScan Float) : Prop :=
  ∀ t ∈ s.ticks, ¬ headerBytes (s.partition + 1) <+: t.bytes

/-- A tick of an instrument that has more bytes than the number of the next partition is not
mistaken for it. -/
lemma unmistakable_of_long {s : PartitionScan Float} {place : Nat} (hplace : place < 8)
    (hpartition : s.partition + 1 < 256 ^ place)
    (hlong : ∀ t ∈ s.ticks, t.Sealed ∧ place < (Node.bytesOf t.instrument).length) :
    s.Unmistakable := by
  rintro t ht ⟨rest, hrest⟩
  obtain ⟨hsealed, hlength⟩ := hlong t ht
  -- the number has a zero where the tick still has a byte of its instrument
  have hzero : t.bytes[place]? = some 0 := by
    rw [← hrest, List.getElem?_append_left (by rw [length_headerBytes]; exact hplace)]
    exact Digest.getElem?_littleEndian_of_lt hpartition hplace
  rw [Tick.bytes_eq, List.getElem?_append_left hlength] at hzero
  exact Node.zero_not_mem_bytesOf hsealed.instrument (List.mem_of_getElem? hzero)

end PartitionScan

/-- What may stand behind the ticks of a partition: nothing, or the next partition. -/
def Behind (partition : Nat) (rest : List UInt8) : Prop :=
  rest = [] ∨ headerBytes (partition + 1) <+: rest

/-- A tick does not stand behind a partition, if it does not begin like the next one. -/
lemma not_behind_tick {partition : Nat} {t : Tick Float} {more : List UInt8}
    (ht : ¬ headerBytes (partition + 1) <+: t.bytes) : ¬ Behind partition (t.bytes ++ more) := by
  have hlong := t.length_bytes
  rintro (hempty | hprefix)
  · have hnone : t.bytes = [] := (List.append_eq_nil_iff.mp hempty).1
    rw [hnone] at hlong
    exact absurd hlong (Nat.not_lt_zero 8)
  · refine ht (List.prefix_of_prefix_length_le hprefix (List.prefix_append _ _) ?_)
    rw [length_headerBytes]
    exact hlong.le

/-- The ticks of a partition can be taken off the front of what comes from there on in one way
only. -/
lemma ticks_append_inj {partition : Nat} : ∀ {ticks ticks' : List (Tick Float)}
    {rest rest' : List UInt8},
    (∀ t ∈ ticks, t.Sealed ∧ ¬ headerBytes (partition + 1) <+: t.bytes) →
    (∀ t ∈ ticks', t.Sealed ∧ ¬ headerBytes (partition + 1) <+: t.bytes) →
    Behind partition rest → Behind partition rest' →
    ticks.flatMap Tick.bytes ++ rest = ticks'.flatMap Tick.bytes ++ rest' →
    ticks = ticks' ∧ rest = rest'
  | [], [], _, _, _, _, _, _, h => ⟨rfl, h⟩
  | [], t' :: ticks', rest, rest', _, hticks', hrest, _, h => by
    rw [List.flatMap_nil, List.nil_append, List.flatMap_cons, List.append_assoc] at h
    exact absurd (h ▸ hrest) (not_behind_tick (hticks' t' List.mem_cons_self).2)
  | t :: ticks, [], rest, rest', hticks, _, _, hrest', h => by
    rw [List.flatMap_nil, List.nil_append, List.flatMap_cons, List.append_assoc] at h
    exact absurd (h ▸ hrest') (not_behind_tick (hticks t List.mem_cons_self).2)
  | t :: ticks, t' :: ticks', rest, rest', hticks, hticks', hrest, hrest', h => by
    rw [List.flatMap_cons, List.flatMap_cons, List.append_assoc, List.append_assoc] at h
    obtain ⟨ht, hall⟩ := List.forall_mem_cons.mp hticks
    obtain ⟨ht', hall'⟩ := List.forall_mem_cons.mp hticks'
    obtain ⟨rfl, hmore⟩ := Tick.bytes_append_inj ht.1 ht'.1 h
    obtain ⟨rfl, hrests⟩ := ticks_append_inj hall hall' hrest hrest' hmore
    exact ⟨rfl, hrests⟩

namespace PartitionScan

/-- Scans that are numbered one after the other, with ticks as they can be recorded, and none of
them mistakable. -/
structure Distinct (first : Nat) (scans : List (PartitionScan Float)) : Prop where
  numbered : NumberedFrom first scans
  sealed : ∀ s ∈ scans, ∀ t ∈ s.ticks, t.Sealed
  unmistakable : ∀ s ∈ scans, s.Unmistakable

lemma Distinct.cons {first : Nat} {s : PartitionScan Float} {rest : List (PartitionScan Float)}
    (h : Distinct first (s :: rest)) :
    s.partition = first ∧
      (∀ t ∈ s.ticks, t.Sealed ∧ ¬ headerBytes (first + 1) <+: t.bytes) ∧
      Distinct (first + 1) rest ∧ Behind first (scanBytes rest) := by
  obtain ⟨hnumbered, hsealed, hunmistakable⟩ := h
  rw [NumberedFrom, List.map_cons, List.length_cons, List.range'_succ, List.cons.injEq]
    at hnumbered
  obtain ⟨rfl, hnumbered⟩ := hnumbered
  obtain ⟨hticks, hsealed⟩ := List.forall_mem_cons.mp hsealed
  obtain ⟨hown, hunmistakable⟩ := List.forall_mem_cons.mp hunmistakable
  refine ⟨rfl, fun t ht => ⟨hticks t ht, hown t ht⟩, ⟨hnumbered, hsealed, hunmistakable⟩, ?_⟩
  cases rest with
  | nil => exact Or.inl rfl
  | cons next rest =>
    rw [List.map_cons, List.length_cons, List.range'_succ, List.cons.injEq] at hnumbered
    rw [scanBytes_cons, hnumbered.1]
    exact Or.inr (List.prefix_append _ _)

/-- Partitions can be read off their bytes, one after the other. -/
lemma ticks_of_scanBytes : ∀ {first : Nat} {scans scans' : List (PartitionScan Float)},
    Distinct first scans → Distinct first scans' → scanBytes scans = scanBytes scans' →
    scans.map (·.ticks) = scans'.map (·.ticks)
  | _, [], [], _, _, _ => rfl
  | _, [], s' :: scans', _, _, h => absurd h.symm (scanBytes_ne_nil s' scans')
  | _, s :: scans, [], _, _, h => absurd h (scanBytes_ne_nil s scans)
  | first, s :: scans, s' :: scans', hd, hd', h => by
    obtain ⟨hnumber, hticks, hrest, hbehind⟩ := hd.cons
    obtain ⟨hnumber', hticks', hrest', hbehind'⟩ := hd'.cons
    rw [scanBytes_cons, scanBytes_cons, hnumber, hnumber'] at h
    obtain ⟨hsame, hmore⟩ := ticks_append_inj hticks hticks' hbehind hbehind'
      (List.append_cancel_left h)
    rw [List.map_cons, List.map_cons, hsame, ticks_of_scanBytes hrest hrest' hmore]

/-- The numbers and the ticks are all that the bytes are made of. -/
lemma scanBytes_of_ticks : ∀ {first : Nat} {scans scans' : List (PartitionScan Float)},
    NumberedFrom first scans → NumberedFrom first scans' →
    scans.map (·.ticks) = scans'.map (·.ticks) → scanBytes scans = scanBytes scans'
  | _, [], [], _, _, _ => rfl
  | _, [], _ :: _, _, _, h => by cases h
  | _, _ :: _, [], _, _, h => by cases h
  | first, s :: scans, s' :: scans', hn, hn', h => by
    rw [NumberedFrom, List.map_cons, List.length_cons, List.range'_succ, List.cons.injEq] at hn hn'
    rw [List.map_cons, List.map_cons, List.cons.injEq] at h
    rw [scanBytes_cons, scanBytes_cons, hn.1, hn'.1, h.1, scanBytes_of_ticks hn.2 hn'.2 h.2]

end PartitionScan

/-- **Bytes tell scans apart.**  Two scans whose partitions are numbered from nothing on have the
same bytes exactly if they have as many partitions with the same ticks, bit for bit, as long as no
tick begins with the very bytes that announce the next partition. -/
theorem scanBytes_inj {scans scans' : List (PartitionScan Float)}
    (hnumbered : scans.map (·.partition) = List.range scans.length)
    (hnumbered' : scans'.map (·.partition) = List.range scans'.length)
    (hsealed : ∀ s ∈ scans ++ scans', ∀ t ∈ s.ticks, t.Sealed)
    (hunmistakable : ∀ s ∈ scans ++ scans', s.Unmistakable) :
    scanBytes scans = scanBytes scans' ↔ scans.map (·.ticks) = scans'.map (·.ticks) := by
  have hfrom : PartitionScan.NumberedFrom 0 scans := by
    rwa [PartitionScan.NumberedFrom, ← List.range_eq_range']
  have hfrom' : PartitionScan.NumberedFrom 0 scans' := by
    rwa [PartitionScan.NumberedFrom, ← List.range_eq_range']
  simp only [List.forall_mem_append] at hsealed hunmistakable
  constructor
  · intro h
    exact PartitionScan.ticks_of_scanBytes ⟨hfrom, hsealed.1, hunmistakable.1⟩
      ⟨hfrom', hsealed.2, hunmistakable.2⟩ h
  · intro h
    exact PartitionScan.scanBytes_of_ticks hfrom hfrom' h

/-! ## Scans with the same bytes -/

/-- Ticks at hand are scanned in numbered partitions. -/
lemma numbered_scanMemory (partitions : List (List (Tick Float))) (r : ScanRequest) :
    (scanMemory partitions r).map (·.partition) = List.range (scanMemory partitions r).length := by
  rw [scanMemory, List.map_map, List.length_map, List.length_zipIdx, List.range_eq_range',
    ← List.zipIdx_map_snd 0 partitions]
  rfl

/-- A request for everything. -/
def wholeRequest : ScanRequest := ⟨none, none, none⟩

/-- A tick of an instrument with a name of six letters. -/
def plainTick : Tick Float := ⟨"rb2405", 1704067200000000000, 100, 1, 99, 1, 101, 1⟩

/-- Where a partition ends is part of the bytes. -/
theorem scanBytes_inj_plainTick :
    scanBytes (scanMemory [[plainTick], [plainTick]] wholeRequest) ≠
      scanBytes (scanMemory [[plainTick, plainTick]] wholeRequest) := by
  have hplain : plainTick.Sealed ∧ 1 < (Node.bytesOf plainTick.instrument).length :=
    ⟨⟨by decide, by decide⟩, by decide +kernel⟩
  have hscans : ∀ s ∈ scanMemory [[plainTick], [plainTick]] wholeRequest ++
      scanMemory [[plainTick, plainTick]] wholeRequest,
      s.partition + 1 < 256 ^ 1 ∧ ∀ t ∈ s.ticks, t = plainTick := by decide +kernel
  have hinj := scanBytes_inj
    (numbered_scanMemory [[plainTick], [plainTick]] wholeRequest)
    (numbered_scanMemory [[plainTick, plainTick]] wholeRequest)
    (fun s hs t ht => (hscans s hs).2 t ht ▸ hplain.1)
    (fun s hs => PartitionScan.unmistakable_of_long (by decide) (hscans s hs).1
      fun t ht => (hscans s hs).2 t ht ▸ hplain)
  rw [Ne, hinj]
  decide +kernel

/-- A tick all of whose numbers are made of the byte of the letter A. -/
def letterTick (instrument : String) (time : Int) : Tick Float :=
  let x := Float.ofBits 0x4141414141414141
  ⟨instrument, time, x, x, x, x, x, x⟩

/-- Two partitions of which the first is empty, and one partition: the number of the second one
reads like a tick, and so the bytes are the same. -/
theorem scanBytes_ambiguous :
    let two := scanMemory
      [[], [letterTick "AAAAAAAAAAAAAAAAAAAAAAAAAAAAAAAAAAAAAAAAAAAAAAAAAAA" 4702039485951508481]]
      wholeRequest
    let one := scanMemory
      [[letterTick "\x01" 4702039485951508480, letterTick "A" 4702039485951508481]] wholeRequest
    scanBytes two = scanBytes one ∧ two.length = 2 ∧ one.length = 1 ∧
      ∀ s ∈ two ++ one, ∀ t ∈ s.ticks, Count.Fits t.time ∧ '\x00' ∉ t.instrument.toList := by
  decide +kernel

end MarketTape
