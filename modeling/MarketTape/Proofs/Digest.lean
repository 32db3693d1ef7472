import Mathlib.Algebra.Group.Nat.Hom
import Mathlib.Tactic.Common
import MarketTape.Signature

/-!
# What a digest tells apart

Mixing a byte into a digest loses nothing: the exclusive or can be undone, and so can the
multiplication, since its factor is odd.  So states that differ still differ after any bytes that
follow, and one byte that is another one always shows in the digest and in its text.

A file is read piece by piece, and what the pieces are is up to the system.  The digest does not
depend on it.

* `Digest.absorb_left_inj` and `Digest.absorb_right_inj` say that a step is one to one in the state
  and in the byte, and `Digest.extend_inj` is the induction over the bytes that follow.
* `Digest.of_ne_of_changed` is about one byte that is another one.
* `Digest.readThrough` digests a file through a buffer, and `Digest.readThrough_eq` says what comes
  of that.
* `Digest.hexText_inj` and `Digest.mem_hexText` are about the text of a digest.
* `changed_byte_shows` is the result.
-/

namespace MarketTape.Digest

/-! ## Mixing bytes in -/

variable {state other : UInt64} {byte changed : UInt8}

/-- The number that undoes the multiplication. -/
def inversePrime : UInt64 := 0xce965057aff6957b

lemma prime_mul_inverse : prime * inversePrime = 1 := by decide

lemma mul_prime_inj {x y : UInt64} (h : x * prime = y * prime) : x = y := by
  calc x = x * prime * inversePrime := by rw [UInt64.mul_assoc, prime_mul_inverse, UInt64.mul_one]
    _ = y * prime * inversePrime := by rw [h]
    _ = y := by rw [UInt64.mul_assoc, prime_mul_inverse, UInt64.mul_one]

/-- States that differ still differ after the same byte. -/
lemma absorb_left_inj : absorb state byte = absorb other byte ↔ state = other := by
  constructor
  · intro h
    exact (UInt64.xor_left_inj byte.toUInt64).mp (mul_prime_inj h)
  · rintro rfl
    rfl

/-- Bytes that differ lead from the same state to states that differ. -/
lemma absorb_right_inj : absorb state byte = absorb state changed ↔ byte = changed := by
  constructor
  · intro h
    exact UInt8.toUInt64_inj.mp ((UInt64.xor_right_inj state).mp (mul_prime_inj h))
  · rintro rfl
    rfl

/-- States that differ still differ after the same bytes. -/
theorem extend_inj (bytes : List UInt8) :
    extend state bytes = extend other bytes ↔ state = other := by
  induction bytes generalizing state other with
  | nil => exact Iff.rfl
  | cons byte bytes ih => exact ih.trans absorb_left_inj

/-- One byte that is another one shows, whatever stands before it and behind it. -/
lemma of_ne_of_changed (front back : List UInt8) (h : byte ≠ changed) :
    of (front ++ byte :: back) ≠ of (front ++ changed :: back) := by
  intro heq
  rw [of, of, extend_append, extend_append] at heq
  exact h (absorb_right_inj.mp ((extend_inj back).mp heq))

/-- Sequences of bytes that differ in one place are the same before that place and behind it. -/
lemma exists_changed {a b : List UInt8} (hlength : a.length = b.length)
    (hone : ∃! i : Nat, a[i]? ≠ b[i]?) : ∃ front byte changed back,
      byte ≠ changed ∧ a = front ++ byte :: back ∧ b = front ++ changed :: back := by
  obtain ⟨i, hi, hothers⟩ := hone
  have hsame : ∀ j, j ≠ i → a[j]? = b[j]? := by
    intro j hj
    by_contra hne
    exact hj (hothers j hne)
  have hia : i < a.length := by
    by_contra hout
    rw [List.getElem?_eq_none (by omega), List.getElem?_eq_none (by omega)] at hi
    exact hi rfl
  have hib : i < b.length := hlength ▸ hia
  have hfront : a.take i = b.take i := by
    refine List.ext_getElem? fun j => ?_
    rw [List.getElem?_take, List.getElem?_take]
    split
    · exact hsame j (by omega)
    · rfl
  have hback : a.drop (i + 1) = b.drop (i + 1) := by
    refine List.ext_getElem? fun j => ?_
    rw [List.getElem?_drop, List.getElem?_drop]
    exact hsame _ (by omega)
  refine ⟨a.take i, a[i], b[i], a.drop (i + 1), ?_, ?_, ?_⟩
  · intro heq
    rw [List.getElem?_eq_getElem hia, List.getElem?_eq_getElem hib, heq] at hi
    exact hi rfl
  · rw [List.getElem_cons_drop, List.take_append_drop]
  · rw [hfront, hback, List.getElem_cons_drop, List.take_append_drop]

/-! ## Reading piece by piece -/

/-- However a sequence of bytes is cut, absorbing the pieces is absorbing the whole. -/
lemma foldl_extend (pieces : List (List UInt8)) :
    pieces.foldl extend state = extend state pieces.flatten := by
  induction pieces generalizing state with
  | nil => rfl
  | cons piece pieces ih => rw [List.foldl_cons, ih, List.flatten_cons, extend_append]

/-- The number of bytes that are read from a file at a time, at most. -/
def bufferSize : Nat := 65536

/-- Absorbs a file read by read, until a read brings nothing.  Every read brings the next bytes of
the file, as many as the system pleases, but no more than fit into the buffer. -/
def readThrough (sizes : Nat → Nat) (state : UInt64) (content : List UInt8) : UInt64 :=
  let size := min (sizes 0) bufferSize
  let piece := content.take size
  if piece = [] then state
  else readThrough (fun k => sizes (k + 1)) (extend state piece) (content.drop size)
termination_by content.length
decreasing_by
  rename_i hpiece
  rw [List.take_eq_nil_iff, not_or] at hpiece
  have hcontent := List.length_pos_iff.mpr hpiece.2
  rw [List.length_drop]
  omega

/-- Reading comes to the end of the file, and nothing is left out. -/
theorem readThrough_eq {sizes : Nat → Nat} (hsizes : ∀ k, 0 < sizes k) (content : List UInt8) :
    readThrough sizes state content = extend state content := by
  fun_induction readThrough sizes state content with
  | case1 sizes state content size piece hpiece =>
    have hsize : 0 < size := Nat.lt_min.mpr ⟨hsizes 0, by decide⟩
    obtain hzero | rfl := List.take_eq_nil_iff.mp hpiece
    · omega
    · rfl
  | case2 sizes state content size piece hpiece ih =>
    rw [ih fun k => hsizes (k + 1), ← extend_append, List.take_append_drop]

/-! ## The text of a digest -/

lemma hexDigit_inj : ∀ n < 16, ∀ m < 16, hexDigit n = hexDigit m → n = m := by decide

lemma mem_hexDigits : ∀ n < 16, hexDigit n ∈ "0123456789abcdef".toList := by decide

lemma length_hexText (width n : Nat) : (hexText width n).length = width := by
  induction width generalizing n with
  | zero => rfl
  | succ width ih => rw [hexText, List.length_append, ih, List.length_singleton]

lemma mem_hexText {c : Char} : ∀ {width n : Nat}, c ∈ hexText width n →
    c ∈ "0123456789abcdef".toList
  | width + 1, n, h => by
    rw [hexText, List.mem_append, List.mem_singleton] at h
    rcases h with h | rfl
    · exact mem_hexText h
    · exact mem_hexDigits _ (Nat.mod_lt _ (by decide))

lemma hexText_inj : ∀ {width n m : Nat}, n < 16 ^ width → m < 16 ^ width →
    hexText width n = hexText width m → n = m
  | 0, n, m, hn, hm, _ => by
    rw [Nat.pow_zero, Nat.lt_one_iff] at hn hm
    rw [hn, hm]
  | width + 1, n, m, hn, hm, h => by
    rw [hexText, hexText] at h
    obtain ⟨hhigh, hlow⟩ := List.append_inj h (by rw [length_hexText, length_hexText])
    rw [Nat.pow_succ] at hn hm
    have hhigh' : n / 16 = m / 16 :=
      hexText_inj (Nat.div_lt_of_lt_mul (by omega)) (Nat.div_lt_of_lt_mul (by omega)) hhigh
    have hlow' : n % 16 = m % 16 :=
      hexDigit_inj _ (Nat.mod_lt _ (by decide)) _ (Nat.mod_lt _ (by decide)) (List.cons.inj hlow).1
    omega

lemma hex_injective : Function.Injective hex := by
  intro digest other h
  have htext : hexText 16 digest.toNat = hexText 16 other.toNat := by
    rw [← String.ofList_inj]
    exact h
  exact UInt64.toNat_inj.mp (hexText_inj digest.toNat_lt other.toNat_lt htext)

/-- **A byte that is another one shows.**  Two sequences of bytes that are of one length and differ
in exactly one place have digests that differ, and so do the texts of these.  Bytes that follow
neither make digests differ nor make them the same.  However bytes are cut up when they are mixed
in, the digest is that of the whole; so the digest of a file is that of its bytes, whatever the
sizes of the reads are, as long as each brings something until all is read.  The text of a digest
has sixteen digits, in lower case, and belongs to no other digest. -/
theorem changed_byte_shows :
    (∀ a b : List UInt8, a.length = b.length → (∃! i : Nat, a[i]? ≠ b[i]?) →
        of a ≠ of b ∧ hex (of a) ≠ hex (of b)) ∧
      (∀ a b suffix : List UInt8, of (a ++ suffix) = of (b ++ suffix) ↔ of a = of b) ∧
      (∀ (state : UInt64) (pieces : List (List UInt8)),
        pieces.foldl extend state = extend state pieces.flatten) ∧
      (∀ files path content sizes, files.read path = .bytes content → (∀ k, 0 < sizes k) →
        fileDigest files path = .ok (readThrough sizes basis content) ∧
          readThrough sizes basis content = of content) ∧
      Function.Injective hex ∧
      ∀ digest, (hex digest).length = 16 ∧
        ∀ c ∈ (hex digest).toList, c ∈ "0123456789abcdef".toList := by
  refine ⟨fun a b hlength hone => ?_, fun a b suffix => ?_, fun state pieces => foldl_extend pieces,
    fun files path content sizes hread hsizes => ⟨?_, readThrough_eq hsizes content⟩,
    hex_injective, fun digest => ⟨?_, fun c hc => ?_⟩⟩
  · obtain ⟨front, byte, changed, back, hne, rfl, rfl⟩ := exists_changed hlength hone
    have hdigest := of_ne_of_changed front back hne
    exact ⟨hdigest, fun hhex => hdigest (hex_injective hhex)⟩
  · rw [of, of, extend_append, extend_append]
    exact extend_inj suffix
  · rw [fileDigest, hread, readThrough_eq hsizes]
    rfl
  · rw [hex, String.length_ofList, length_hexText]
  · rw [hex, String.toList_ofList] at hc
    exact mem_hexText hc

/-- Six letters, and the same with another last one. -/
def sixLetters : List UInt8 × List UInt8 :=
  ([102, 111, 111, 98, 97, 114], [102, 111, 111, 98, 97, 122])

/-- The digests of the letters differ, and a file of them that is read by fours has their digest. -/
theorem changed_byte_shows_sixLetters :
    sixLetters.1.length = sixLetters.2.length ∧
      of sixLetters.1 = 0x85944171f73967e8 ∧ of sixLetters.1 ≠ of sixLetters.2 ∧
      hex (of sixLetters.1) ≠ hex (of sixLetters.2) ∧
      readThrough (fun _ => 4) basis sixLetters.1 = of sixLetters.1 := by
  have hone : ∃! i : Nat, sixLetters.1[i]? ≠ sixLetters.2[i]? := by
    have hsame : ∀ j < 6, j ≠ 5 → sixLetters.1[j]? = sixLetters.2[j]? := by decide
    refine ⟨5, by decide, fun j (hj : sixLetters.1[j]? ≠ sixLetters.2[j]?) => ?_⟩
    by_contra hne
    rcases Nat.lt_or_ge j 6 with hin | hout
    · exact hj (hsame j hin hne)
    · exact hj ((List.getElem?_eq_none hout).trans (List.getElem?_eq_none hout).symm)
  obtain ⟨hchanged, -, -, hread, -⟩ := changed_byte_shows
  obtain ⟨hof, hhex⟩ := hchanged sixLetters.1 sixLetters.2 rfl hone
  obtain ⟨-, hthrough⟩ := hread ⟨.dir [("t.csv", .file sixLetters.1 1)], []⟩ "t.csv" sixLetters.1
    (fun _ => 4) rfl (fun _ => by decide)
  exact ⟨rfl, by decide +kernel, hof, hhex, hthrough⟩

end MarketTape.Digest
