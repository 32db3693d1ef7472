import Mathlib.Algebra.Group.Nat.Hom
import Mathlib.Order.Nat
import Mathlib.Tactic.Common
import MarketTape.Json.Number

/-!
# Numbers that are read are finite

A double that is infinite has no number text: it is written as no value at all.  So what is read
from a text could only be written back if reading never gives an infinite double, and it never does.
The digits are at most a 64-bit number; a product that is infinite is refused; and a quotient by a
power of ten is no larger than the double that was divided.

A double is here a sign, a whole number and a power of two.  It overflows where the power of two is
above 971, so that bounds of that power are all that is followed through the rounding.

* `Capped` says that a double is a number whose power of two is within a bound;
  `capped_roundWithAccuracy` is the bound for whatever was rounded.
* `isFinite_mul`, `isFinite_div`, `isFinite_neg` and `isFinite_ofNat` are the operations of reading;
  `reaches_powerOfTen` is about the powers of ten that it multiplies and divides by.
* `Numeral.isFinite_of_value?` and `Numeral.range_of_value?` say what the text of a number gives.
-/

namespace MarketTape.Json

open Float.Model Float.Model.UnpackedFloat

/-! ## Rounding -/

/-- A number whose power of two is at most the given one. -/
def Capped (cap : Int) : UnpackedFloat → Prop
  | .zero _ => True
  | .finite _ _ exponent _ => exponent ≤ cap
  | .infinity _ | .notANumber => False

lemma mantissa_shiftRight (em : ExtendedMantissa) (k : Nat) :
    (em >>> k).mantissa = em.mantissa / 2 ^ k := by
  induction k with
  | zero => exact (Nat.div_one _).symm
  | succ k ih =>
    change (em >>> k).mantissa / 2 = _
    rw [ih, Nat.div_div_eq_div_mul, Nat.pow_succ]

lemma mantissa_ofMantissaAndAccuracy (m : Nat) (accuracy : Accuracy) :
    (ExtendedMantissa.ofMantissaAndAccuracy m accuracy).mantissa = m := by
  cases accuracy with
  | exact => rfl
  | inexact order => cases order <;> rfl

lemma roundedMantissa_le (em : ExtendedMantissa) : em.roundedMantissa ≤ em.mantissa + 1 := by
  obtain ⟨m, round, sticky⟩ := em
  cases round <;> cases sticky <;>
    simp only [ExtendedMantissa.roundedMantissa, ExtendedMantissa.accuracy,
      Accuracy.roundToNearestEven] <;> omega

lemma log2_le_of_lt {n place : Nat} (h : n < 2 ^ (place + 1)) : n.log2 ≤ place := by
  rcases Nat.eq_zero_or_pos n with rfl | hpos
  · exact Nat.zero_le place
  · exact Nat.le_of_lt_succ ((Nat.log2_lt hpos.ne').mpr h)

/-- Dropping bits and rounding up carries into at most one more place. -/
lemma log2_rounded_add_le {r m k : Nat} (h : r ≤ m / 2 ^ k + 1) :
    r.log2 + k ≤ max (m.log2 + 1) k := by
  have hm : m < 2 ^ (m.log2 + 1) := Nat.lt_log2_self
  rcases Nat.le_total k (m.log2 + 1) with hk | hk
  · have hquotient : m / 2 ^ k < 2 ^ (m.log2 + 1 - k) := by
      rw [Nat.div_lt_iff_lt_mul (Nat.two_pow_pos k), ← Nat.pow_add, Nat.sub_add_cancel hk]
      exact hm
    have hlog : r.log2 ≤ m.log2 + 1 - k := by
      have hgrows : 2 ^ (m.log2 + 1 - k) < 2 ^ (m.log2 + 1 - k + 1) :=
        Nat.pow_lt_pow_succ (by decide)
      exact log2_le_of_lt (by omega)
    omega
  · have hquotient : m / 2 ^ k = 0 :=
      Nat.div_eq_of_lt (hm.trans_le (Nat.pow_le_pow_right (by decide) hk))
    have hlog : r.log2 ≤ 0 := log2_le_of_lt (by omega)
    omega

/-- Rounding keeps a number below a bound if its first digit leaves room for the carry. -/
theorem capped_roundWithAccuracy {cap e : Int} {m : Nat} (sign : Sign) (accuracy : Accuracy)
    (hcap : -1074 ≤ cap) (he : e ≤ cap) (hm : m.log2 + e ≤ cap + 51) :
    Capped cap (roundWithAccuracy .binary64 sign m e accuracy) := by
  have htarget : ∀ n : Int, Format.binary64.targetExponent n = max (n - 53) (-1074) := fun n => rfl
  -- the first shift, by `k` places, and the number that is rounded there
  obtain ⟨em, e₁, hshift⟩ : ∃ em e₁, shiftToTargetExponent .binary64 m e accuracy = (em, e₁) :=
    ⟨_, _, rfl⟩
  obtain ⟨k, hk, he₁, hem⟩ : ∃ k : Nat, (k : Int) = max (max (m.log2 + 1 + e - 53) (-1074) - e) 0 ∧
      e₁ = e + k ∧ em.mantissa = m / 2 ^ k := by
    refine ⟨(Format.binary64.targetExponent (totalExponent m e) - e).toNat, ?_, ?_, ?_⟩
    · rw [htarget, totalExponent]
      omega
    · exact (congrArg Prod.snd hshift).symm
    · have hfirst := congrArg (fun p => p.1.mantissa) hshift
      dsimp only [shiftToTargetExponent, shiftToExponent] at hfirst
      rw [← hfirst, mantissa_shiftRight, mantissa_ofMantissaAndAccuracy]
  have hround : em.roundedMantissa.log2 + k ≤ max (m.log2 + 1) k :=
    log2_rounded_add_le (hem ▸ roundedMantissa_le em)
  -- the second shift, which a carry may need
  have hfinal : (shiftToTargetExponent .binary64 em.roundedMantissa e₁ .exact).2 ≤ cap := by
    change e₁ + ((Format.binary64.targetExponent _ - e₁).toNat : Int) ≤ cap
    rw [htarget, totalExponent]
    omega
  unfold roundWithAccuracy
  rw [hshift]
  dsimp only
  generalize shiftToTargetExponent .binary64 em.roundedMantissa e₁ .exact = final at hfinal ⊢
  by_cases hzero : final.1.mantissa = 0
  · rw [dif_pos hzero]
    exact trivial
  · rw [dif_neg hzero]
    exact hfinal

lemma roundWithAccuracy_cases (sign : Sign) (m : Nat) (e : Int) (accuracy : Accuracy) :
    roundWithAccuracy .binary64 sign m e accuracy = .zero sign ∨
    ∃ m' e' h, roundWithAccuracy .binary64 sign m e accuracy = .finite sign m' e' h := by
  unfold roundWithAccuracy
  generalize shiftToTargetExponent .binary64 m e accuracy = first
  dsimp only
  generalize shiftToTargetExponent .binary64 first.1.roundedMantissa first.2 .exact = final
  by_cases hzero : final.1.mantissa = 0
  · exact .inl (dif_pos hzero)
  · exact .inr ⟨final.1.mantissa, final.2, Nat.pos_of_ne_zero hzero, dif_neg hzero⟩

/-! ## Bits -/

/-- The bits of a double hold a number of at most 53 bits and a power of two of at most 971. -/
lemma lt_of_unpack {bits : BitVec Format.binary64.numBits} {sign : Sign} {m : Nat} {e : Int}
    {h : 0 < m} (hx : unpack .binary64 bits = .finite sign m e h) : m < 2 ^ 53 ∧ e ≤ 971 := by
  have hexponent : (unpackExponent bits).toNat < 2048 := BitVec.isLt _
  have hmantissa : (unpackMantissa bits).toNat < 2 ^ 52 := BitVec.isLt _
  have hbias : ((Format.binary64.exponentBias : Nat) : Int) = 1023 := rfl
  have hwidth : Format.binary64.mantissaBitsWithoutImplicit = 52 := rfl
  unfold UnpackedFloat.unpack at hx
  dsimp only at hx
  by_cases hfull : unpackExponent bits = -1#_
  · rw [if_pos hfull] at hx
    by_cases hzero : unpackMantissa bits = 0#_
    · rw [if_pos hzero] at hx
      cases hx
    · rw [if_neg hzero] at hx
      cases hx
  · rw [if_neg hfull] at hx
    have hne : (unpackExponent bits).toNat ≠ 2047 := fun h2047 =>
      hfull (BitVec.eq_of_toNat_eq h2047)
    by_cases hleast : unpackExponent bits = 0#_
    · have h0 : (unpackExponent bits).toNat = 0 := congrArg BitVec.toNat hleast
      rw [if_pos hleast] at hx
      by_cases hzero : unpackMantissa bits = 0#_
      · rw [dif_pos hzero] at hx
        cases hx
      · rw [dif_neg hzero] at hx
        cases hx
        rw [hbias]
        exact ⟨by omega, by omega⟩
    · rw [if_neg hleast] at hx
      cases hx
      rw [hbias]
      exact ⟨BitVec.isLt _, by omega⟩

/-- A power of two that fits is put into the bits and found there, or raised to the least one. -/
lemma capped_unpack_packComponents {cap : Int} {exponent : BitVec Format.binary64.exponentBits}
    (sign : Sign) (mantissa : BitVec Format.binary64.mantissaBitsWithoutImplicit)
    (hcap : -1074 ≤ cap) (hle : (exponent.toNat : Int) ≤ cap + 1075) (hne : exponent.toNat ≠ 2047) :
    Capped cap
      (UnpackedFloat.unpack .binary64 (packComponents .binary64 sign exponent mantissa)) := by
  have hbias : ((Format.binary64.exponentBias : Nat) : Int) = 1023 := rfl
  have hwidth : Format.binary64.mantissaBitsWithoutImplicit = 52 := rfl
  have hexponent := @unpackExponent_packComponents .binary64 sign exponent mantissa
  generalize packComponents .binary64 sign exponent mantissa = bits at hexponent ⊢
  obtain rfl := hexponent
  have hfull : ¬ unpackExponent bits = -1#_ := fun hfull => hne (congrArg BitVec.toNat hfull)
  unfold UnpackedFloat.unpack
  dsimp only
  rw [if_neg hfull]
  by_cases hleast : unpackExponent bits = 0#_
  · have h0 : (unpackExponent bits).toNat = 0 := congrArg BitVec.toNat hleast
    rw [if_pos hleast]
    by_cases hzero : unpackMantissa bits = 0#_
    · rw [dif_pos hzero]
      exact trivial
    · rw [dif_neg hzero]
      change _ ≤ _
      rw [hbias]
      omega
  · rw [if_neg hleast]
    change _ ≤ _
    rw [hbias]
    omega

/-- What does not overflow is a number again after it was put into bits. -/
theorem capped_unpack_pack {cap : Int} {u : UnpackedFloat} (hcap : -1074 ≤ cap) (hcap' : cap ≤ 971)
    (h : Capped cap u) : Capped cap (Float.Model.pack u).unpack := by
  change Capped cap (UnpackedFloat.unpack .binary64 (UnpackedFloat.pack .binary64 u))
  have hzero (sign : Sign) (mantissa : BitVec Format.binary64.mantissaBitsWithoutImplicit) :
      Capped cap (UnpackedFloat.unpack .binary64 (packComponents .binary64 sign 0#_ mantissa)) :=
    capped_unpack_packComponents sign mantissa hcap
      (by simp only [BitVec.toNat_ofNat, Nat.zero_mod]; omega) (by simp)
  cases u with
  | infinity sign => exact h.elim
  | notANumber => exact h.elim
  | zero sign => exact hzero sign _
  | finite sign m e hm =>
    have hbias : ((Format.binary64.exponentBias : Nat) : Int) = 1023 := rfl
    have he : e ≤ cap := h
    unfold UnpackedFloat.pack
    dsimp only
    rw [hbias]
    split
    · next hfull =>
      change 2048 ≤ _ at hfull
      omega
    · split
      · have hbits : (BitVec.ofNat 11 (e + 1023 + 52).toNat).toNat = (e + 1023 + 52).toNat :=
          Nat.mod_eq_of_lt (by change _ < 2048; omega)
        refine capped_unpack_packComponents sign _ hcap ?_ ?_
        · change ((BitVec.ofNat 11 (e + 1023 + 52).toNat).toNat : Int) ≤ cap + 1075
          rw [hbits]
          omega
        · change (BitVec.ofNat 11 (e + 1023 + 52).toNat).toNat ≠ 2047
          rw [hbits]
          omega
      · exact hzero sign _

/-- What overflows is infinite once it was put into bits. -/
lemma unpack_pack_of_lt (sign : Sign) {m : Nat} {e : Int} (h : 0 < m) (he : 971 < e) :
    ∃ sign', (Float.Model.pack (.finite sign m e h)).unpack = .infinity sign' := by
  have hbias : ((Format.binary64.exponentBias : Nat) : Int) = 1023 := rfl
  have hfull : 2 ^ Format.binary64.exponentBits ≤ (e + Format.binary64.exponentBias +
      Format.binary64.mantissaBitsWithoutImplicit).toNat + 1 := by
    rw [hbias]
    change 2048 ≤ (e + 1023 + 52).toNat + 1
    omega
  change ∃ sign', UnpackedFloat.unpack .binary64 (UnpackedFloat.pack .binary64 _) = _
  unfold UnpackedFloat.pack
  dsimp only
  rw [if_pos hfull, packedInfinity]
  unfold UnpackedFloat.unpack
  dsimp only
  rw [if_pos unpackExponent_packComponents]
  exact ⟨_, if_pos unpackMantissa_packComponents⟩

/-! ## Doubles -/

lemma isFinite_of_capped {cap : Int} {x : Float} (h : Capped cap x.toModel.unpack) :
    x.isFinite = true := by
  change x.toModel.unpack.isFinite = true
  cases hx : x.toModel.unpack with
  | zero sign => rfl
  | finite sign m e hm => rfl
  | infinity sign =>
    rw [hx] at h
    exact h.elim
  | notANumber =>
    rw [hx] at h
    exact h.elim

/-- A finite double is zero, or a number of at most 53 bits and a power of two within range. -/
lemma unpack_of_isFinite {x : Float} (h : x.isFinite = true) :
    (∃ sign, x.toModel.unpack = .zero sign) ∨
    ∃ sign m e hm, x.toModel.unpack = .finite sign m e hm ∧ m < 2 ^ 53 ∧ e ≤ 971 := by
  change x.toModel.unpack.isFinite = true at h
  cases hx : x.toModel.unpack with
  | zero sign => exact .inl ⟨sign, rfl⟩
  | finite sign m e hm => exact .inr ⟨sign, m, e, hm, rfl, lt_of_unpack hx⟩
  | infinity sign =>
    rw [hx] at h
    cases h
  | notANumber =>
    rw [hx] at h
    cases h

theorem isFinite_neg {x : Float} (h : x.isFinite = true) : (-x).isFinite = true := by
  refine isFinite_of_capped (x := -x) (@capped_unpack_pack 971 x.toModel.unpack.neg
    (by decide) (by decide) ?_)
  rcases unpack_of_isFinite h with ⟨sign, hx⟩ | ⟨sign, m, e, hm, hx, -, he⟩
  · rw [hx]
    exact trivial
  · rw [hx]
    exact he

/-- A product of finite doubles is finite unless it is infinite: it is never missing. -/
theorem isFinite_mul {x y : Float} (hx : x.isFinite = true) (hy : y.isFinite = true)
    (h : (x * y).isInf = false) : (x * y).isFinite = true := by
  change (Float.Model.pack
    (UnpackedFloat.mul .binary64 x.toModel.unpack y.toModel.unpack)).unpack.isInf = false at h
  refine isFinite_of_capped (x := x * y) (@capped_unpack_pack 971
    (UnpackedFloat.mul .binary64 x.toModel.unpack y.toModel.unpack) (by decide) (by decide) ?_)
  rcases unpack_of_isFinite hx with ⟨sign, hx⟩ | ⟨sign, m, e, hm, hx, -, -⟩ <;>
    rcases unpack_of_isFinite hy with ⟨sign', hy⟩ | ⟨sign', m', e', hm', hy, -, -⟩ <;>
    rw [hx, hy] at h ⊢
  · exact trivial
  · exact trivial
  · exact trivial
  · unfold UnpackedFloat.mul at h ⊢
    dsimp only at h ⊢
    rcases roundWithAccuracy_cases (sign * sign') (m * m') (e + e') .exact with
      hround | ⟨m'', e'', hm'', hround⟩
    · rw [hround]
      exact trivial
    · rw [hround] at h ⊢
      by_contra he
      obtain ⟨s', hinf⟩ := unpack_pack_of_lt (sign * sign') hm'' (Int.not_le.mp he)
      rw [hinf] at h
      cases h

/-- Whether a double is finite and its first digit at least at a place. -/
def reaches (place : Int) : UnpackedFloat → Bool
  | .finite _ m e _ => place ≤ m.log2 + e
  | _ => false

lemma exists_of_reaches {place : Int} {u : UnpackedFloat} (h : reaches place u = true) :
    ∃ sign m e hm, u = .finite sign m e hm ∧ place ≤ m.log2 + e := by
  cases u with
  | finite sign m e hm => exact ⟨sign, m, e, hm, rfl, of_decide_eq_true h⟩
  | zero sign => cases h
  | infinity sign => cases h
  | notANumber => cases h

lemma isFinite_of_reaches {place : Int} {x : Float} (h : reaches place x.toModel.unpack = true) :
    x.isFinite = true := by
  obtain ⟨sign, m, e, hm, hx, -⟩ := exists_of_reaches h
  change x.toModel.unpack.isFinite = true
  rw [hx]
  rfl

lemma log2_quotient_le (m shift : Nat) {m' : Nat} (hm' : 0 < m') :
    ((m <<< shift / m').log2 : Int) ≤ max (m.log2 + shift - m'.log2) 0 := by
  have hquotient : m <<< shift / m' < 2 ^ (m.log2 + shift - m'.log2 + 1) := by
    rw [Nat.div_lt_iff_lt_mul hm', Nat.shiftLeft_eq]
    calc m * 2 ^ shift < 2 ^ (m.log2 + 1) * 2 ^ shift :=
          Nat.mul_lt_mul_of_pos_right Nat.lt_log2_self (Nat.two_pow_pos shift)
      _ = 2 ^ (m.log2 + 1 + shift) := (Nat.pow_add ..).symm
      _ ≤ 2 ^ (m.log2 + shift - m'.log2 + 1 + m'.log2) :=
          Nat.pow_le_pow_right (by decide) (by omega)
      _ = 2 ^ (m.log2 + shift - m'.log2 + 1) * 2 ^ m'.log2 := Nat.pow_add ..
      _ ≤ 2 ^ (m.log2 + shift - m'.log2 + 1) * m' :=
          Nat.mul_le_mul_left _ (Nat.log2_self_le hm'.ne')
  have hlog := log2_le_of_lt hquotient
  omega

/-- A finite double divided by one that is at least two is finite. -/
theorem isFinite_div {x y : Float} (hx : x.isFinite = true)
    (hy : reaches 1 y.toModel.unpack = true) : (x / y).isFinite = true := by
  refine isFinite_of_capped (x := x / y) (@capped_unpack_pack 971
    (UnpackedFloat.div .binary64 x.toModel.unpack y.toModel.unpack) (by decide) (by decide) ?_)
  obtain ⟨sign', m', e', hm', hy', hreach⟩ := exists_of_reaches hy
  rw [hy']
  rcases unpack_of_isFinite hx with ⟨sign, hx⟩ | ⟨sign, m, e, hm, hx, hbits, he⟩
  · rw [hx]
    exact trivial
  · rw [hx]
    have hlog : m.log2 ≤ 52 := log2_le_of_lt hbits
    have htarget : Format.binary64.targetExponent (totalExponent m e - totalExponent m' e') =
        max (m.log2 + e - (m'.log2 + e') - 53) (-1074) := by
      simp only [totalExponent]
      change max _ _ = _
      congr 1
      change _ - (53 : Int) = _
      omega
    unfold UnpackedFloat.div divCore
    dsimp only
    rw [htarget]
    refine capped_roundWithAccuracy _ _ (by decide) (by omega) ?_
    have hquotient := log2_quotient_le m (e - e' - min (e - e')
      (max (m.log2 + e - (m'.log2 + e') - 53) (-1074))).toNat hm'
    omega

lemma log2_shiftLeft_le (n shift : Nat) : (n <<< shift).log2 ≤ n.log2 + shift := by
  have h := log2_quotient_le n shift Nat.one_pos
  rw [Nat.div_one] at h
  have hone : Nat.log2 1 = 0 := rfl
  omega

lemma log2_le_of_le_greatestWord {n : Nat} (hn : n ≤ greatestWord) : n.log2 ≤ 63 :=
  log2_le_of_lt (hn.trans_lt (by decide))

/-- A word is rounded far below the end of the range. -/
lemma capped_ofNat {n : Nat} (hn : n ≤ greatestWord) :
    Capped 970 (UnpackedFloat.ofNat .binary64 n) := by
  have hlog := log2_le_of_le_greatestWord hn
  unfold UnpackedFloat.ofNat UnpackedFloat.ofInt UnpackedFloat.normalize
  split
  · next hlt => simp only [Int.compare_eq_lt] at hlt; omega
  · exact trivial
  · simp only [UnpackedFloat.round, decreaseExponent, Int.toNat_natCast]
    have hshift := log2_shiftLeft_le n
      (0 - Format.binary64.targetExponent (totalExponent n 0)).toNat
    exact capped_roundWithAccuracy _ _ (by decide) (by omega) (by omega)

lemma isFinite_mul_one {x : Float} (hcapped : Capped 970 x.toModel.unpack) :
    (x * Float.ofBits 0x3FF0000000000000).isFinite = true := by
  have hone : (Float.ofBits 0x3FF0000000000000).toModel.unpack =
      .finite .positive (2 ^ 52) (-52) (by decide) := rfl
  refine isFinite_of_capped (x := x * _) (@capped_unpack_pack 971
    (UnpackedFloat.mul .binary64 x.toModel.unpack _) (by decide) (by decide) ?_)
  rw [hone]
  rcases unpack_of_isFinite (isFinite_of_capped hcapped) with
    ⟨sign, hx⟩ | ⟨sign, m, e, hm, hx, hbits, -⟩
  · rw [hx]
    exact trivial
  · rw [hx] at hcapped ⊢
    have he : e ≤ 970 := hcapped
    have hlog : m.log2 ≤ 52 := log2_le_of_lt hbits
    have hshift := log2_shiftLeft_le m 52
    rw [Nat.shiftLeft_eq] at hshift
    exact capped_roundWithAccuracy _ _ (by decide) (by omega) (by omega)

lemma capped_ofScientific {n : Nat} (hn : n ≤ greatestWord) :
    Capped 971 (UnpackedFloat.ofScientific .binary64 n 0) := by
  have hlog := log2_le_of_le_greatestWord hn
  have hlimit : (2 : Int) ^ Format.binary64.exponentBits = 2048 := rfl
  have hwidth : Format.binary64.mantissaBits = 53 := rfl
  have hshift := log2_shiftLeft_le n 53
  unfold UnpackedFloat.ofScientific
  by_cases hzero : n = 0
  · rw [dif_pos hzero]
    exact trivial
  · rw [dif_neg hzero, if_neg (by decide), if_neg (by rw [hlimit]; omega), if_pos (by decide)]
    unfold UnpackedFloat.mul
    dsimp only
    rw [hwidth, Int.toNat_zero, Nat.pow_zero, Nat.mul_one]
    generalize n <<< 53 = m at hshift ⊢
    exact capped_roundWithAccuracy _ _ (by decide) (by decide) (by omega)

/-- A word is a finite double.  One that is exactly a double is multiplied by one, and any other
one is rounded. -/
theorem isFinite_ofNat {n : Nat} (hn : n ≤ greatestWord) : (Float.ofNat n).isFinite = true := by
  change (Float.ofScientific n false 0).isFinite = true
  unfold Float.ofScientific
  split
  · have hword : n.toUInt64.toNat ≤ greatestWord := Nat.le_of_lt_succ n.toUInt64.toBitVec.isLt
    exact isFinite_mul_one (capped_unpack_pack (by decide) (by decide) (capped_ofNat hword))
  · exact isFinite_of_capped (x := .ofModel _)
      (capped_unpack_pack (by decide) (by decide) (capped_ofScientific hn))

lemma isFinite_ofInt {n : Int} (hleast : -9223372036854775808 ≤ n) (hgreatest : n ≤ greatestWord) :
    (Float.ofInt n).isFinite = true := by
  cases n with
  | ofNat n => exact isFinite_ofNat (Int.ofNat_le.mp hgreatest)
  | negSucc n => exact isFinite_neg (isFinite_ofNat (by unfold greatestWord; omega))

/-! ## Number text -/

lemma reaches_powerOfTen : ∀ n : Nat, n ≤ 308 →
    reaches (min n 1 : Nat) (powerOfTen n).toModel.unpack = true := by
  decide +kernel

lemma isFinite_powerOfTen {n : Nat} (hn : n ≤ 308) : (powerOfTen n).isFinite = true :=
  isFinite_of_reaches (reaches_powerOfTen n hn)

lemma isFinite_div_powerOfTen {x : Float} {n : Nat} (hx : x.isFinite = true) (hpos : 1 ≤ n)
    (hn : n ≤ 308) : (x / powerOfTen n).isFinite = true := by
  have hreaches := reaches_powerOfTen n hn
  rw [Nat.min_eq_right hpos] at hreaches
  exact isFinite_div hx hreaches

lemma isFinite_rescale? {x y : Float} {exponent : Int} (hx : x.isFinite = true)
    (h : rescale? x exponent = some y) : y.isFinite = true := by
  induction x, exponent using rescale?.induct with
  | case1 x exponent hpower hnonneg z hinf =>
    rw [rescale?, if_pos hpower, if_pos hnonneg] at h
    dsimp only at h
    rw [if_pos hinf] at h
    cases h
  | case2 x exponent hpower hnonneg z hinf =>
    rw [rescale?, if_pos hpower, if_pos hnonneg] at h
    dsimp only at h
    rw [if_neg hinf] at h
    obtain rfl := Option.some.inj h
    exact isFinite_mul hx (isFinite_powerOfTen hpower) (Bool.eq_false_iff.mpr hinf)
  | case3 x exponent hpower hneg =>
    rw [rescale?, if_pos hpower, if_neg hneg] at h
    obtain rfl := Option.some.inj h
    exact isFinite_div_powerOfTen hx (by omega) hpower
  | case4 x exponent hpower hzero =>
    rw [rescale?, if_neg hpower, if_pos hzero] at h
    obtain rfl := Option.some.inj h
    exact hx
  | case5 x exponent hpower hzero hnonneg =>
    rw [rescale?, if_neg hpower, if_neg hzero, if_pos hnonneg] at h
    cases h
  | case6 x exponent hpower hzero hneg ih =>
    rw [rescale?, if_neg hpower, if_neg hzero, if_neg hneg] at h
    exact ih (isFinite_div_powerOfTen hx (by decide) (by decide)) h

lemma absorb_le {start : Nat} (hstart : start ≤ greatestWord) (cs : List Char) :
    (absorb start cs).1 ≤ greatestWord := by
  induction cs generalizing start with
  | nil => exact hstart
  | cons c cs ih =>
    rw [absorb]
    dsimp only
    split
    · exact hstart
    · next hnext => exact ih (Nat.not_lt.mp hnext)

namespace Numeral

lemma isFinite_magnitude? {numeral : Numeral} {significand : Nat} {place : Int} {x : Float}
    (hword : significand ≤ greatestWord) (h : numeral.magnitude? significand place = some x) :
    x.isFinite = true := by
  unfold magnitude? at h
  split at h
  · exact isFinite_rescale? (isFinite_ofNat hword) h
  · dsimp only at h
    split at h
    · split at h
      · cases h
      · obtain rfl := Option.some.inj h
        decide +kernel
    · exact isFinite_rescale? (isFinite_ofNat hword) h

/-- The whole numbers that are read are those of 64 bits, with or without sign. -/
theorem range_of_value? {numeral : Numeral} {n : Int} (h : numeral.value? = some (.int n)) :
    -9223372036854775808 ≤ n ∧ n ≤ greatestWord := by
  have hword := absorb_le (Nat.zero_le _) numeral.whole
  unfold value? at h
  dsimp only at h
  split at h
  · split at h
    · cases h
      omega
    · split at h
      · cases h
      · cases h
        omega
  · obtain ⟨x, -, hx⟩ := Option.map_eq_some_iff.mp h
    cases hx

/-- The doubles that are read are finite. -/
theorem isFinite_of_value? {numeral : Numeral} {x : Float} (h : numeral.value? = some (.float x)) :
    x.isFinite = true := by
  have hword := absorb_le (Nat.zero_le _) numeral.whole
  unfold value? at h
  dsimp only at h
  split at h
  · split at h
    · cases h
    · split at h
      · cases h
        exact isFinite_neg (isFinite_ofNat hword)
      · cases h
  · obtain ⟨y, hy, hx⟩ := Option.map_eq_some_iff.mp h
    cases hx
    have hfinite := isFinite_magnitude? (absorb_le hword _) hy
    split
    · exact isFinite_neg hfinite
    · exact hfinite

end Numeral

end MarketTape.Json
