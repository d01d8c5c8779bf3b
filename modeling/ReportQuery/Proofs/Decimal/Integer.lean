import Mathlib
import ReportQuery.Expr.Value
import ReportQuery.Proofs.Decimal.Digits
/-!
# Integers as doubles

An integer of at most 53 bits is itself a double. Its magnitude is shifted to a mantissa of 53 bits,
which is not rounded (`round_of_lt`), and the word of such a double is taken apart into the sign,
the mantissa and the exponent that it was made of (`unpack_of_full`). So the text of the double is
the text of the integer (`numberText_ofInt64`).
-/

namespace ReportQuery.Decimal

open Float.Model
open Text (natDigits intDigits)

variable {m n : Nat} {e : Int} {s : UnpackedFloat.Sign} {negative : Bool} {i : Int64}

/-! ## Mantissas of 53 bits -/

/-- A mantissa of 53 bits. -/
def IsFull (m : Nat) : Prop := leastNormal ≤ m ∧ m < 2 * leastNormal

theorem IsFull.pos (h : IsFull m) : 0 < m := Nat.lt_of_lt_of_le (by decide) h.1

theorem IsFull.log2 (h : IsFull m) : m.log2 = 52 := (Nat.log2_eq_iff h.pos.ne').2 h

theorem targetExponent_eq (total : Int) :
    Format.binary64.targetExponent total = max (total - 53) (-1074) := rfl

/-- A full mantissa is not rounded. -/
theorem roundWithAccuracy_of_full (h : IsFull m) (he : -1074 ≤ e) :
    UnpackedFloat.roundWithAccuracy Format.binary64 s m e .exact = .finite s m e h.pos := by
  have htarget : Format.binary64.targetExponent (totalExponent m e) = e := by
    rw [targetExponent_eq, totalExponent, h.log2]
    omega
  have hshift (em : UnpackedFloat.ExtendedMantissa) : em >>> (0 : Nat) = em := rfl
  simp [UnpackedFloat.roundWithAccuracy, UnpackedFloat.shiftToTargetExponent, htarget,
    UnpackedFloat.shiftToExponent, hshift, UnpackedFloat.ExtendedMantissa.ofMantissaAndAccuracy,
    UnpackedFloat.ExtendedMantissa.roundedMantissa, UnpackedFloat.ExtendedMantissa.accuracy,
    UnpackedFloat.Accuracy.roundToNearestEven, h.pos.ne']

/-- The places by which a number of at most 53 bits is shifted to a full mantissa. -/
def places (n : Nat) : Nat := 52 - n.log2

theorem isFull_shift (hpos : 0 < n) (hn : n < 2 * leastNormal) : IsFull (n * 2 ^ places n) := by
  have hlog : n.log2 < 53 := (Nat.log2_lt hpos.ne').2 hn
  have hlow : 2 ^ n.log2 ≤ n := Nat.log2_self_le hpos.ne'
  have hhigh : n < 2 ^ (n.log2 + 1) := Nat.lt_log2_self
  have hsplit : 2 ^ n.log2 * 2 ^ places n = leastNormal := by
    rw [← Nat.pow_add, places, Nat.add_sub_cancel' (Nat.le_of_lt_succ hlog)]
    rfl
  constructor
  · rw [← hsplit]
    exact Nat.mul_le_mul_right _ hlow
  · rw [← hsplit, ← Nat.mul_assoc, ← Nat.pow_succ']
    exact Nat.mul_lt_mul_of_pos_right hhigh (Nat.two_pow_pos _)

/-- **A number of at most 53 bits is not rounded.** -/
theorem round_of_lt (hpos : 0 < n) (hn : n < 2 * leastNormal) :
    UnpackedFloat.round Format.binary64 s n 0 =
      .finite s (n * 2 ^ places n) (-(places n : Int)) (isFull_shift hpos hn).pos := by
  have hlog : n.log2 < 53 := (Nat.log2_lt hpos.ne').2 hn
  have hplaces : places n = 52 - n.log2 := rfl
  have htarget : Format.binary64.targetExponent (totalExponent n 0) = -(places n : Int) := by
    rw [targetExponent_eq, totalExponent]
    omega
  have hamount : (0 - -(places n : Int)).toNat = places n := by omega
  have hexponent : 0 - (places n : Int) = -(places n : Int) := Int.zero_sub _
  simp only [UnpackedFloat.round, htarget, UnpackedFloat.decreaseExponent, hamount, hexponent,
    Nat.shiftLeft_eq]
  exact roundWithAccuracy_of_full (isFull_shift hpos hn) (by omega)

theorem toFloat_eq (hpos : 0 < n) (hn : n < 2 * leastNormal) :
    n.toUInt64.toFloat = ⟨Float.Model.pack (.finite .positive (n * 2 ^ places n)
      (-(places n : Int)) (isFull_shift hpos hn).pos)⟩ := by
  have hsize : n < UInt64.size := Nat.lt_trans hn (by decide)
  have hnat : n.toUInt64.toNat = n := UInt64.toNat_ofNat_of_lt' hsize
  have hcompare : compare (n : Int) 0 = .gt := Int.compare_eq_gt.2 (Int.natCast_pos.2 hpos)
  unfold UInt64.toFloat
  rw [ofUInt64, UnpackedFloat.ofUInt64, hnat, UnpackedFloat.ofNat, UnpackedFloat.ofInt,
    UnpackedFloat.normalize, hcompare]
  simp only [Int.toNat_natCast, round_of_lt hpos hn]

/-! ## The word of a double -/

/-- The sign of a double. -/
def sign (negative : Bool) : UnpackedFloat.Sign := if negative then .negative else .positive

theorem pack_of_full (h : IsFull m) (he : -1074 ≤ e) (he' : e ≤ 971) :
    UnpackedFloat.pack Format.binary64 (.finite s m e h.pos) =
      UnpackedFloat.packComponents Format.binary64 s (BitVec.ofNat 11 (e + 1075).toNat)
        (BitVec.ofNat 52 m) := by
  have hbiased : (e + Format.binary64.exponentBias +
      Format.binary64.mantissaBitsWithoutImplicit).toNat = (e + 1075).toNat := by
    have hbias : Format.binary64.exponentBias = 1023 := rfl
    have hwidth : Format.binary64.mantissaBitsWithoutImplicit = 52 := rfl
    rw [hbias, hwidth]
    omega
  have hrange : ¬ 2 ^ Format.binary64.exponentBits ≤ (e + 1075).toNat + 1 := by
    have hpow : 2 ^ Format.binary64.exponentBits = 2048 := rfl
    rw [hpow]
    omega
  have hbits : m.log2 + 1 = Format.binary64.mantissaBits := by
    rw [h.log2]
    rfl
  simp only [UnpackedFloat.pack, hbiased, if_neg hrange, if_pos hbits]

/-- The word of a sign, a scale and a fraction. -/
def word (negative : Bool) (scale fraction : Nat) : Nat :=
  negative.toNat * 0x8000000000000000 + scale * leastNormal + fraction

theorem toNat_packComponents (negative : Bool) (scale : BitVec 11) (fraction : BitVec 52) :
    (UnpackedFloat.packComponents Format.binary64 (sign negative) scale fraction).toNat =
      word negative scale.toNat fraction.toNat := by
  have hsign : (sign negative).toBitVec.toNat = negative.toNat := by cases negative <;> rfl
  have hlow := Nat.shiftLeft_add_eq_or_of_lt fraction.isLt ((sign negative).toBitVec ++ scale).toNat
  have hhigh := Nat.shiftLeft_add_eq_or_of_lt scale.isLt (sign negative).toBitVec.toNat
  have hparts :
      (UnpackedFloat.packComponents Format.binary64 (sign negative) scale fraction).toNat =
        ((sign negative).toBitVec ++ scale).toNat <<< 52 ||| fraction.toNat :=
    BitVec.toNat_append _ _
  rw [hparts, ← hlow, BitVec.toNat_append, ← hhigh, Nat.shiftLeft_eq, Nat.shiftLeft_eq, hsign, word,
    leastNormal]
  omega

/-- The fields of a word are what it was made of. -/
theorem fields_word (negative : Bool) {scale fraction : Nat} (hscale : scale < 2048)
    (hfraction : fraction < leastNormal) :
    decide (0x8000000000000000 ≤ word negative scale fraction) = negative ∧
      word negative scale fraction / leastNormal % 2048 = scale ∧
      word negative scale fraction % leastNormal = fraction := by
  rw [word, leastNormal] at *
  cases negative with
  | false =>
    rw [Bool.toNat_false, decide_eq_false_iff_not]
    omega
  | true =>
    rw [Bool.toNat_true, decide_eq_true_eq]
    omega

/-- The fraction of a full mantissa is what its first bit leaves. -/
theorem IsFull.toNat_fraction (h : IsFull m) : (BitVec.ofNat 52 m).toNat = m - leastNormal := by
  obtain ⟨hlow, hhigh⟩ := h
  rw [BitVec.toNat_ofNat]
  rw [leastNormal] at *
  omega

theorem toNat_scale (he : -1074 ≤ e) (he' : e ≤ 971) :
    (BitVec.ofNat 11 (e + 1075).toNat).toNat = (e + 1075).toNat := by
  rw [BitVec.toNat_ofNat]
  omega

/-- **A double of a full mantissa is taken apart** into the parts it was made of. -/
theorem unpack_of_full (h : IsFull m) (he : -1074 ≤ e) (he' : e ≤ 971) :
    unpack ⟨Float.Model.pack (.finite (sign negative) m e h.pos)⟩ = .finite negative m e := by
  have hword : (⟨Float.Model.pack (.finite (sign negative) m e h.pos)⟩ : Float).toBits.toNat =
      (UnpackedFloat.pack Format.binary64 (.finite (sign negative) m e h.pos)).toNat := rfl
  rw [pack_of_full h he he', toNat_packComponents, toNat_scale he he', h.toNat_fraction] at hword
  have hfraction : m - leastNormal < leastNormal := by
    have hhigh := h.2
    omega
  obtain ⟨hnegative, hscale, hrest⟩ :=
    @fields_word negative (e + 1075).toNat _ (by omega) hfraction
  have hexponent : ((e + 1075).toNat : Int) - 1075 = e := by omega
  simp only [unpack, hword, hnegative, hscale, hrest]
  rw [if_neg (by omega), if_neg (by omega), Nat.add_sub_cancel' h.1, hexponent]

/-- The operations on doubles take it apart in the same way. -/
theorem model_unpack_of_full (h : IsFull m) (he : -1074 ≤ e) (he' : e ≤ 971) :
    (Float.Model.pack (.finite (sign negative) m e h.pos)).unpack =
      .finite (sign negative) m e h.pos := by
  have hword : (Float.Model.pack (.finite (sign negative) m e h.pos)).unpack =
      UnpackedFloat.unpack Format.binary64
        (UnpackedFloat.pack Format.binary64 (.finite (sign negative) m e h.pos)) := rfl
  have hscale := toNat_scale he he'
  have hmax : BitVec.ofNat 11 (e + 1075).toNat ≠ -1#11 := by
    intro heq
    have hlast : (-1#11 : BitVec 11).toNat = 2047 := rfl
    rw [heq] at hscale
    omega
  have hmin : BitVec.ofNat 11 (e + 1075).toNat ≠ 0#11 := by
    intro heq
    have hfirst : (0#11 : BitVec 11).toNat = 0 := rfl
    rw [heq] at hscale
    omega
  have hmantissa : (1#1 ++ BitVec.ofNat 52 m).toNat = m := by
    have hor := Nat.shiftLeft_add_eq_or_of_lt (BitVec.ofNat 52 m).isLt (1#1 : BitVec 1).toNat
    rw [BitVec.toNat_append, ← hor, h.toNat_fraction, Nat.shiftLeft_eq]
    exact Nat.add_sub_cancel' h.1
  have hexponent : ((e + 1075).toNat : Int) - (Format.binary64.exponentBias + (52 : Nat)) = e := by
    have hbias : Format.binary64.exponentBias = 1023 := rfl
    rw [hbias]
    omega
  rw [hword, pack_of_full h he he']
  simp only [UnpackedFloat.unpack, UnpackedFloat.unpackMantissa_packComponents,
    UnpackedFloat.unpackExponent_packComponents, UnpackedFloat.unpackSign_packComponents,
    UnpackedFloat.Sign.ofBitVec_toBitVec, hmax, hmin, hmantissa, hscale, if_false, hexponent]

/-- A double of a full mantissa is negated by its sign. -/
theorem neg_of_full (h : IsFull m) (he : -1074 ≤ e) (he' : e ≤ 971) :
    -(⟨Float.Model.pack (.finite .positive m e h.pos)⟩ : Float) =
      ⟨Float.Model.pack (.finite .negative m e h.pos)⟩ := by
  have hneg : -(⟨Float.Model.pack (.finite .positive m e h.pos)⟩ : Float) =
      ⟨Float.Model.pack (Float.Model.pack (.finite .positive m e h.pos)).unpack.neg⟩ := rfl
  have hunpack : (Float.Model.pack (.finite .positive m e h.pos)).unpack =
      .finite .positive m e h.pos := @model_unpack_of_full m e false h he he'
  rw [hneg, hunpack]
  rfl

/-! ## Integers -/

/-- **An integer of at most 53 bits is itself a double.** -/
theorem unpack_ofInt64 (hpos : 0 < i.toInt.natAbs) (hi : i.toInt.natAbs < 2 * leastNormal) :
    unpack (ofInt64 i) = .finite (decide (i < 0))
      (i.toInt.natAbs * 2 ^ places i.toInt.natAbs) (-(places i.toInt.natAbs : Int)) := by
  have hfull := isFull_shift hpos hi
  have hplaces : places i.toInt.natAbs ≤ 52 := Nat.sub_le _ _
  have hlow : -1074 ≤ -(places i.toInt.natAbs : Int) := by omega
  have hhigh : -(places i.toInt.natAbs : Int) ≤ 971 := by omega
  rw [ofInt64]
  simp only [toFloat_eq hpos hi]
  split
  · next hnegative =>
    rw [neg_of_full hfull hlow hhigh, decide_eq_true hnegative]
    exact @unpack_of_full _ _ true hfull hlow hhigh
  · next hnegative =>
    rw [decide_eq_false hnegative]
    exact @unpack_of_full _ _ false hfull hlow hhigh

theorem intDigits_toInt (i : Int64) :
    intDigits i.toInt = signed (decide (i < 0)) (natDigits i.toInt.natAbs) := by
  simp only [Int64.lt_iff_toInt_lt, Int64.toInt_zero]
  cases i.toInt with
  | ofNat n =>
    have hnot : ¬ Int.ofNat n < 0 := Int.not_lt.2 (Int.natCast_nonneg n)
    rw [decide_eq_false hnot]
    rfl
  | negSucc n =>
    rw [decide_eq_true (Int.negSucc_lt_zero n)]
    rfl

theorem integerPart_shift (n t : Nat) : integerPart (n * 2 ^ t) (-t) = n := by
  rw [integerPart]
  split
  · next ht =>
    obtain rfl : t = 0 := by omega
    simp
  · rw [Int.neg_neg, Int.toNat_natCast]
    exact Nat.mul_div_cancel n (Nat.two_pow_pos t)

theorem toInteger_ofInt64 (hpos : 0 < i.toInt.natAbs) (hi : i.toInt.natAbs < 2 * leastNormal) :
    toInteger (ofInt64 i) = i.toInt := by
  rw [toInteger, unpack_ofInt64 hpos hi]
  simp only [integerPart_shift, decide_eq_true_eq, Int64.lt_iff_toInt_lt, Int64.toInt_zero]
  split <;> omega

/-- The plain notation of an integer is its digits. -/
theorem plain_ofInt64 (hpos : 0 < i.toInt.natAbs) (hi : i.toInt.natAbs < 2 * leastNormal) :
    plain (ofInt64 i) = intDigits i.toInt := by
  have hmantissa := (isFull_shift hpos hi).pos.ne'
  have hdenotes := @denotes_shortest i.toInt.natAbs true hpos (Nat.lt_trans hi (by decide))
    (places i.toInt.natAbs)
  rw [plain, unpack_ofInt64 hpos hi]
  split
  · next heq => cases heq
  · next heq => cases heq
  · next heq => exact absurd (Binary64.finite.inj heq).2.1 hmantissa
  · next heq =>
    obtain ⟨rfl, rfl, rfl⟩ := Binary64.finite.inj heq
    simp only [hdenotes.positional_eq hpos, intDigits_toInt]

/-- **The text of an integer of at most 53 bits** is its digits, and so is that of `2 ^ 53`. -/
theorem numberText_ofInt64 (hi : i.toInt.natAbs ≤ 2 * leastNormal) :
    Value.numberText (ofInt64 i) = intDigits i.toInt := by
  rcases Nat.eq_or_lt_of_le hi with hlast | hlt
  · have hends : i.toInt = 0x20000000000000 ∨ i.toInt = -0x20000000000000 := by
      rw [leastNormal] at hlast
      omega
    rcases hends with heq | heq
    · obtain rfl : i = 0x20000000000000 := Int64.toInt_inj.1 (heq.trans rfl)
      decide +kernel
    · obtain rfl : i = -0x20000000000000 := Int64.toInt_inj.1 (heq.trans rfl)
      decide +kernel
  · rcases Nat.eq_zero_or_pos i.toInt.natAbs with hzero | hpos
    · obtain rfl : i = 0 := Int64.toInt_inj.1 (Int.natAbs_eq_zero.1 hzero)
      decide +kernel
    · rw [Value.numberText, unpack_ofInt64 hpos hlt]
      simp only [toInteger_ofInt64 hpos hlt, plain_ofInt64 hpos hlt, ite_self]

end ReportQuery.Decimal
