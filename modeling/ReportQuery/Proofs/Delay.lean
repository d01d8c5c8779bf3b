import Mathlib.Algebra.Ring.Nat
import Mathlib.Order.MinMax
import ReportQuery.Retry
/-!
# The delay after an attempt

A delay is counted in 64 bits, by a product and a power that are each replaced by the greatest word
where they do not fit. What comes out is the delay that the strategy asks for (`duration`), cut off
once, at the greatest word (`toNat_delay`). For the product this is plain. The power is cut off too
early, at a word that is no power of two, but then the product with any base but 0 does not fit
either, and with the base 0 it is 0 whatever the power. So delays are ordered as the durations are.
-/

namespace ReportQuery

variable {strategy : DelayStrategy} {base base' attempt attempt' : Nat}

/-! ## Durations -/

namespace DelayStrategy

/-- The delay in milliseconds that a strategy asks for after an attempt, as a number without
bound. -/
def duration (strategy : DelayStrategy) (base attempt : Nat) : Nat :=
  match strategy with
  | none => 0
  | constant => base
  | linear => base * attempt
  | exponential => base * 2 ^ attempt

theorem duration_le_duration (hbase : base ≤ base') (h : attempt ≤ attempt') :
    strategy.duration base attempt ≤ strategy.duration base' attempt' := by
  cases strategy with
  | none => exact Nat.le_refl 0
  | constant => exact hbase
  | linear => exact Nat.mul_le_mul hbase h
  | exponential => exact Nat.mul_le_mul hbase (Nat.pow_le_pow_right (by decide) h)

theorem duration_constant_le_linear (h : 1 ≤ attempt) :
    constant.duration base attempt ≤ linear.duration base attempt :=
  Nat.le_mul_of_pos_right base h

theorem duration_linear_le_exponential (base attempt : Nat) :
    linear.duration base attempt ≤ exponential.duration base attempt :=
  Nat.mul_le_mul_left base Nat.lt_two_pow_self.le

end DelayStrategy

namespace RetryPolicy

variable {a b : UInt64} {n : UInt32}

/-! ## Words -/

theorem toNat_longest : longest.toNat = 2 ^ 64 - 1 := rfl

/-- **A product of words is exact up to the greatest word.** -/
theorem toNat_boundedMul (a b : UInt64) :
    (boundedMul a b).toNat = min (a.toNat * b.toNat) longest.toNat := by
  unfold boundedMul
  split
  · next hfits =>
    have hlt : a.toNat * b.toNat < 2 ^ 64 := by
      rw [toNat_longest] at hfits
      omega
    rw [UInt64.toNat_mul, Nat.mod_eq_of_lt hlt, min_eq_left hfits]
  · next hlong => exact (min_eq_right (Nat.le_of_not_le hlong)).symm

/-- A power of two is exact where it is a word. -/
theorem toNat_boundedPower (h : n.toNat < 64) : (boundedPower n).toNat = 2 ^ n.toNat := by
  have hlt : n < 64 := UInt32.lt_iff_toNat_lt.2 h
  have hpow : 2 ^ n.toNat < 2 ^ 64 := Nat.pow_lt_pow_right (by decide) h
  rw [boundedPower, if_pos hlt, UInt64.toNat_shiftLeft, UInt32.toNat_toUInt64,
    Nat.mod_eq_of_lt h, UInt64.toNat_one, Nat.one_shiftLeft, Nat.mod_eq_of_lt hpow]

/-- Beyond these, the greatest word stands for the power. -/
theorem boundedPower_of_le (h : 64 ≤ n.toNat) : boundedPower n = longest := by
  have hlt : ¬ n < 64 := fun hlt => absurd (UInt32.lt_iff_toNat_lt.1 hlt) (Nat.not_lt.2 h)
  rw [boundedPower, if_neg hlt]

/-- **A power that is cut off does not show in a product that is.** With the base 0 the product is 0,
and with any other neither product fits. -/
theorem min_mul_boundedPower (base : Nat) (n : UInt32) :
    min (base * (boundedPower n).toNat) longest.toNat = min (base * 2 ^ n.toNat) longest.toNat := by
  rcases Nat.lt_or_ge n.toNat 64 with hword | hlong
  · rw [toNat_boundedPower hword]
  · rw [boundedPower_of_le hlong]
    rcases Nat.eq_zero_or_pos base with rfl | hbase
    · rw [Nat.zero_mul, Nat.zero_mul]
    · have hpow : 2 ^ 64 ≤ 2 ^ n.toNat := Nat.pow_le_pow_right (by decide) hlong
      have hpower : longest.toNat ≤ 2 ^ n.toNat := by
        rw [toNat_longest]
        omega
      rw [min_eq_right (Nat.le_mul_of_pos_left _ hbase),
        min_eq_right (hpower.trans (Nat.le_mul_of_pos_left _ hbase))]

/-! ## Delays -/

/-- **A delay is the duration that the strategy asks for, cut off at the greatest word.** -/
theorem toNat_delay (p : RetryPolicy) (n : UInt32) :
    (p.delay n).toNat = min (p.strategy.duration p.baseDelay.toNat n.toNat) longest.toNat := by
  obtain ⟨strategy, base, most⟩ := p
  cases strategy with
  | none => rfl
  | constant => exact (min_eq_left (Nat.le_sub_one_of_lt base.toNat_lt)).symm
  | linear => exact (toNat_boundedMul base n.toUInt64).trans (by rw [UInt32.toNat_toUInt64]; rfl)
  | exponential => exact (toNat_boundedMul base (boundedPower n)).trans (min_mul_boundedPower _ n)

/-- Delays are ordered as the durations are. -/
theorem delay_le_delay {p q : RetryPolicy} {n m : UInt32}
    (h : p.strategy.duration p.baseDelay.toNat n.toNat ≤
      q.strategy.duration q.baseDelay.toNat m.toNat) : p.delay n ≤ q.delay m := by
  rw [UInt64.le_iff_toNat_le, toNat_delay, toNat_delay]
  exact min_le_min_right _ h

/-- **Delays are exact, cut off at the greatest word.** They never get shorter with
the attempt or the base, and from the first attempt on, the linear delay is at
least the constant one and at most the exponential one. -/
theorem delay_exact :
    (∀ (p : RetryPolicy) (n : UInt32), (p.delay n).toNat =
      min (p.strategy.duration p.baseDelay.toNat n.toNat) (2 ^ 64 - 1)) ∧
    (∀ (strategy : DelayStrategy) (base base' : UInt64) (most most' : Option UInt32)
      (n n' : UInt32), base ≤ base' → n ≤ n' →
      (RetryPolicy.mk strategy base most).delay n ≤ (RetryPolicy.mk strategy base' most').delay n') ∧
    ∀ (base : UInt64) (most : Option UInt32) (n : UInt32), 1 ≤ n →
      (RetryPolicy.mk .constant base most).delay n ≤ (RetryPolicy.mk .linear base most).delay n ∧
      (RetryPolicy.mk .linear base most).delay n ≤
        (RetryPolicy.mk .exponential base most).delay n := by
  refine ⟨toNat_delay, fun strategy base base' _ _ n n' hbase h => ?_, fun base _ n h => ⟨?_, ?_⟩⟩
  · exact delay_le_delay (DelayStrategy.duration_le_duration (UInt64.le_iff_toNat_le.1 hbase)
      (UInt32.le_iff_toNat_le.1 h))
  · exact delay_le_delay (DelayStrategy.duration_constant_le_linear (UInt32.le_iff_toNat_le.1 h))
  · exact delay_le_delay (DelayStrategy.duration_linear_le_exponential _ _)

/-- The base 0 stays, and the base 1 is cut off, at the attempt whose power is no word. -/
example : (RetryPolicy.mk .exponential 0 none).delay 64 = 0 ∧
    (RetryPolicy.mk .exponential 1 none).delay 63 = 0x8000000000000000 ∧
    (RetryPolicy.mk .exponential 1 none).delay 64 = longest := by decide

end RetryPolicy
end ReportQuery
