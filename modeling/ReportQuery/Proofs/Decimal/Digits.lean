import Mathlib.Tactic.Ring
import ReportQuery.Decimal.Notation
import ReportQuery.Proofs.Text.Integer
/-!
# The digits of natural numbers

A natural number that is a double is the only one in the interval of decimals that read back as the
double. So the search for the fewest digits finds it on whichever grid of units it stops, without
some of its last zeros (`denotes_shortest`), and the plain notation fills these up
(`Denotes.positional_eq`).
-/

namespace ReportQuery.Decimal

open Text (natDigits natDigits_ne_nil)

variable {i : Interval} {value n fuel digits : Nat} {k point : Int} {tieUp : Bool}
variable {d : Scientific}

/-! ## Decimals that are natural numbers -/

/-- Zeros behind the digits of a number multiply it by powers of ten. -/
theorem natDigits_mul_pow (hn : 0 < n) (k : Nat) :
    natDigits (n * 10 ^ k) = natDigits n ++ List.replicate k '0' := by
  induction k with
  | zero => simp
  | succ k ih =>
    have hpos : 0 < n * 10 ^ k := Nat.mul_pos hn (Nat.pow_pos (by decide))
    have happend := @Nat.toDigits_append_toDigits 10 (n * 10 ^ k) 0 (by decide) hpos (by decide)
    rw [Nat.add_zero, Nat.toDigits_zero] at happend
    have hsucc : n * 10 ^ (k + 1) = 10 * (n * 10 ^ k) := by ring
    rw [hsucc, List.replicate_succ', ← List.append_assoc, ← ih]
    exact happend.symm

/-- The decimal is a natural number, with a power of ten that is one. -/
structure Denotes (d : Scientific) (n : Nat) : Prop where
  exponent : 0 ≤ d.exponent
  eq : d.coefficient * 10 ^ d.exponent.toNat = n

namespace Denotes

/-- Moving zeros into the exponent keeps the number. -/
theorem normalize (h : Denotes d n) (fuel : Nat) : Denotes (d.normalize fuel) n := by
  induction fuel generalizing d with
  | zero => exact h
  | succ fuel ih =>
    rw [Scientific.normalize]
    split
    · next hzero =>
      obtain ⟨hexponent, heq⟩ := h
      have hsucc : (d.exponent + 1).toNat = d.exponent.toNat + 1 := by omega
      have hten : d.coefficient / 10 * 10 = d.coefficient :=
        Nat.div_mul_cancel (Nat.dvd_of_mod_eq_zero hzero.2)
      refine ih ⟨Int.add_nonneg hexponent (by decide), ?_⟩
      dsimp only
      rw [hsucc, Nat.pow_succ', ← Nat.mul_assoc, hten, heq]
    · exact h

theorem coefficient_pos (h : Denotes d n) (hn : 0 < n) : 0 < d.coefficient := by
  refine Nat.pos_of_ne_zero fun hzero => ?_
  have heq := h.eq
  rw [hzero, Nat.zero_mul] at heq
  omega

/-- A natural number is written with its digits. -/
theorem positional_eq (h : Denotes d n) (hn : 0 < n) :
    positional (natDigits d.coefficient) ((natDigits d.coefficient).length + d.exponent) =
      natDigits n := by
  have hlength : 0 < (natDigits d.coefficient).length :=
    List.length_pos_iff.2 (natDigits_ne_nil _)
  have hexponent := h.exponent
  have hfill : (((natDigits d.coefficient).length : Int) + d.exponent).toNat -
      (natDigits d.coefficient).length = d.exponent.toNat := by omega
  rw [positional, if_neg (by omega), if_pos (by omega), hfill,
    ← natDigits_mul_pow (h.coefficient_pos hn), h.eq]

end Denotes

/-! ## What an interval holds -/

namespace Interval

theorem bounds_of_holds (h : i.holds n = true) : i.low ≤ n * i.den ∧ n * i.den ≤ i.high := by
  rw [holds] at h
  split at h
  · simpa using h
  · simp only [Bool.and_eq_true, decide_eq_true_eq] at h
    exact ⟨h.1.le, h.2.le⟩

/-- The neighbour that is taken lies in the interval. -/
theorem holds_of_nearest? (h : i.nearest? tieUp = some n) : i.holds n = true := by
  rw [nearest?] at h
  split at h
  · cases h
  · next hbelow _ =>
    cases h
    exact hbelow
  · next _ habove =>
    cases h
    exact habove
  · next hbelow habove =>
    -- whichever of the two is nearer, both lie in the interval
    have hn : n = i.value / i.den ∨ n = i.value / i.den + 1 := by
      split at h
      · exact .inl (Option.some.inj h).symm
      · split at h
        · exact .inr (Option.some.inj h).symm
        · split at h
          · exact .inr (Option.some.inj h).symm
          · exact .inl (Option.some.inj h).symm
    rcases hn with rfl | rfl
    · exact hbelow
    · exact habove

/-- A value that is a whole number of units is found. -/
theorem nearest?_ne_none (h : i.holds (i.value / i.den) = true) : i.nearest? tieUp ≠ none := by
  rw [nearest?]
  split
  · next hbelow _ =>
    rw [h] at hbelow
    cases hbelow
  · exact Option.some_ne_none _
  · exact Option.some_ne_none _
  · split_ifs <;> exact Option.some_ne_none _

/-- The value is a natural number, in the middle of an interval that is not as long as one. -/
structure IsAround (i : Interval) (value : Nat) : Prop where
  value : i.value = value * i.den
  den : 2 < i.den
  low : i.low < i.value
  low_near : i.value ≤ i.low + 2
  high : i.value < i.high
  high_near : i.high ≤ i.value + 2

namespace IsAround

theorem holds_value (h : i.IsAround value) : i.holds value = true := by
  have hlow := h.low
  have hhigh := h.high
  rw [h.value] at hlow hhigh
  rw [holds]
  split
  · simp [hlow.le, hhigh.le]
  · simp [hlow, hhigh]

/-- **The interval holds no other natural number.** -/
theorem eq_of_holds (h : i.IsAround value) (hk : 0 ≤ k) (hn : (i.inUnits k).holds n = true) :
    n * 10 ^ k.toNat = value := by
  have hup : (-k).toNat = 0 := by omega
  have hden : (i.inUnits k).den = i.den * 10 ^ k.toNat := rfl
  have hbounds := bounds_of_holds hn
  rw [hden, Nat.mul_left_comm, Nat.mul_comm i.den] at hbounds
  simp only [inUnits, hup, Nat.pow_eq, Nat.pow_zero, Nat.mul_one] at hbounds
  obtain ⟨hlow, hhigh⟩ := hbounds
  have hlow' := h.low_near
  have hhigh' := h.high_near
  have hwide := h.den
  rw [h.value] at hlow' hhigh'
  rcases Nat.lt_trichotomy (n * 10 ^ k.toNat) value with hlt | heq | hgt
  · have hmul := Nat.mul_le_mul_right i.den hlt
    rw [Nat.succ_mul] at hmul
    omega
  · exact heq
  · have hmul := Nat.mul_le_mul_right i.den hgt
    rw [Nat.succ_mul] at hmul
    omega

/-- **The search finds the number**, no matter on which grid it stops. It stops at the units. -/
theorem search (h : i.IsAround value) (hdigits : digits ≤ point) (hfuel : point < digits + fuel) :
    Denotes (i.search tieUp point fuel digits) value := by
  induction fuel generalizing digits with
  | zero => omega
  | succ fuel ih =>
    have hk : 0 ≤ point - digits := by omega
    rw [Interval.search]
    split
    · next n hn => exact ⟨hk, h.eq_of_holds hk (holds_of_nearest? hn)⟩
    · next hnone =>
      have hne : point - digits ≠ 0 := by
        intro hzero
        have hunits : i.inUnits (point - digits) = i := by simp [hzero, inUnits]
        have hvalue : i.value / i.den = value := by
          rw [h.value, Nat.mul_div_cancel _ (Nat.lt_trans (by decide) h.den)]
        rw [hunits] at hnone
        exact nearest?_ne_none (hvalue ▸ h.holds_value) hnone
      exact ih (by omega) (by omega)

end IsAround

/-- A natural number that is a double is alone in the interval of the double. -/
theorem isAround_ofDouble (hn : 0 < n) (t : Nat) : (ofDouble (n * 2 ^ t) (-t)).IsAround n := by
  have hpos : 0 < n * 2 ^ t := Nat.mul_pos hn (Nat.two_pow_pos t)
  have hlarge : 0 < 2 ^ t := Nat.two_pow_pos t
  have hunit : (-(t : Int) - 2).toNat = 0 := by omega
  have hden : (2 - -(t : Int)).toNat = t + 2 := by omega
  have hpow : 2 ^ (t + 2) = 4 * 2 ^ t := by ring
  have hvalue : 4 * (n * 2 ^ t) = n * (4 * 2 ^ t) := by ring
  constructor <;>
    simp only [ofDouble, hunit, hden, Nat.pow_eq, hpow, Nat.pow_zero, Nat.mul_one]
  · exact hvalue
  · omega
  · split <;> omega
  · split <;> omega
  · omega
  · omega

end Interval

/-- **The shortest decimal of a natural number** is the number, if it has at most seventeen
digits. -/
theorem denotes_shortest (hn : 0 < n) (hlt : n < 10 ^ 17) (t : Nat) :
    Denotes (shortest tieUp (n * 2 ^ t) (-t)) n := by
  have haround := Interval.isAround_ofDouble hn t
  have hlength : (natDigits n).length ≤ 17 :=
    (Nat.length_toDigits_le_iff (by decide) (by decide)).2 hlt
  have hpos : 0 < (natDigits n).length := Nat.length_toDigits_pos
  rw [shortest]
  generalize Interval.ofDouble (n * 2 ^ t) (-t) = i at haround
  have hpoint : pointPosition i.value i.den = (natDigits n).length := by
    rw [haround.value, pointPosition, if_pos (Nat.le_mul_of_pos_left _ hn),
      Nat.mul_div_cancel _ (Nat.lt_trans (by decide) haround.den)]
  rw [hpoint]
  exact (haround.search (by omega) (by omega)).normalize 20

end ReportQuery.Decimal
