import Mathlib.Data.Prod.Lex
import Mathlib.Order.Compare
import ReportQuery.Expr.Eval
/-!
# The order of doubles

Every double but not-a-number has a place in one linear order (`place?`): the infinities stand
outside, then the sign decides, then the exponent and the mantissa. The comparisons of doubles are
those of their places (`lt_iff`, `beq_iff`), and no comparison holds of what has no place.
-/

namespace ReportQuery.Decimal

open Float.Model

variable {x y z : Float}

/-! ## Places -/

/-- The places of numbers: the sign and whether it is infinite, the exponent, the mantissa. -/
abbrev Place := ℤ ×ₗ ℤ ×ₗ ℤ

/-- The sign of a number, as a factor. -/
def signFactor : UnpackedFloat.Sign → ℤ
  | .negative => -1
  | .positive => 1

/-- The place of a number that is taken apart. The two zeros stand at one place. -/
def unpackedPlace? : UnpackedFloat → Option Place
  | .notANumber => none
  | .infinity s => some (toLex (2 * signFactor s, toLex (0, 0)))
  | .zero _ => some (toLex (0, toLex (0, 0)))
  | .finite s m e _ => some (toLex (signFactor s, toLex (signFactor s * e, signFactor s * m)))

/-- The place of a double. -/
def place? (x : Float) : Option Place := unpackedPlace? x.toModel.unpack

/-- Numbers of one sign and exponent are compared by their mantissas; two negative ones the other
way round. -/
theorem compare_unpacked_lt (x y : UnpackedFloat) : UnpackedFloat.compare x y = some .lt ↔
    ∃ p q, unpackedPlace? x = some p ∧ unpackedPlace? y = some q ∧ p < q := by
  have hsigns : ∀ s t : UnpackedFloat.Sign, compare s t = .lt ↔ signFactor s < signFactor t := by
    intro s t
    cases s <;> cases t <;> decide
  have hnegative (e k : ℤ) (m n : ℕ) :
      (compare e k).then (compare m n) = .gt ↔ k < e ∨ e = k ∧ n < m := by
    rw [Ordering.then_eq_gt, Int.compare_eq_gt, Int.compare_eq_eq, Nat.compare_eq_gt]
  rcases x with s | _ | s | ⟨_ | _, m, e, _⟩ <;> rcases y with t | _ | t | ⟨_ | _, n, k, _⟩
  all_goals try cases s
  all_goals try cases t
  all_goals
    dsimp only [UnpackedFloat.compare, unpackedPlace?]
    simp [signFactor, Prod.Lex.toLex_lt_toLex, Ordering.then_eq_lt, Int.compare_eq_lt,
      Nat.compare_eq_lt, hsigns, hnegative]

theorem compare_unpacked_eq (x y : UnpackedFloat) : UnpackedFloat.compare x y = some .eq ↔
    ∃ p, unpackedPlace? x = some p ∧ unpackedPlace? y = some p := by
  have hsigns : ∀ s t : UnpackedFloat.Sign, compare s t = .eq ↔ signFactor s = signFactor t := by
    intro s t
    cases s <;> cases t <;> decide
  rcases x with s | _ | s | ⟨_ | _, m, e, _⟩ <;> rcases y with t | _ | t | ⟨_ | _, n, k, _⟩
  all_goals try cases s
  all_goals try cases t
  all_goals
    dsimp only [UnpackedFloat.compare, unpackedPlace?]
    simp [signFactor, hsigns] <;> omega

/-! ## Comparisons -/

/-- **Less is less in the order of places.** -/
theorem lt_iff : x < y ↔ ∃ p q, place? x = some p ∧ place? y = some q ∧ p < q := by
  have hcompare : x < y ↔
      UnpackedFloat.compare x.toModel.unpack y.toModel.unpack = some .lt :=
    decide_eq_true_iff.trans beq_iff_eq
  rw [hcompare, compare_unpacked_lt]
  rfl

/-- **Equal is at one place.** -/
theorem beq_iff : (x == y) = true ↔ ∃ p, place? x = some p ∧ place? y = some p := by
  have hcompare : (x == y) = true ↔
      UnpackedFloat.compare x.toModel.unpack y.toModel.unpack = some .eq :=
    @beq_iff_eq (Option Ordering) _ _ _ _
  rw [hcompare, compare_unpacked_eq]
  rfl

/-- Not-a-number alone has no place. -/
theorem place?_eq_none : place? x = none ↔ x.isNaN = true := by
  have hnan : x.isNaN = x.toModel.unpack.isNaN := rfl
  rw [hnan, place?]
  cases x.toModel.unpack with
  | notANumber => exact ⟨fun _ => rfl, fun _ => rfl⟩
  | infinity _ | zero _ | finite _ _ _ _ =>
    exact ⟨fun h => absurd h (Option.some_ne_none _), fun h => absurd h Bool.false_ne_true⟩

/-- **The order of two doubles is that of their places.** -/
theorem compareNumbers_eq (x y : Float) : Value.compareNumbers x y =
    match place? x, place? y with
    | some p, some q => some (compare p q)
    | _, _ => none := by
  have hless : x < y ↔ ∃ p q, place? x = some p ∧ place? y = some q ∧ p < q := lt_iff
  have hequal : (x == y) = true ↔ ∃ p, place? x = some p ∧ place? y = some p := beq_iff
  have hgreater : y < x ↔ ∃ q p, place? y = some q ∧ place? x = some p ∧ q < p := lt_iff
  unfold Value.compareNumbers
  cases hx : place? x with
  | none =>
    rw [if_neg (by simp [hless, hx]), if_neg (by simp [hequal, hx]),
      if_neg (by simp [hgreater, hx])]
  | some p =>
    cases hy : place? y with
    | none =>
      rw [if_neg (by simp [hless, hy]), if_neg (by simp [hequal, hy]),
        if_neg (by simp [hgreater, hy])]
    | some q =>
      replace hless : x < y ↔ p < q := by simp [hless, hx, hy]
      replace hequal : (x == y) = true ↔ p = q := by simp [hequal, hx, hy, eq_comm]
      replace hgreater : y < x ↔ q < p := by simp [hgreater, hx, hy]
      rcases lt_trichotomy p q with h | h | h
      · rw [if_pos (hless.mpr h)]
        exact congrArg some (compare_lt_iff_lt.mpr h).symm
      · rw [if_neg (hless.not.mpr h.not_lt), if_pos (hequal.mpr h)]
        exact congrArg some (compare_eq_iff_eq.mpr h).symm
      · rw [if_neg (hless.not.mpr h.not_gt), if_neg (hequal.not.mpr h.ne'),
          if_pos (hgreater.mpr h)]
        exact congrArg some (compare_gt_iff_gt.mpr h).symm

end ReportQuery.Decimal
