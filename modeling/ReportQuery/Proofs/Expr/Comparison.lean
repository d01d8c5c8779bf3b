import Mathlib.Data.String.Basic
import ReportQuery.Proofs.Decimal.Order
/-!
# Comparing texts

Two texts that both read as numbers are compared as numbers, any other two as texts. A comparison
asks one question, the order of the two (`textOrder?`), and each operator is a condition on the
answer (`binary_text`). The pairs keep the laws of an order where not-a-number stays out
(`comparisons_lawful`). Three texts may mix both orders, and a chain passes through them unless one
of them stands, as a text, between two numbers that are not in this order as numbers: `9` is below
`10`, and `10` below `1a`, but `9` is above `1a`, because `1a` stands between `10` and `9`.
-/

namespace ReportQuery.Value

open ReportQuery.Decimal

variable {op : BinaryOp} {a b c : String} {x y : Float}

/-- A text that reads as a number. -/
def IsNumeric (a : String) : Prop := (text a).number?.isSome

/-- A text that reads as not-a-number. -/
def IsNaNText (a : String) : Prop := ∃ x, (text a).number? = some x ∧ x.isNaN = true

/-- Two texts compared as numbers, one of which is not-a-number. -/
def Unordered (a b : String) : Prop :=
  IsNumeric a ∧ IsNumeric b ∧ (IsNaNText a ∨ IsNaNText b)

/-- A comparison that holds of two texts. -/
def Compares (op : BinaryOp) (a b : String) : Prop :=
  binary op (text a) (text b) = .ok (bool true)

/-- A text that is no number parts two that are: it stands between them as a text, and the lower
one of them is not less as a number. -/
def Parts (middle lower upper : String) : Prop :=
  ¬ IsNumeric middle ∧ IsNumeric lower ∧ IsNumeric upper ∧ lower ≤ middle ∧ middle ≤ upper ∧
    ¬ Compares .lt lower upper

/-- The comparisons. -/
def comparisons : List BinaryOp := [.eq, .ne, .lt, .le, .gt, .ge]

/-! ## One order behind all comparisons -/

/-- The order of two texts: of their numbers where both have one. -/
def textOrder? (a b : String) : Option Ordering :=
  match (text a).number?, (text b).number? with
  | some x, some y => compareNumbers x y
  | _, _ => some (compareTexts a b)

/-- What a comparison asks of the order. -/
def Admits : BinaryOp → Option Ordering → Bool
  | .eq, o => o = some .eq
  | .ne, o => o ≠ some .eq
  | op, o => holds op o

/-- The place of a text that reads as a number. -/
def textPlace? (a : String) : Option Place := (text a).number?.bind place?

/-- Texts that read as numbers are in the order of their places. -/
theorem textOrder?_of_numeric (ha : IsNumeric a) (hb : IsNumeric b) : textOrder? a b =
    match textPlace? a, textPlace? b with
    | some p, some q => some (compare p q)
    | _, _ => none := by
  obtain ⟨x, hx⟩ := Option.isSome_iff_exists.mp ha
  obtain ⟨y, hy⟩ := Option.isSome_iff_exists.mp hb
  rw [textOrder?, textPlace?, textPlace?, hx, hy]
  exact compareNumbers_eq x y

theorem IsNumeric.isNaNText_iff (ha : IsNumeric a) : IsNaNText a ↔ textPlace? a = none := by
  obtain ⟨x, hx⟩ := Option.isSome_iff_exists.mp ha
  simp [IsNaNText, textPlace?, hx, place?_eq_none]

theorem textOrder?_of_texts (h : ¬ (IsNumeric a ∧ IsNumeric b)) :
    textOrder? a b = some (compare a b) := by
  unfold textOrder?
  split
  next ha hb => exact absurd ⟨by simp [IsNumeric, ha], by simp [IsNumeric, hb]⟩ h
  next => rfl

theorem order_text (operation : String) :
    order operation (text a) (text b) = .ok (textOrder? a b) := by
  unfold order textOrder?
  cases (text a).number? <;> cases (text b).number? <;> rfl

theorem equals_numbers : (x == y) = true ↔ compareNumbers x y = some .eq := by
  rw [beq_iff, compareNumbers_eq]
  cases place? x <;> cases place? y
  case some.some p q => simpa [compare_eq_iff_eq] using eq_comm
  all_goals simp

theorem equals_text : equals (text a) (text b) = true ↔ textOrder? a b = some .eq := by
  have htexts : decide ((text a).display = (text b).display) = true ↔
      some (compareTexts a b) = some .eq := by
    rw [decide_eq_true_iff, Option.some.injEq]
    exact String.toList_inj.trans compare_eq_iff_eq.symm
  unfold equals textOrder?
  cases (text a).number? <;> cases (text b).number?
  case some.some => exact equals_numbers
  all_goals exact htexts

/-- **A comparison of two texts is a condition on their order, and never an error.** -/
theorem binary_text (h : op ∈ comparisons) :
    binary op (text a) (text b) = .ok (bool (Admits op (textOrder? a b))) := by
  have hordered (operation : String) (op : BinaryOp) :
      (do return bool (holds op (← order operation (text a) (text b))) : Except ExprError Value) =
        .ok (bool (holds op (textOrder? a b))) := by
    rw [order_text]
    rfl
  have hequals : equals (text a) (text b) = decide (textOrder? a b = some .eq) :=
    Bool.eq_iff_iff.mpr (equals_text.trans decide_eq_true_iff.symm)
  simp only [comparisons, List.mem_cons, List.not_mem_nil, or_false] at h
  rcases h with rfl | rfl | rfl | rfl | rfl | rfl
  · exact congrArg (fun truth => Except.ok (bool truth)) hequals
  · exact congrArg (fun truth => Except.ok (bool truth))
      ((congrArg not hequals).trans (decide_not).symm)
  all_goals exact hordered _ _

theorem compares_iff (h : op ∈ comparisons) :
    Compares op a b ↔ Admits op (textOrder? a b) = true := by
  simp [Compares, binary_text h]

theorem compares_eq : Compares .eq a b ↔ textOrder? a b = some .eq := by
  simp [compares_iff (show BinaryOp.eq ∈ comparisons by decide), Admits]

theorem compares_ne : Compares .ne a b ↔ textOrder? a b ≠ some .eq := by
  simp [compares_iff (show BinaryOp.ne ∈ comparisons by decide), Admits]

theorem compares_lt : Compares .lt a b ↔ textOrder? a b = some .lt := by
  rw [compares_iff (by decide)]
  rcases textOrder? a b with _ | _ | _ | _ <;> decide

theorem compares_gt : Compares .gt a b ↔ textOrder? a b = some .gt := by
  rw [compares_iff (by decide)]
  rcases textOrder? a b with _ | _ | _ | _ <;> decide

theorem compares_le : Compares .le a b ↔ textOrder? a b = some .lt ∨ textOrder? a b = some .eq := by
  rw [compares_iff (by decide)]
  rcases textOrder? a b with _ | _ | _ | _ <;> decide

theorem compares_ge : Compares .ge a b ↔ textOrder? a b = some .gt ∨ textOrder? a b = some .eq := by
  rw [compares_iff (by decide)]
  rcases textOrder? a b with _ | _ | _ | _ <;> decide

/-! ## Laws of pairs -/

/-- Two texts have an order unless they are numbers and one of them is not-a-number. -/
theorem textOrder?_eq_none : textOrder? a b = none ↔ Unordered a b := by
  by_cases h : IsNumeric a ∧ IsNumeric b
  · rw [textOrder?_of_numeric h.1 h.2, Unordered, h.1.isNaNText_iff, h.2.isNaNText_iff]
    cases textPlace? a <;> cases textPlace? b <;> simp [h]
  · rw [textOrder?_of_texts h]
    simp only [reduceCtorEq, false_iff]
    exact fun ⟨ha, hb, _⟩ => h ⟨ha, hb⟩

/-- The order of two texts the other way round. -/
theorem textOrder?_swap : textOrder? b a = (textOrder? a b).map Ordering.swap := by
  by_cases h : IsNumeric a ∧ IsNumeric b
  · rw [textOrder?_of_numeric h.1 h.2, textOrder?_of_numeric h.2 h.1]
    cases textPlace? a <;> cases textPlace? b
    case some.some p q => exact congrArg some Std.OrientedOrd.eq_swap
    all_goals rfl
  · rw [textOrder?_of_texts h, textOrder?_of_texts (mt And.symm h)]
    exact congrArg some Std.OrientedOrd.eq_swap

/-- A text is in no order to itself where it is not-a-number, and else equal to itself. -/
theorem textOrder?_self : textOrder? a a = some .eq ↔ ¬ IsNaNText a := by
  by_cases h : IsNumeric a
  · rw [textOrder?_of_numeric h h, h.isNaNText_iff]
    cases textPlace? a <;> simp
  · rw [textOrder?_of_texts (mt And.left h)]
    have hnan : ¬ IsNaNText a := fun ⟨x, hx, _⟩ => h (by simp [IsNumeric, hx])
    simp [hnan]

/-! ## Chains -/

/-- As numbers, texts keep the order of the places. -/
theorem lt_trans_of_numeric (ha : IsNumeric a) (hb : IsNumeric b) (hc : IsNumeric c)
    (hab : textOrder? a b = some .lt) (hbc : textOrder? b c = some .lt) :
    textOrder? a c = some .lt := by
  rw [textOrder?_of_numeric ha hb] at hab
  rw [textOrder?_of_numeric hb hc] at hbc
  rw [textOrder?_of_numeric ha hc]
  cases hp : textPlace? a <;> cases hq : textPlace? b <;> cases hr : textPlace? c <;>
    simp only [hp, hq, hr, reduceCtorEq, Option.some.injEq, compare_lt_iff_lt] at hab hbc ⊢
  exact hab.trans hbc

theorem lt_iff_of_texts (h : ¬ (IsNumeric a ∧ IsNumeric b)) :
    textOrder? a b = some .lt ↔ a < b := by
  rw [textOrder?_of_texts h, Option.some.injEq, compare_lt_iff_lt]

/-- Less is not less the other way round. -/
theorem not_lt_of_lt (h : textOrder? a b = some .lt) : textOrder? b a ≠ some .lt := by
  simp [textOrder?_swap (a := a), h]

/-- **A chain of three texts passes unless one of them parts two numbers.** -/
theorem lt_trans_iff (hab : textOrder? a b = some .lt) (hbc : textOrder? b c = some .lt) :
    textOrder? a c = some .lt ↔ ¬ (Parts c b a ∨ Parts a c b ∨ Parts b a c) := by
  have hba := not_lt_of_lt hab
  have hcb := not_lt_of_lt hbc
  simp only [Parts, compares_lt]
  by_cases hnumeric : IsNumeric a ∧ IsNumeric b ∧ IsNumeric c
  · obtain ⟨ha, hb, hc⟩ := hnumeric
    simp [ha, hb, hc, lt_trans_of_numeric ha hb hc hab hbc]
  by_cases hnab : IsNumeric a ∧ IsNumeric b
  · -- the last text is compared with both others as a text
    have hc : ¬ IsNumeric c := fun hc => hnumeric ⟨hnab.1, hnab.2, hc⟩
    have hbc' : b < c := (lt_iff_of_texts fun h => hc h.2).mp hbc
    simp [hnab, hc, hba, hbc'.le, lt_iff_of_texts fun h : IsNumeric a ∧ _ => hc h.2]
  have hab' : a < b := (lt_iff_of_texts hnab).mp hab
  by_cases hnbc : IsNumeric b ∧ IsNumeric c
  · -- the first one is
    have ha : ¬ IsNumeric a := fun ha => hnumeric ⟨ha, hnbc⟩
    simp [hnbc, ha, hcb, hab'.le, lt_iff_of_texts fun h : _ ∧ IsNumeric c => ha h.1]
  have hbc' : b < c := (lt_iff_of_texts hnbc).mp hbc
  by_cases hnac : IsNumeric a ∧ IsNumeric c
  · -- the middle one is
    have hb : ¬ IsNumeric b := fun hb => hnumeric ⟨hnac.1, hb, hnac.2⟩
    simp [hnac, hb, hab'.le, hbc'.le]
  · rw [lt_iff_of_texts hnac]
    refine iff_of_true (hab'.trans hbc') ?_
    rintro (⟨-, hb, ha, -⟩ | ⟨-, hc, hb, -⟩ | ⟨-, ha, hc, -⟩)
    · exact hnab ⟨ha, hb⟩
    · exact hnbc ⟨hb, hc⟩
    · exact hnac ⟨ha, hc⟩

/-! ## The laws -/

/-- One of three answers stands for one of the three operators. -/
theorem existsUnique_comparison (a b : String) :
    (∃! op, op ∈ [BinaryOp.lt, .eq, .gt] ∧ Compares op a b) ↔ ¬ Unordered a b := by
  have hmem (op : BinaryOp) : op ∈ [BinaryOp.lt, .eq, .gt] ∧ Compares op a b ↔
      op = .lt ∧ textOrder? a b = some .lt ∨ op = .eq ∧ textOrder? a b = some .eq ∨
        op = .gt ∧ textOrder? a b = some .gt := by
    simp only [List.mem_cons, List.not_mem_nil, or_false, or_and_right]
    exact or_congr (and_congr_right fun h => h ▸ compares_lt)
      (or_congr (and_congr_right fun h => h ▸ compares_eq)
        (and_congr_right fun h => h ▸ compares_gt))
  rw [← textOrder?_eq_none]
  simp only [hmem]
  rcases textOrder? a b with _ | _ | _ | _ <;> simp

/-- **Every comparison of two texts has an answer, a text is equal to itself but for
not-a-number, exactly one of `<`, `==` and `>` holds but for not-a-number, and the other operators
are made of these. A chain of three texts passes unless one of them parts two numbers.** -/
theorem comparisons_lawful (a b c : String) :
    (∀ op ∈ comparisons, ∃ truth, binary op (text a) (text b) = .ok (bool truth)) ∧
      (Compares .eq a a ↔ ¬ IsNaNText a) ∧
      (Compares .ne a b ↔ ¬ Compares .eq a b) ∧
      ((∃! op, op ∈ [BinaryOp.lt, .eq, .gt] ∧ Compares op a b) ↔ ¬ Unordered a b) ∧
      (Compares .le a b ↔ Compares .lt a b ∨ Compares .eq a b) ∧
      (Compares .ge a b ↔ Compares .gt a b ∨ Compares .eq a b) ∧
      (Compares .gt a b ↔ Compares .lt b a) ∧
      (Compares .lt a b → Compares .lt b c →
        (Compares .lt a c ↔ ¬ (Parts c b a ∨ Parts a c b ∨ Parts b a c))) := by
  refine ⟨fun op hop => ⟨_, binary_text hop⟩, ?_, ?_, existsUnique_comparison a b, ?_, ?_, ?_,
    fun hab hbc => ?_⟩
  · exact compares_eq.trans textOrder?_self
  · exact compares_ne.trans (not_congr compares_eq.symm)
  · exact compares_le.trans (or_congr compares_lt.symm compares_eq.symm)
  · exact compares_ge.trans (or_congr compares_gt.symm compares_eq.symm)
  · rw [compares_gt, compares_lt, textOrder?_swap (a := a)]
    rcases textOrder? a b with _ | _ | _ | _ <;> simp
  · exact compares_lt.trans (lt_trans_iff (compares_lt.mp hab) (compares_lt.mp hbc))

/-- Three numbers, in another order than as texts. -/
theorem comparisons_lawful_numbers :
    Compares .lt "9" "10" ∧ Compares .lt "10" "1e2" ∧ Compares .lt "9" "1e2" := by
  have hless : Compares .lt "9" "10" ∧ Compares .lt "10" "1e2" := ⟨rfl, rfl⟩
  refine ⟨hless.1, hless.2,
    ((comparisons_lawful "9" "10" "1e2").2.2.2.2.2.2.2 hless.1 hless.2).mpr ?_⟩
  rintro (h | h | h)
  all_goals exact h.1 rfl

/-- Not-a-number is neither equal to itself nor in an order to itself, and the chain from `9` over
`10` to `1a` breaks. -/
theorem not_total_order_of_texts :
    ¬ (∀ a, Compares .eq a a) ∧
      ¬ (∀ a b, ∃! op, op ∈ [BinaryOp.lt, .eq, .gt] ∧ Compares op a b) ∧
      ¬ (∀ a b c, Compares .lt a b → Compares .lt b c → Compares .lt a c) := by
  have hnan : textOrder? "nan" "nan" = none := rfl
  have hchain : Compares .lt "9" "10" ∧ Compares .lt "10" "1a" := ⟨rfl, rfl⟩
  have hend : textOrder? "9" "1a" = some .gt := rfl
  refine ⟨fun h => ?_, fun h => ?_, fun h => ?_⟩
  · have hself := compares_eq.mp (h "nan")
    rw [hnan] at hself
    cases hself
  · exact (existsUnique_comparison _ _).mp (h "nan" "nan") (textOrder?_eq_none.mp hnan)
  · have hless := compares_lt.mp (h _ _ _ hchain.1 hchain.2)
    rw [hend] at hless
    cases hless

end ReportQuery.Value
