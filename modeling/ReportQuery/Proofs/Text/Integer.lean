import ReportQuery.Text.Integer
/-!
# Reading integers back

Every 64-bit integer is read back from its decimal text (`readInt64?_intDigits`), and what is read
as one is a literal that denotes it (`readInt64?_eq_some`).
-/

namespace ReportQuery.Text

variable {c : Char}

theorem natDigits_ne_nil (n : Nat) : natDigits n ≠ [] := Nat.toDigits_ne_nil

theorem isDigit_of_mem_natDigits {n : Nat} (h : c ∈ natDigits n) : isDigit c = true := by
  have hdigit := Nat.isDigit_of_mem_toDigits (by decide) (by decide) h
  simp only [Char.isDigit, Bool.and_eq_true, decide_eq_true_eq] at hdigit
  simp only [isDigit, Bool.and_eq_true, decide_eq_true_eq]
  exact hdigit

theorem isDigit_of_mem_paddedDigits {width n : Nat} (h : c ∈ paddedDigits width n) :
    isDigit c = true := by
  rw [paddedDigits, List.mem_append] at h
  rcases h with h | h
  · rw [List.eq_of_mem_replicate h]
    decide
  · exact isDigit_of_mem_natDigits h

theorem readNat?_natDigits (n : Nat) : readNat? (natDigits n) = some n := by
  have hall : (natDigits n).all isDigit = true :=
    List.all_eq_true.2 fun c hc => isDigit_of_mem_natDigits hc
  have hvalue : digitsValue 0 (natDigits n) = n := Nat.ofDigitChars_ten_toDigits
  rw [readNat?, if_pos ⟨natDigits_ne_nil n, hall⟩, hvalue]

/-- Digits are read without a sign. -/
theorem readInt?_natDigits (n : Nat) : readInt? (natDigits n) = some (n : Int) := by
  obtain ⟨d, ds, hdigits⟩ := List.exists_cons_of_ne_nil (natDigits_ne_nil n)
  have hd : isDigit d = true := isDigit_of_mem_natDigits (by rw [hdigits]; simp)
  have hread : readInt? (natDigits n) = (readNat? (natDigits n)).map Int.ofNat := by
    rw [hdigits, readInt?]
    · rintro digits ⟨⟩
      exact absurd hd (by decide)
    · rintro digits ⟨⟩
      exact absurd hd (by decide)
  rw [hread, readNat?_natDigits]
  rfl

theorem readInt?_intDigits (i : Int) : readInt? (intDigits i) = some i := by
  cases i with
  | ofNat n => exact readInt?_natDigits n
  | negSucc n =>
    rw [intDigits, readInt?, readNat?_natDigits]
    rfl

/-- **A 64-bit integer is read back from its digits.** -/
theorem readInt64?_intDigits (i : Int64) : readInt64? (intDigits i.toInt) = some i := by
  have hlow : Int64.minValue.toInt ≤ i.toInt := Int64.minValue_le_toInt i
  have hhigh : i.toInt ≤ Int64.maxValue.toInt := Int64.toInt_le i
  rw [readInt64?, readInt?_intDigits, Option.bind_some, if_pos ⟨hlow, hhigh⟩, Int64.ofInt_toInt]

/-- The text of an integer: digits, after a minus if it is negative. -/
theorem intDigits_eq (i : Int) :
    ∃ n, intDigits i = natDigits n ∨ intDigits i = '-' :: natDigits n := by
  cases i with
  | ofNat n => exact ⟨n, .inl rfl⟩
  | negSucc n => exact ⟨n + 1, .inr rfl⟩

theorem isDigit_or_eq_of_mem_intDigits {i : Int} (h : c ∈ intDigits i) :
    isDigit c = true ∨ c = '-' := by
  obtain ⟨n, hdigits | hdigits⟩ := intDigits_eq i
  · exact .inl (isDigit_of_mem_natDigits (hdigits ▸ h))
  · rw [hdigits, List.mem_cons] at h
    exact h.symm.imp_left isDigit_of_mem_natDigits

theorem intDigits_ne_nil (i : Int) : intDigits i ≠ [] := by
  obtain ⟨n, h | h⟩ := intDigits_eq i
  · exact h ▸ natDigits_ne_nil n
  · simp [h]

/-! ## Literals -/

variable {text : List Char} {i : Int}

/-- A literal of an integer: an optional sign, and decimal digits that denote its magnitude. -/
def IsLiteral (text : List Char) (i : Int) : Prop :=
  ∃ sign digits, text = sign ++ digits ∧ digits ≠ [] ∧ (∀ c ∈ digits, isDigit c = true) ∧
    ((sign = [] ∨ sign = ['+']) ∧ i = Nat.ofDigitChars 10 digits 0 ∨
      sign = ['-'] ∧ i = -(Nat.ofDigitChars 10 digits 0 : Int))

theorem readNat?_eq_some {n : Nat} : readNat? text = some n ↔
    text ≠ [] ∧ (∀ c ∈ text, isDigit c = true) ∧ Nat.ofDigitChars 10 text 0 = n := by
  have hvalue : digitsValue 0 text = Nat.ofDigitChars 10 text 0 := rfl
  unfold readNat?
  rw [Option.ite_none_right_eq_some, List.all_eq_true, Option.some.injEq, hvalue, and_assoc]

/-- **What is read as an integer is a literal of it.** -/
theorem readInt?_eq_some : readInt? text = some i ↔ IsLiteral text i := by
  unfold IsLiteral
  constructor
  · intro h
    unfold readInt? at h
    split at h
    · next digits =>
      obtain ⟨n, hread, rfl⟩ := Option.map_eq_some_iff.1 h
      obtain ⟨hne, hdigits, rfl⟩ := readNat?_eq_some.1 hread
      exact ⟨['+'], digits, rfl, hne, hdigits, .inl ⟨.inr rfl, rfl⟩⟩
    · next digits =>
      obtain ⟨m, hcast, rfl⟩ := Option.map_eq_some_iff.1 h
      obtain ⟨n, hread, hn⟩ := Option.bind_eq_some_iff.1 hcast
      obtain ⟨hne, hdigits, rfl⟩ := readNat?_eq_some.1 hread
      cases hn
      exact ⟨['-'], digits, rfl, hne, hdigits, .inr ⟨rfl, rfl⟩⟩
    · obtain ⟨n, hread, rfl⟩ := Option.map_eq_some_iff.1 h
      obtain ⟨hne, hdigits, rfl⟩ := readNat?_eq_some.1 hread
      exact ⟨[], text, rfl, hne, hdigits, .inl ⟨.inl rfl, rfl⟩⟩
  · rintro ⟨sign, digits, rfl, hne, hdigits, hsign⟩
    have hread : readNat? digits = some (Nat.ofDigitChars 10 digits 0) :=
      readNat?_eq_some.2 ⟨hne, hdigits, rfl⟩
    rcases hsign with ⟨rfl | rfl, rfl⟩ | ⟨rfl, rfl⟩
    · -- a digit is no sign
      have hplain : readInt? digits = (readNat? digits).map Int.ofNat := by
        unfold readInt?
        split
        · exact absurd (hdigits '+' (by simp)) (by decide)
        · exact absurd (hdigits '-' (by simp)) (by decide)
        · rfl
      rw [List.nil_append, hplain, hread]
      rfl
    · rw [List.singleton_append, readInt?, hread]
      rfl
    · rw [List.singleton_append, readInt?, hread]
      rfl

/-- **What is read as a 64-bit integer is a literal of it.** -/
theorem readInt64?_eq_some {i : Int64} : readInt64? text = some i ↔ IsLiteral text i.toInt := by
  rw [← readInt?_eq_some]
  unfold readInt64?
  rw [Option.bind_eq_some_iff]
  constructor
  · rintro ⟨n, hread, h⟩
    obtain ⟨⟨hlow, hhigh⟩, hn⟩ := Option.ite_none_right_eq_some.1 h
    have hmin : Int64.minValue.toInt = -2 ^ 63 := rfl
    have hmax : Int64.maxValue.toInt = 2 ^ 63 - 1 := rfl
    have hvalue : (Int64.ofInt n).toInt = n := Int64.toInt_ofInt_of_le (by omega) (by omega)
    rw [← Option.some.inj hn, hvalue]
    exact hread
  · intro hread
    have hlow : Int64.minValue.toInt ≤ i.toInt := Int64.minValue_le_toInt i
    have hhigh : i.toInt ≤ Int64.maxValue.toInt := Int64.toInt_le i
    exact ⟨i.toInt, hread, by rw [if_pos ⟨hlow, hhigh⟩, Int64.ofInt_toInt]⟩

/-- The characters of literals: digits and signs. -/
def isLiteralChar (c : Char) : Bool := isDigit c || c = '+' || c = '-'

theorem IsLiteral.chars (h : IsLiteral text i) : ∀ c ∈ text, isLiteralChar c = true := by
  obtain ⟨sign, digits, rfl, -, hdigits, hsign⟩ := h
  intro c hc
  unfold isLiteralChar
  rcases List.mem_append.1 hc with hc | hc
  · rcases hsign with ⟨rfl | rfl, -⟩ | ⟨rfl, -⟩ <;> simp_all
  · rw [hdigits c hc]
    rfl

end ReportQuery.Text
