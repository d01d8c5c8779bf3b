import ReportQuery.Proofs.Text.Keyword
import ReportQuery.Text.Casing
/-!
# Lower case

On ASCII texts, lower case is taken letter by letter (`lower_of_isAscii`). A character
without case of its own is not lost (`mem_lower`); blanks are such characters, and no other
character becomes one (`not_isBlank_lowerChar`).
-/

namespace ReportQuery.Text

variable {c : Char} {text : List Char}

/-- The ASCII characters. -/
def isAscii (c : Char) : Bool := c.toNat < 0x80

/-- What holds of the first 128 code points holds of every ASCII character. -/
theorem of_isAscii {p : Char → Prop} (hall : ∀ n < 0x80, p (Char.ofNat n)) (h : isAscii c = true) :
    p c := by
  have hc := hall c.toNat (of_decide_eq_true h)
  rwa [Char.ofNat_toNat] at hc

theorem isAscii_of_isDigit (h : isDigit c = true) : isAscii c = true := by
  simp only [isDigit, Bool.and_eq_true, decide_eq_true_eq, Char.le_def, UInt32.le_iff_toNat_le] at h
  have hnine : '9'.val.toNat = 57 := rfl
  refine decide_eq_true ?_
  change c.val.toNat < 0x80
  omega

/-- A digit is a word character. -/
theorem isWord_of_isDigit (h : isDigit c = true) : isWord c = true := by
  rw [isWord, if_pos (of_decide_eq_true (isAscii_of_isDigit h)), h]
  simp

theorem lower_of_isAscii (h : ∀ c ∈ text, isAscii c = true) : lower text = text.map Char.toLower := by
  have hafter (before : List Char) : Casing.lowerAfter before text = text.map Char.toLower := by
    induction text generalizing before with
    | nil => rfl
    | cons c cs ih =>
      have hc : c.toNat < 0x80 := of_decide_eq_true (h c (by simp))
      have hsigma : c.toNat ≠ 0x3A3 := by omega
      rw [Casing.lowerAfter, if_neg hsigma, Casing.lowerChar, if_pos hc,
        ih (fun d hd => h d (by simp [hd])) (c :: before), List.map_cons, List.singleton_append]
  exact hafter []

/-- A character that is its own lower-case form. -/
structure HasNoCase (c : Char) : Prop where
  lower : Casing.lowerChar c = [c]
  not_sigma : c.toNat ≠ 0x3A3

/-- **A character without case stays.** -/
theorem mem_lower (hc : HasNoCase c) (h : c ∈ text) : c ∈ lower text := by
  have hafter (before : List Char) : c ∈ Casing.lowerAfter before text := by
    induction text generalizing before with
    | nil => cases h
    | cons d ds ih =>
      rw [Casing.lowerAfter, List.mem_append]
      rcases List.mem_cons.1 h with rfl | h
      · rw [if_neg hc.not_sigma, hc.lower]
        simp
      · exact .inr (ih h _)
  exact hafter []

theorem hasNoCase_of_isBlank (h : isBlank c = true) : HasNoCase c := by
  have hall : ∀ n ∈ blanks, Casing.lowerChar (Char.ofNat n) = [Char.ofNat n] ∧
      (Char.ofNat n).toNat ≠ 0x3A3 := by decide +kernel
  obtain ⟨hlower, hsigma⟩ :=
    of_isBlank (p := fun c => Casing.lowerChar c = [c] ∧ c.toNat ≠ 0x3A3) hall h
  exact ⟨hlower, hsigma⟩

/-- A spelling without the two letters that have more than two cases is the keyword in
lower case. -/
theorem lower_of_spells {keyword spelling : List Char} (h : Spells keyword spelling)
    (hletters : keyword.all (fun k => isAsciiLetter k && k ≠ 's' && k ≠ 'k') = true) :
    lower spelling = keyword := by
  have hplain : ∀ k ∈ keyword, isAsciiLetter k = true ∧ k ≠ 's' ∧ k ≠ 'k' := by
    simpa only [List.all_eq_true, Bool.and_eq_true, decide_eq_true_eq, and_assoc] using hletters
  have hmap : spelling.map Char.toLower = keyword :=
    (spells_iff_of_plain fun k hk => (hplain k hk).2).1 h
  have hascii : ∀ c ∈ spelling, isAscii c = true := by
    intro c hc
    have hletter : isAsciiLetter c.toLower = true :=
      (hplain _ (hmap ▸ List.mem_map_of_mem hc)).1
    exact decide_eq_true (toNat_lt_of_isAsciiLetter (isAsciiLetter_of_toLower hletter))
  rw [lower_of_isAscii hascii, hmap]

/-! ## Blanks -/

/-- A code point is that of its character, which is otherwise the first. -/
theorem toNat_ofNat (n : Nat) : (Char.ofNat n).toNat = n ∨ (Char.ofNat n).toNat = 0 := by
  by_cases hvalid : n.isValidChar
  · rw [Char.ofNat, dif_pos hvalid]
    exact .inl rfl
  · rw [Char.ofNat, dif_neg hvalid]
    exact .inr rfl

/-- **No character becomes a blank** in lower case. -/
theorem not_isBlank_lowerChar {d : Char} (hc : isBlank c = false) (h : d ∈ Casing.lowerChar c) :
    isBlank d = false := by
  unfold Casing.lowerChar at h
  split at h
  · next hascii =>
    have hall : ∀ n < 0x80, isBlank (Char.ofNat n) = false →
        isBlank (Char.ofNat n).toLower = false := by decide +kernel
    rw [List.mem_singleton.1 h]
    exact of_isAscii (p := fun c => isBlank c = false → isBlank c.toLower = false) hall
      (decide_eq_true hascii) hc
  · split at h
    · have hall : ∀ d ∈ ['i', Char.ofNat 0x307], isBlank d = false :=
        List.forall_mem_cons.2 ⟨by decide, List.forall_mem_singleton.2 (by decide)⟩
      exact hall d h
    · rw [List.mem_singleton.1 h]
      -- no run of the table has a blank among its images
      have hruns : ∀ r ∈ Casing.lowerRuns, ∀ b ∈ blanks,
          ¬ ((r.first : Int) ≤ b - r.shift ∧ (b : Int) - r.shift ≤ r.last) := by decide +kernel
      have hzero : ∀ b ∈ blanks, b ≠ 0 := by decide
      unfold Casing.Run.image
      split
      · next r hfind =>
        have hmem := List.mem_of_find?_eq_some hfind
        have hin := List.find?_some hfind
        simp only [Bool.and_eq_true, decide_eq_true_eq] at hin
        by_contra hblank
        rw [Bool.not_eq_false, isBlank_iff] at hblank
        have hne := hzero _ hblank
        have himage := (toNat_ofNat ((c.toNat : Int) + r.shift).toNat).resolve_right hne
        rw [himage] at hblank hne
        exact hruns r hmem _ hblank ⟨by omega, by omega⟩
      · rw [Char.ofNat_toNat]
        exact hc

theorem lowerAfter_ne_nil (before : List Char) (h : text ≠ []) :
    Casing.lowerAfter before text ≠ [] := by
  obtain ⟨c, cs, rfl⟩ := List.exists_cons_of_ne_nil h
  have hchar : Casing.lowerChar c ≠ [] := by
    unfold Casing.lowerChar
    split
    · simp
    · split <;> simp
  unfold Casing.lowerAfter
  split <;> simp [hchar]

/-- A text that does not end with a blank does not do so in lower case. -/
theorem getLast?_lower (h : ∀ c ∈ text.getLast?, isBlank c = false) :
    ∀ c ∈ (lower text).getLast?, isBlank c = false := by
  have hafter (before : List Char) :
      ∀ c ∈ (Casing.lowerAfter before text).getLast?, isBlank c = false := by
    induction text generalizing before with
    | nil => simp [Casing.lowerAfter]
    | cons d ds ih =>
      unfold Casing.lowerAfter
      by_cases hds : ds = []
      · subst hds
        have hd : isBlank d = false := h d rfl
        rw [Casing.lowerAfter, List.append_nil]
        intro c hc
        split at hc
        · have hsigma : ∀ c ∈ [Char.ofNat 0x3C2, Char.ofNat 0x3C3], isBlank c = false :=
            List.forall_mem_cons.2 ⟨by decide, List.forall_mem_singleton.2 (by decide)⟩
          refine hsigma c ?_
          have hmem := List.mem_of_getLast? hc
          split at hmem <;> simp_all
        · exact not_isBlank_lowerChar hd (List.mem_of_getLast? hc)
      · rw [List.getLast?_append_of_ne_nil _ (lowerAfter_ne_nil _ hds)]
        refine ih (fun c hc => h c ?_) (d :: before)
        obtain ⟨e, es, rfl⟩ := List.exists_cons_of_ne_nil hds
        rw [List.getLast?_cons_cons]
        exact hc
  exact hafter []

end ReportQuery.Text
