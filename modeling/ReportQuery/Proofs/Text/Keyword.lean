import Mathlib.Data.List.Forall2
import ReportQuery.Proofs.Text.Words
/-!
# Keywords

A spelling of a keyword is the keyword in any case of its letters (`Spells`), and
`afterKeyword?` finds it at the start of a text. Blanks are no word characters, and the
letters of a spelling are: a spelling is a word of its own.
-/

namespace ReportQuery.Text

variable {k c : Char} {keyword spelling rest text : List Char}

/-! ## Characters -/

theorem eq_ofNat_of_toNat {n : Nat} (h : c.toNat = n) : c = Char.ofNat n := by
  rw [← h, Char.ofNat_toNat]

/-- The code points of blanks. -/
def blanks : List Nat :=
  [0x09, 0x0A, 0x0B, 0x0C, 0x0D, 0x20, 0x85, 0xA0, 0x1680, 0x2000, 0x2001, 0x2002, 0x2003, 0x2004,
    0x2005, 0x2006, 0x2007, 0x2008, 0x2009, 0x200A, 0x2028, 0x2029, 0x202F, 0x205F, 0x3000]

theorem isBlank_iff : isBlank c = true ↔ c.toNat ∈ blanks := by
  simp only [isBlank, blanks, Bool.or_eq_true, Bool.and_eq_true, decide_eq_true_eq, List.mem_cons,
    List.not_mem_nil, or_false]
  omega

/-- What holds of every listed blank holds of every blank. -/
theorem of_isBlank {p : Char → Prop} (hall : ∀ n ∈ blanks, p (Char.ofNat n)) (h : isBlank c = true) :
    p c := by
  have hc := hall c.toNat (isBlank_iff.1 h)
  rwa [Char.ofNat_toNat] at hc

/-- **A blank is no word character.** -/
theorem isWord_of_isBlank (h : isBlank c = true) : isWord c = false := by
  have hall : ∀ n ∈ blanks, isWord (Char.ofNat n) = false := by decide +kernel
  exact of_isBlank (p := fun c => isWord c = false) hall h

theorem isBlank_of_isWord (h : isWord c = true) : isBlank c = false := by
  cases hblank : isBlank c with
  | false => rfl
  | true => rw [isWord_of_isBlank hblank] at h; cases h

theorem toNat_lt_of_isAsciiLetter (h : isAsciiLetter c = true) : c.toNat < 0x80 := by
  simp only [isAsciiLetter, Bool.or_eq_true, Bool.and_eq_true, decide_eq_true_eq, Char.le_def,
    UInt32.le_iff_toNat_le] at h
  have hz : 'z'.val.toNat = 122 := rfl
  have hZ : 'Z'.val.toNat = 90 := rfl
  change c.val.toNat < 0x80
  omega

/-- An ASCII letter is a word character. -/
theorem isWord_of_isAsciiLetter (h : isAsciiLetter c = true) : isWord c = true := by
  rw [isWord, if_pos (toNat_lt_of_isAsciiLetter h), h, Bool.true_or, Bool.true_or]

theorem isAsciiLetter_of_toLower (h : isAsciiLetter c.toLower = true) : isAsciiLetter c = true := by
  delta Char.toLower at h
  split at h
  · next hupper =>
    simp only [isAsciiLetter, Bool.or_eq_true, Bool.and_eq_true, decide_eq_true_eq]
    exact .inr hupper
  · exact h

/-- What counts as an ASCII letter is a word character. -/
theorem isWord_of_foldsTo (hk : isAsciiLetter k = true) (h : foldsTo k c = true) :
    isWord c = true := by
  simp only [foldsTo, Bool.or_eq_true, Bool.and_eq_true, decide_eq_true_eq] at h
  rcases h with (h | ⟨-, h⟩) | ⟨-, h⟩
  · rw [← h] at hk
    exact isWord_of_isAsciiLetter (isAsciiLetter_of_toLower hk)
  · rw [eq_ofNat_of_toNat h]
    decide +kernel
  · rw [eq_ofNat_of_toNat h]
    decide +kernel

theorem foldsTo_of_not_isWord (hk : isAsciiLetter k = true) (hc : isWord c = false) :
    foldsTo k c = false := by
  cases h : foldsTo k c with
  | false => rfl
  | true => rw [isWord_of_foldsTo hk h] at hc; cases hc

/-! ## Spellings -/

/-- A spelling of a keyword: the keyword in any case of its letters. -/
def Spells (keyword spelling : List Char) : Prop :=
  List.Forall₂ (fun k c => foldsTo k c = true) keyword spelling

/-- **A keyword is found where one of its spellings stands.** -/
theorem afterKeyword?_eq_some :
    afterKeyword? keyword text = some rest ↔ ∃ spelling, Spells keyword spelling ∧
      text = spelling ++ rest := by
  induction keyword generalizing text with
  | nil =>
    rw [afterKeyword?, Option.some.injEq]
    refine ⟨fun h => ⟨[], .nil, h⟩, fun ⟨spelling, hspells, h⟩ => ?_⟩
    cases hspells
    exact h
  | cons k ks ih =>
    cases text with
    | nil =>
      refine ⟨fun h => (by cases h), fun ⟨spelling, hspells, h⟩ => ?_⟩
      cases hspells
      cases h
    | cons c cs =>
      rw [afterKeyword?]
      constructor
      · intro h
        obtain ⟨hfold, hrest⟩ := Option.ite_none_right_eq_some.1 h
        obtain ⟨spelling, hspells, rfl⟩ := ih.1 hrest
        exact ⟨c :: spelling, .cons hfold hspells, rfl⟩
      · rintro ⟨spelling, hspells, htext⟩
        cases hspells with
        | cons hfold hspells =>
          rw [List.cons_append, List.cons.injEq] at htext
          obtain ⟨rfl, rfl⟩ := htext
          rw [if_pos hfold]
          exact ih.2 ⟨_, hspells, rfl⟩

/-- Two keywords behind each other are found one after the other. -/
theorem afterKeyword?_append_keyword (keyword keyword' text : List Char) :
    afterKeyword? (keyword ++ keyword') text =
      (afterKeyword? keyword text).bind (afterKeyword? keyword') := by
  induction keyword generalizing text with
  | nil => rfl
  | cons k ks ih =>
    cases text with
    | nil => rfl
    | cons c cs =>
      rw [List.cons_append, afterKeyword?, afterKeyword?, ih]
      split
      · rfl
      · rfl

/-- No keyword starts where a text stops or goes on with no word character. -/
theorem afterKeyword?_eq_none (hk : isAsciiLetter k = true)
    (hstop : ∀ c ∈ text.head?, isWord c = false) : afterKeyword? (k :: keyword) text = none := by
  cases text with
  | nil => rfl
  | cons c cs =>
    rw [afterKeyword?, foldsTo_of_not_isWord hk (hstop c rfl)]
    rfl

/-- In a keyword without the two letters that have more than two cases, a spelling is the keyword
but for upper case. -/
theorem spells_iff_of_plain (h : ∀ k ∈ keyword, k ≠ 's' ∧ k ≠ 'k') :
    Spells keyword spelling ↔ spelling.map Char.toLower = keyword := by
  induction keyword generalizing spelling with
  | nil => simp [Spells]
  | cons k ks ih =>
    obtain ⟨⟨hs, hkelvin⟩, hrest⟩ := List.forall_mem_cons.1 h
    cases spelling with
    | nil => simp [Spells]
    | cons c cs =>
      have hfold : foldsTo k c = true ↔ c.toLower = k := by simp [foldsTo, hs, hkelvin]
      rw [Spells, List.forall₂_cons, hfold, List.map_cons, List.cons.injEq]
      exact and_congr_right fun _ => ih hrest

theorem afterKeyword?_append (h : Spells keyword spelling) :
    afterKeyword? keyword (spelling ++ rest) = some rest :=
  afterKeyword?_eq_some.2 ⟨spelling, h, rfl⟩

namespace Spells

theorem length_eq (h : Spells keyword spelling) : spelling.length = keyword.length :=
  (List.Forall₂.length_eq h).symm

/-- The characters of a spelling are word characters. -/
theorem isWord (h : Spells keyword spelling) (hletters : keyword.all isAsciiLetter = true) :
    ∀ c ∈ spelling, Text.isWord c = true := by
  induction h with
  | nil => simp
  | cons hfold _ ih =>
    rw [List.all_cons, Bool.and_eq_true] at hletters
    intro c hc
    rcases List.mem_cons.1 hc with rfl | hc
    · exact isWord_of_foldsTo hletters.1 hfold
    · exact ih hletters.2 c hc

/-- A text with a dot is no spelling. -/
theorem not_of_dot (hdot : '.' ∈ spelling) (hletters : keyword.all isAsciiLetter = true) :
    ¬ Spells keyword spelling :=
  fun h => absurd (h.isWord hletters '.' hdot) (by decide)

/-- A spelling is a word. -/
theorem isWordText (h : Spells keyword spelling) (hletters : keyword.all isAsciiLetter = true)
    (hne : keyword ≠ []) : IsWordText spelling := by
  refine ⟨fun hnil => hne ?_, fun c hc => isBlank_of_isWord (h.isWord hletters c hc)⟩
  rw [hnil] at h
  cases h
  rfl

end Spells

end ReportQuery.Text
