import ReportQuery.Proofs.Query.Layout
import ReportQuery.Proofs.Query.Plain
import ReportQuery.Proofs.Text.Integer
import ReportQuery.Proofs.Text.Lower
import ReportQuery.Query.SelectItem
/-!
# The documented grammar

What select items are made of, as it is written: dotted paths, customizers, aliases and
keywords in any case. Each is made of words without comment marks, and the pass that
removes it takes it whole (`WrittenCustomizer.customizerLength_text`,
`WrittenLabel.aliasLength_text`).
-/

namespace ReportQuery.Query

open Text

variable {c : Char}

/-! ## Characters -/

/-- The characters of the segments of a path. -/
def isSegmentChar (c : Char) : Bool := ('a' ≤ c && c ≤ 'z') || isDigit c || c = '_'

/-- The characters of aliases. -/
def isAliasChar (c : Char) : Bool := isAsciiLetter c || isDigit c || c = '_'

/-- The characters of paths. -/
def isPathChar (c : Char) : Bool := isSegmentChar c || c = '.'

/-- The characters of paths and customizers. -/
def isExpressionChar (c : Char) : Bool := isPathChar c || c = '~' || c = '-' || c = ':'

theorem isAliasChar_of_isSegmentChar (h : isSegmentChar c = true) : isAliasChar c = true := by
  simp only [isSegmentChar, isAliasChar, isAsciiLetter, Bool.or_eq_true] at h ⊢
  tauto

theorem isAscii_of_isAliasChar (h : isAliasChar c = true) : isAscii c = true := by
  simp only [isAliasChar, Bool.or_eq_true, decide_eq_true_eq] at h
  rcases h with (h | h) | rfl
  · exact decide_eq_true (toNat_lt_of_isAsciiLetter h)
  · exact isAscii_of_isDigit h
  · decide

theorem isWord_of_isAliasChar (h : isAliasChar c = true) : isWord c = true := by
  have hascii : c.toNat < 0x80 := of_decide_eq_true (isAscii_of_isAliasChar h)
  rw [isWord, if_pos hascii]
  exact h

theorem isPathChar_of_isSegmentChar (h : isSegmentChar c = true) : isPathChar c = true := by
  simp [isPathChar, h]

theorem isExpressionChar_of_isPathChar (h : isPathChar c = true) : isExpressionChar c = true := by
  simp [isExpressionChar, h]

theorem isExpressionChar_of_isDigit (h : isDigit c = true) : isExpressionChar c = true :=
  isExpressionChar_of_isPathChar <| isPathChar_of_isSegmentChar <| by simp [isSegmentChar, h]

theorem isAscii_of_isExpressionChar (h : isExpressionChar c = true) : isAscii c = true := by
  simp only [isExpressionChar, isPathChar, Bool.or_eq_true, decide_eq_true_eq] at h
  rcases h with (((h | rfl) | rfl) | rfl) | rfl
  · exact isAscii_of_isAliasChar (isAliasChar_of_isSegmentChar h)
  all_goals decide

/-- The characters of an expression are no blanks and have no upper case. -/
theorem isBlank_toLower_of_isExpressionChar (h : isExpressionChar c = true) :
    isBlank c = false ∧ c.toLower = c := by
  have hall : ∀ n < 0x80, isExpressionChar (Char.ofNat n) = true →
      isBlank (Char.ofNat n) = false ∧ (Char.ofNat n).toLower = Char.ofNat n := by decide +kernel
  exact of_isAscii (p := fun c => isExpressionChar c = true → isBlank c = false ∧ c.toLower = c) hall
    (isAscii_of_isExpressionChar h) h

theorem isAliasChar_toLower (h : isAliasChar c = true) : isAliasChar c.toLower = true := by
  have hall : ∀ n < 0x80, isAliasChar (Char.ofNat n) = true →
      isAliasChar (Char.ofNat n).toLower = true := by decide +kernel
  exact of_isAscii (p := fun c => isAliasChar c = true → isAliasChar c.toLower = true) hall
    (isAscii_of_isAliasChar h) h

/-- A character that is not of a class stands in no text of the class. -/
theorem not_mem_of_forall {text : List Char} {p : Char → Bool} (h : ∀ c ∈ text, p c = true)
    (hc : p c = false) : c ∉ text := by
  intro hmem
  rw [h c hmem] at hc
  cases hc

/-- A run of word characters is a word without comment marks. -/
theorem isPlainWord_of_isWord {word : List Char} (hne : word ≠ [])
    (h : ∀ c ∈ word, isWord c = true) : IsPlainWord word := by
  have hdashes : word.count '-' = 0 := List.count_eq_zero.2 (not_mem_of_forall h (by decide))
  exact ⟨⟨hne, fun c hc => isBlank_of_isWord (h c hc)⟩, not_mem_of_forall h (by decide), by omega⟩

theorem isWordText_of_isExpressionChar {word : List Char} (hne : word ≠ [])
    (h : ∀ c ∈ word, isExpressionChar c = true) : IsWordText word :=
  ⟨hne, fun c hc => (isBlank_toLower_of_isExpressionChar (h c hc)).1⟩

/-! ## Paths, customizers and aliases -/

/-- A segment of a path. -/
structure Segment where
  text : List Char
  ne_nil : text ≠ []
  chars : ∀ c ∈ text, isSegmentChar c = true

namespace Segment

theorem isWord (s : Segment) : ∀ c ∈ s.text, Text.isWord c = true := fun c hc =>
  isWord_of_isAliasChar (isAliasChar_of_isSegmentChar (s.chars c hc))

theorem isPlainWord (s : Segment) : IsPlainWord s.text := isPlainWord_of_isWord s.ne_nil s.isWord

end Segment

/-- Segments with dots between them. -/
structure DottedPath where
  first : Segment
  rest : List Segment

namespace DottedPath

/-- A path as it is written. -/
def text (p : DottedPath) : List Char := join ['.'] ((p.first :: p.rest).map Segment.text)

theorem chars (p : DottedPath) : ∀ c ∈ p.text, isPathChar c = true := by
  intro c hc
  rcases mem_join.1 hc with ⟨part, hpart, hc⟩ | ⟨hc, -⟩
  · obtain ⟨segment, -, rfl⟩ := List.mem_map.1 hpart
    exact isPathChar_of_isSegmentChar (segment.chars c hc)
  · rw [List.mem_singleton.1 hc]
    decide

theorem ne_nil (p : DottedPath) : p.text ≠ [] := by
  obtain ⟨c, cs, hfirst⟩ := List.exists_cons_of_ne_nil p.first.ne_nil
  rw [text, List.map_cons, hfirst, ← cons_join]
  simp

end DottedPath

/-- A customizer of a written item. -/
inductive WrittenCustomizer where
  /-- A part of a resource name, by its index. -/
  | index (i : Int64)
  /-- A nested field of a struct. -/
  | nested (path : DottedPath)

namespace WrittenCustomizer

/-- A customizer as it is written. -/
def text : WrittenCustomizer → List Char
  | index i => '~' :: intDigits i.toInt
  | nested path => ':' :: path.text

/-- What is read for a customizer. -/
def parsed : WrittenCustomizer → Customizer
  | index i => .resourceIndex i
  | nested path => .nestedField (String.ofList path.text)

theorem isExpressionChar_of_mem_intDigits {i : Int} (hc : c ∈ intDigits i) :
    isExpressionChar c = true := by
  rcases isDigit_or_eq_of_mem_intDigits hc with hc | rfl
  · exact isExpressionChar_of_isDigit hc
  · decide

theorem chars (z : WrittenCustomizer) : ∀ c ∈ z.text, isExpressionChar c = true := by
  intro c hc
  cases z with
  | index i =>
    rcases List.mem_cons.1 hc with rfl | hc
    · decide
    · exact isExpressionChar_of_mem_intDigits hc
  | nested path =>
    rcases List.mem_cons.1 hc with rfl | hc
    · decide
    · exact isExpressionChar_of_isPathChar (path.chars c hc)

/-- The only dash of a customizer is the minus of its index. -/
theorem count_dash_le (z : WrittenCustomizer) : z.text.count '-' ≤ 1 := by
  cases z with
  | index i =>
    have hdigits (n : Nat) : (natDigits n).count '-' = 0 := List.count_eq_zero.2 <|
      not_mem_of_forall (fun c hc => isDigit_of_mem_natDigits hc) (by decide)
    obtain ⟨n, h | h⟩ := intDigits_eq i.toInt
    · simp [text, h, hdigits n]
    · simp [text, h, hdigits n]
  | nested path =>
    have hpath : path.text.count '-' = 0 := List.count_eq_zero.2 <|
      not_mem_of_forall path.chars (by decide)
    simp [text, hpath]

theorem ne_nil (z : WrittenCustomizer) : z.text ≠ [] := by
  cases z <;> simp [text]

/-- The customizer pass takes a whole customizer. -/
theorem customizerLength_text (z : WrittenCustomizer) : customizerLength z.text = z.text.length := by
  cases z with
  | index i =>
    have hword (n : Nat) : (natDigits n).takeWhile isWord = natDigits n :=
      List.takeWhile_eq_self_iff.2 fun c hc => isWord_of_isDigit (isDigit_of_mem_natDigits hc)
    obtain ⟨n, h | h⟩ := intDigits_eq i.toInt
    · have hhead : (natDigits n).head? ≠ some '-' := fun hhead =>
        absurd (isDigit_of_mem_natDigits (List.mem_of_head? hhead)) (by decide)
      rw [text, h, customizerLength_tilde hhead, hword, if_neg (natDigits_ne_nil n),
        List.length_cons, Nat.add_comm]
    · rw [text, h, customizerLength_minus, hword, if_neg (natDigits_ne_nil n),
        List.length_cons, List.length_cons, Nat.add_comm]
  | nested path =>
    have hpath : (path.text.takeWhile fun c => !isBlank c && c ≠ ',') = path.text := by
      refine List.takeWhile_eq_self_iff.2 fun c hc => ?_
      have hchar := path.chars c hc
      have hblank := (isBlank_toLower_of_isExpressionChar (isExpressionChar_of_isPathChar hchar)).1
      have hcomma : c ≠ ',' := fun hcomma => not_mem_of_forall path.chars (by decide) (hcomma ▸ hc)
      simp [hblank, hcomma]
    rw [text, customizerLength_colon, hpath, List.length_cons, Nat.add_comm]

end WrittenCustomizer

/-- A keyword in any case of its letters. -/
structure Keyword (keyword : List Char) where
  text : List Char
  lower : text.map Char.toLower = keyword

namespace Keyword

variable {keyword : List Char}

theorem spells (k : Keyword keyword) : Spells keyword k.text := by
  obtain ⟨text, rfl⟩ := k
  induction text with
  | nil => exact .nil
  | cons c cs ih => exact .cons (by simp [foldsTo]) ih

theorem isAscii (k : Keyword keyword) (hletters : keyword.all isAsciiLetter = true) :
    ∀ c ∈ k.text, Text.isAscii c = true := by
  obtain ⟨text, rfl⟩ := k
  intro c hc
  have hletter := isAsciiLetter_of_toLower (List.all_eq_true.1 hletters _ (List.mem_map_of_mem hc))
  exact decide_eq_true (toNat_lt_of_isAsciiLetter hletter)

theorem isPlainWord (k : Keyword keyword) (hletters : keyword.all isAsciiLetter = true)
    (hne : keyword ≠ []) : IsPlainWord k.text :=
  isPlainWord_of_isWord (k.spells.isWordText hletters hne).1 (k.spells.isWord hletters)

end Keyword

/-- An alias of a written item. It is not called `FROM`. -/
structure WrittenLabel where
  keyword : Keyword ['a', 's']
  name : List Char
  ne_nil : name ≠ []
  chars : ∀ c ∈ name, isAliasChar c = true
  not_from : name.map Char.toLower ≠ ['f', 'r', 'o', 'm']

namespace WrittenLabel

/-- An alias as it is written, with the space before it. -/
def text (l : WrittenLabel) : List Char := ' ' :: (l.keyword.text ++ ' ' :: l.name)

/-- What is read for an alias. -/
def parsed (l : WrittenLabel) : List Char := l.name.map Char.toLower

theorem isPlainWord_keyword (l : WrittenLabel) : IsPlainWord l.keyword.text :=
  l.keyword.isPlainWord (by decide) (by simp)

theorem isWord_name (l : WrittenLabel) : ∀ c ∈ l.name, isWord c = true := fun c hc =>
  isWord_of_isAliasChar (l.chars c hc)

theorem isPlainWord_name (l : WrittenLabel) : IsPlainWord l.name :=
  isPlainWord_of_isWord l.ne_nil l.isWord_name

theorem isWordText_parsed (l : WrittenLabel) : IsWordText l.parsed := by
  refine ⟨fun hnil => l.ne_nil (List.map_eq_nil_iff.1 hnil), fun c hc => ?_⟩
  obtain ⟨d, hd, rfl⟩ := List.mem_map.1 hc
  exact isBlank_of_isWord (isWord_of_isAliasChar (isAliasChar_toLower (l.chars d hd)))

theorem lower_name (l : WrittenLabel) : lower l.name = l.parsed :=
  lower_of_isAscii fun c hc => isAscii_of_isAliasChar (l.chars c hc)

theorem isAscii_text (l : WrittenLabel) : ∀ c ∈ l.text, isAscii c = true := by
  intro c hc
  rw [text, List.mem_cons, List.mem_append, List.mem_cons] at hc
  rcases hc with rfl | hc | rfl | hc
  · decide
  · exact l.keyword.isAscii (by decide) c hc
  · decide
  · exact isAscii_of_isAliasChar (l.chars c hc)

/-- The alias pass takes a whole alias. -/
theorem aliasLength_text (l : WrittenLabel) : aliasLength l.text = l.text.length := by
  have hname : trimStart (' ' :: (l.name ++ [])) = l.name ++ [] :=
    trimStart_cons_append (by decide) l.isPlainWord_name.isWordText
  rw [List.append_nil] at hname
  have hword := l.isWord_name
  have hstarts : startsWord l.name = true := by
    obtain ⟨c, cs, hcons⟩ := List.exists_cons_of_ne_nil l.ne_nil
    rw [hcons]
    exact hword c (by simp [hcons])
  -- the word of the alias reaches to the end, so nothing is left
  have hdrop : l.name.dropWhile isWord = [] := List.dropWhile_eq_nil_iff.2 hword
  have hblank (rest : List Char) : startsBlank (' ' :: rest) = true := rfl
  rw [aliasLength, text, if_pos (hblank _),
    trimStart_cons_append (by decide) l.isPlainWord_keyword.isWordText,
    afterKeyword?_append l.keyword.spells]
  simp only [hname, hstarts, hblank, hdrop]
  rfl

/-- Neither word of an alias is a `FROM`. -/
theorem noFrom (l : WrittenLabel) : NoFrom l.text := by
  intro word hword hspells
  rw [text, words_cons (by decide), words_append (by decide),
    words_of_isWordText l.isPlainWord_keyword.isWordText,
    words_of_isWordText l.isPlainWord_name.isWordText] at hword
  simp only [List.singleton_append, List.mem_cons, List.not_mem_nil, or_false] at hword
  rcases hword with rfl | rfl
  · -- the two keywords differ in length
    have hlength := hspells.length_eq
    rw [l.keyword.spells.length_eq] at hlength
    cases hlength
  · have hlower := lower_of_spells hspells (by decide)
    rw [l.lower_name] at hlower
    exact l.not_from hlower

end WrittenLabel

end ReportQuery.Query
