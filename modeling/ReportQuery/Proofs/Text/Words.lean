import Mathlib.Data.List.Basic
import Mathlib.Data.List.TakeWhile
import ReportQuery.Proofs.Text.Split
/-!
# Words

The words of a text are its longest runs of characters that are not blank. Layout
changes blanks and keeps words: a blank divides the words (`words_append`), and
neither leading blanks nor trailing ones have any (`words_trim`). Texts put
together with a blank have the words of each (`words_join`).
-/

namespace ReportQuery.Text

variable {b c : Char} {text left right gap word : List Char}

/-! ## Runs -/

theorem takeWhile_append_of_head {p : Char → Bool} (hword : ∀ c ∈ word, p c = true)
    (hright : ∀ c ∈ right.head?, p c = false) : (word ++ right).takeWhile p = word := by
  rw [List.takeWhile_append_of_pos hword]
  cases right with
  | nil => simp
  | cons c cs => simp [hright c rfl]

/-- A run ends before what has none of its characters in front. -/
theorem dropWhile_append_of_head {p : Char → Bool} (hright : ∀ c ∈ right.head?, p c = false) :
    (left ++ right).dropWhile p = left.dropWhile p ++ right := by
  induction left with
  | nil =>
    cases right with
    | nil => rfl
    | cons c cs => simp [hright c rfl]
  | cons c cs ih =>
    rw [List.cons_append, List.dropWhile_cons, List.dropWhile_cons, ih]
    split <;> rfl

/-! ## Words -/

/-- The words of a text. -/
def words (text : List Char) : List (List Char) :=
  (text.splitOnP isBlank).filter fun word => word ≠ []

/-- A text that is a word: it has a character and no blank. -/
def IsWordText (word : List Char) : Prop := word ≠ [] ∧ ∀ c ∈ word, isBlank c = false

theorem splitOnP_append_of_pos {p : Char → Bool} (hb : p b = true) :
    (left ++ b :: right).splitOnP p = left.splitOnP p ++ right.splitOnP p := by
  induction left with
  | nil => simp [List.splitOnP_cons_eq_if_modifyHead, hb]
  | cons c cs ih =>
    rw [List.cons_append, List.splitOnP_cons_eq_if_modifyHead, List.splitOnP_cons_eq_if_modifyHead, ih]
    split
    · rfl
    · obtain ⟨part, parts, h⟩ := List.exists_cons_of_ne_nil (List.splitOnP_ne_nil p cs)
      rw [h]
      rfl

theorem splitOnP_of_none {p : Char → Bool} (h : ∀ c ∈ text, p c = false) :
    text.splitOnP p = [text] := by
  induction text with
  | nil => rfl
  | cons c cs ih =>
    rw [List.splitOnP_cons_eq_if_modifyHead, if_neg (by simp [h c (by simp)]),
      ih fun d hd => h d (by simp [hd])]
    rfl

@[simp] theorem words_nil : words [] = [] := rfl

/-- **A blank divides the words.** -/
theorem words_append (hb : isBlank b = true) :
    words (left ++ b :: right) = words left ++ words right := by
  rw [words, splitOnP_append_of_pos hb, List.filter_append, words, words]

theorem words_cons (hb : isBlank b = true) : words (b :: text) = words text := by
  have happend : words ([] ++ b :: text) = words [] ++ words text := words_append hb
  simpa using happend

/-- A text without blanks is its only word. -/
theorem words_of_isWordText (h : IsWordText word) : words word = [word] := by
  rw [words, splitOnP_of_none h.2, List.filter_singleton]
  simp [h.1]

theorem words_gap (h : ∀ c ∈ gap, isBlank c = true) : words (gap ++ text) = words text := by
  induction gap with
  | nil => rfl
  | cons c cs ih =>
    rw [List.cons_append, words_cons (h c (by simp)), ih fun d hd => h d (by simp [hd])]

theorem words_append_gap (h : ∀ c ∈ gap, isBlank c = true) : words (text ++ gap) = words text := by
  cases gap with
  | nil => rw [List.append_nil]
  | cons c cs =>
    rw [words_append (h c (by simp))]
    have hcs : words (cs ++ []) = [] := words_gap fun d hd => h d (by simp [hd])
    rw [List.append_nil] at hcs
    rw [hcs, List.append_nil]

/-- A character in front of a blank, or at the end, is a word of its own. -/
theorem words_cons_of_head (hc : isBlank c = false) (h : ∀ d ∈ text.head?, isBlank d = true) :
    words (c :: text) = [c] :: words text := by
  have hword : IsWordText [c] := ⟨by simp, by simpa using hc⟩
  cases text with
  | nil => rw [words_of_isWordText hword, words_nil]
  | cons d ds =>
    have happend : words ([c] ++ d :: ds) = words [c] ++ words ds := words_append (h d rfl)
    rw [← List.singleton_append, happend, words_of_isWordText hword, words_cons (h d rfl),
      List.singleton_append]

/-- A character in front of another belongs to its word. -/
theorem words_cons_of_word (text : List Char) (hb : isBlank b = false) (hc : isBlank c = false) :
    ∃ word rest, words (c :: text) = word :: rest ∧ words (b :: c :: text) = (b :: word) :: rest := by
  obtain ⟨part, parts, hsplit⟩ := List.exists_cons_of_ne_nil (List.splitOnP_ne_nil isBlank text)
  refine ⟨c :: part, parts.filter fun word => word ≠ [], ?_, ?_⟩
  · rw [words, List.splitOnP_cons_eq_if_modifyHead, if_neg (by simp [hc]), hsplit]
    simp
  · rw [words, List.splitOnP_cons_eq_if_modifyHead, if_neg (by simp [hb]),
      List.splitOnP_cons_eq_if_modifyHead, if_neg (by simp [hc]), hsplit]
    simp

/-- A word with a gap or nothing after it is the first word. -/
theorem words_append_of_head (hword : IsWordText word) (h : ∀ c ∈ text.head?, isBlank c = true) :
    words (word ++ text) = word :: words text := by
  cases text with
  | nil => rw [List.append_nil, words_of_isWordText hword, words_nil]
  | cons c cs =>
    rw [words_append (h c rfl), words_of_isWordText hword, words_cons (h c rfl),
      List.singleton_append]

/-- **What has no blank stands within a word.** -/
theorem exists_word_of_infix {part : List Char} (hpart : IsWordText part) (h : part <:+: text) :
    ∃ word ∈ words text, part <:+: word := by
  obtain ⟨left, right, rfl⟩ := h
  rw [List.append_assoc]
  induction left with
  | nil =>
    -- the first word reaches from the part to the next blank
    have hright := List.takeWhile_append_dropWhile (p := fun c => !isBlank c) (l := right)
    have hword : IsWordText (part ++ right.takeWhile fun c => !isBlank c) := by
      refine ⟨by simp [hpart.1], fun c hc => ?_⟩
      rcases List.mem_append.1 hc with hc | hc
      · exact hpart.2 c hc
      · simpa using List.mem_takeWhile_imp hc
    have hhead : ∀ c ∈ (right.dropWhile fun c => !isBlank c).head?, isBlank c = true := by
      intro c hc
      have hnot := List.head?_dropWhile_not (fun c => !isBlank c) right
      rw [hc] at hnot
      simpa using hnot
    refine ⟨_, ?_, List.infix_append [] part (right.takeWhile fun c => !isBlank c)⟩
    rw [List.nil_append, ← hright, ← List.append_assoc, words_append_of_head hword hhead]
    simp
  | cons c cs ih =>
    obtain ⟨word, hword, hoccurs⟩ := ih
    cases hc : isBlank c with
    | true => exact ⟨word, by rwa [List.cons_append, words_cons hc], hoccurs⟩
    | false =>
      obtain ⟨d, ds, hcons⟩ := List.exists_cons_of_ne_nil
        (show cs ++ (part ++ right) ≠ [] by simp [hpart.1])
      rw [List.cons_append]
      rw [hcons] at hword ⊢
      cases hd : isBlank d with
      | true =>
        refine ⟨word, ?_, hoccurs⟩
        rw [words_cons_of_head hc (by simpa using hd)]
        exact List.mem_cons_of_mem _ hword
      | false =>
        obtain ⟨first, rest, hwords, hwords'⟩ := words_cons_of_word ds hc hd
        rw [hwords, List.mem_cons] at hword
        rw [hwords']
        rcases hword with rfl | hword
        · exact ⟨c :: word, by simp, hoccurs.trans (List.suffix_cons c word).isInfix⟩
        · exact ⟨word, by simp [hword], hoccurs⟩

/-! ## Trimming -/

/-- The blanks at the start are a gap. -/
theorem exists_gap_trimStart (text : List Char) :
    ∃ gap, (∀ c ∈ gap, isBlank c = true) ∧ text = gap ++ trimStart text :=
  ⟨text.takeWhile isBlank, fun _ hc => List.mem_takeWhile_imp hc,
    (List.takeWhile_append_dropWhile).symm⟩

/-- The blanks at the end are a gap. -/
theorem exists_gap_trimEnd (text : List Char) :
    ∃ gap, (∀ c ∈ gap, isBlank c = true) ∧ text = trimEnd text ++ gap := by
  obtain ⟨gap, hgap, h⟩ := exists_gap_trimStart text.reverse
  refine ⟨gap.reverse, fun c hc => hgap c (List.mem_reverse.1 hc), ?_⟩
  rw [trimEnd, ← List.reverse_append]
  exact List.reverse_eq_iff.1 h

theorem isBlank_of_trimStart_eq_nil (h : trimStart text = []) : ∀ c ∈ text, isBlank c = true := by
  obtain ⟨gap, hgap, htext⟩ := exists_gap_trimStart text
  rw [h, List.append_nil] at htext
  rwa [htext]

theorem words_trimStart (text : List Char) : words (trimStart text) = words text := by
  obtain ⟨gap, hgap, h⟩ := exists_gap_trimStart text
  conv_rhs => rw [h, words_gap hgap]

/-- **Trimming keeps the words.** -/
theorem words_trim (text : List Char) : words (trim text) = words text := by
  obtain ⟨gap, hgap, h⟩ := exists_gap_trimEnd (trimStart text)
  rw [trim, ← words_trimStart text]
  conv_rhs => rw [h, words_append_gap hgap]

/-- Only blanks are trimmed. -/
theorem mem_trim (h : c ∈ text) (hc : isBlank c = false) : c ∈ trim text := by
  obtain ⟨start, hstart, hleft⟩ := exists_gap_trimStart text
  obtain ⟨stop, hstop, hright⟩ := exists_gap_trimEnd (trimStart text)
  rw [hleft, hright, List.mem_append, List.mem_append] at h
  rcases h with h | h | h
  · rw [hstart c h] at hc
    cases hc
  · exact h
  · rw [hstop c h] at hc
    cases hc

theorem trimStart_of_head (h : isBlank c = false) : trimStart (c :: text) = c :: text := by
  rw [trimStart, List.dropWhile_cons_of_neg (by simp [h])]

/-- Leading blanks end within a text that has more than blanks. -/
theorem trimStart_append (h : trimStart left ≠ []) :
    trimStart (left ++ right) = trimStart left ++ right := by
  unfold trimStart at h ⊢
  rw [List.dropWhile_append, if_neg (by simpa using h)]

/-- A gap is dropped. -/
theorem trimStart_append_of_eq_nil (h : trimStart left = []) :
    trimStart (left ++ right) = trimStart right := by
  unfold trimStart at h ⊢
  rw [List.dropWhile_append, if_pos (by simpa using h)]

/-- Blanks before a word are dropped. -/
theorem trimStart_gap_append (hgap : ∀ c ∈ gap, isBlank c = true) (hword : IsWordText word) :
    trimStart (gap ++ (word ++ text)) = word ++ text := by
  obtain ⟨c, cs, rfl⟩ := List.exists_cons_of_ne_nil hword.1
  rw [trimStart_append_of_eq_nil (List.dropWhile_eq_nil_iff.2 hgap)]
  exact trimStart_of_head (hword.2 c (by simp))

theorem trimStart_cons_append (hb : isBlank b = true) (hword : IsWordText word) :
    trimStart (b :: (word ++ text)) = word ++ text := by
  have hgap : ∀ c ∈ [b], isBlank c = true := List.forall_mem_singleton.2 hb
  exact trimStart_gap_append hgap hword

theorem isBlank_head_trimStart (h : trimStart text = c :: left) : isBlank c = false := by
  have hhead := List.head?_dropWhile_not isBlank text
  rw [trimStart] at h
  simpa only [h, List.head?_cons] using hhead

theorem trimEnd_append_of_last (h : isBlank c = false) : trimEnd (text ++ [c]) = text ++ [c] := by
  simp [trimEnd, h]

/-- A text that begins and ends with characters that are not blank, or is empty. -/
def IsTrimmed (text : List Char) : Prop :=
  (∀ c ∈ text.head?, isBlank c = false) ∧ ∀ c ∈ text.getLast?, isBlank c = false

theorem trim_of_isTrimmed (h : IsTrimmed text) : trim text = text := by
  rcases text.eq_nil_or_concat' with rfl | ⟨init, last, rfl⟩
  · rfl
  · have hstart : trimStart (init ++ [last]) = init ++ [last] := by
      obtain ⟨first, rest, hcons⟩ := List.exists_cons_of_ne_nil (show init ++ [last] ≠ [] by simp)
      rw [hcons]
      exact trimStart_of_head (h.1 first (by rw [hcons]; rfl))
    rw [trim, hstart, trimEnd_append_of_last (h.2 last (by simp))]

theorem IsWordText.isTrimmed (h : IsWordText word) : IsTrimmed word :=
  ⟨fun c hc => h.2 c (List.mem_of_head? hc), fun c hc => h.2 c (List.mem_of_getLast? hc)⟩

theorem trim_of_isWordText (h : IsWordText word) : trim word = word :=
  trim_of_isTrimmed h.isTrimmed

theorem isTrimmed_trim (text : List Char) : IsTrimmed (trim text) := by
  obtain ⟨gap, -, h⟩ := exists_gap_trimEnd (trimStart text)
  refine ⟨fun c hc => ?_, fun c hc => ?_⟩
  · obtain ⟨rest, hrest⟩ := List.head?_eq_some_iff.1 hc
    rw [← trim, hrest] at h
    exact isBlank_head_trimStart h
  · rw [trim, trimEnd, List.getLast?_reverse] at hc
    obtain ⟨rest, hrest⟩ := List.head?_eq_some_iff.1 hc
    exact isBlank_head_trimStart hrest

/-- What is left after trimming has a character that is not blank, if anything is. -/
theorem exists_mem_of_trim_ne_nil (h : trim text ≠ []) : ∃ c ∈ trim text, isBlank c = false := by
  obtain ⟨c, cs, hcons⟩ := List.exists_cons_of_ne_nil h
  exact ⟨c, by simp [hcons], (isTrimmed_trim text).1 c (by simp [hcons])⟩

/-! ## The first word -/

/-- Blanks are no words. -/
theorem words_of_isBlank (h : ∀ c ∈ text, isBlank c = true) : words text = [] := by
  have hgap : words (text ++ []) = words [] := words_gap h
  rwa [List.append_nil] at hgap

/-- A text of more than blanks is a gap, its first word, and what follows that word. -/
theorem exists_first_word (h : ∃ c ∈ text, isBlank c = false) :
    ∃ gap word rest, text = gap ++ (word ++ rest) ∧ (∀ c ∈ gap, isBlank c = true) ∧
      IsWordText word ∧ ∀ c ∈ rest.head?, isBlank c = true := by
  obtain ⟨gap, hgap, htext⟩ := exists_gap_trimStart text
  have hsplit := List.takeWhile_append_dropWhile (p := fun c => !isBlank c) (l := trimStart text)
  refine ⟨gap, _, _, by rw [hsplit, ← htext], hgap, ⟨?_, fun c hc => ?_⟩, fun c hc => ?_⟩
  · obtain ⟨c, hc, hblank⟩ := h
    cases htrim : trimStart text with
    | nil =>
      rw [isBlank_of_trimStart_eq_nil htrim c hc] at hblank
      cases hblank
    | cons d ds => simp [isBlank_head_trimStart htrim]
  · simpa using List.mem_takeWhile_imp hc
  · have hnot := List.head?_dropWhile_not (fun c => !isBlank c) (trimStart text)
    rw [hc] at hnot
    simpa using hnot

/-- A text is blanks, or it is a gap and a word in front of another text. -/
theorem words_induction {P : List Char → Prop}
    (blank : ∀ text, (∀ c ∈ text, isBlank c = true) → P text)
    (word : ∀ gap word rest, (∀ c ∈ gap, isBlank c = true) → IsWordText word →
      (∀ c ∈ rest.head?, isBlank c = true) → P rest → P (gap ++ (word ++ rest)))
    (text : List Char) : P text := by
  induction hn : text.length using Nat.strongRecOn generalizing text with
  | ind n ih =>
    by_cases h : ∃ c ∈ text, isBlank c = false
    · obtain ⟨gap, first, rest, rfl, hgap, hfirst, hrest⟩ := exists_first_word h
      refine word gap first rest hgap hfirst hrest (ih rest.length ?_ rest rfl)
      have hpos := List.length_pos_iff.2 hfirst.1
      simp only [List.length_append] at hn
      omega
    · exact blank text (by simpa using h)

/-- A word stands in the text, and is a word by itself. -/
theorem of_mem_words (h : word ∈ words text) : word <:+: text ∧ IsWordText word := by
  induction text using words_induction with
  | blank text hblank =>
    rw [words_of_isBlank hblank] at h
    cases h
  | word gap first rest hgap hfirst hrest ih =>
    rw [words_gap hgap, words_append_of_head hfirst hrest, List.mem_cons] at h
    rcases h with rfl | h
    · exact ⟨⟨gap, rest, by simp⟩, hfirst⟩
    · obtain ⟨hoccurs, hword⟩ := ih h
      exact ⟨hoccurs.trans ⟨gap ++ first, [], by simp⟩, hword⟩

/-- The first word starts where the blanks at the start end. -/
theorem head?_trimStart_of_words {first : List Char} {rest : List (List Char)}
    (h : words text = first :: rest) : (trimStart text).head? = first.head? := by
  induction text using words_induction with
  | blank text hblank =>
    rw [words_of_isBlank hblank] at h
    cases h
  | word gap word rest hgap hword hrest ih =>
    rw [words_gap hgap, words_append_of_head hword hrest] at h
    obtain ⟨rfl, -⟩ := List.cons.inj h
    rw [trimStart_gap_append hgap hword, List.head?_append_of_ne_nil _ hword.1]

/-- The words have all characters that are not blank. -/
theorem count_words (hc : isBlank c = false) (text : List Char) :
    (words text).flatten.count c = text.count c := by
  have hnone {gap : List Char} (hgap : ∀ d ∈ gap, isBlank d = true) : gap.count c = 0 :=
    List.count_eq_zero.2 fun hmem => by
      rw [hgap c hmem] at hc
      cases hc
  induction text using words_induction with
  | blank text hblank =>
    rw [words_of_isBlank hblank, hnone hblank]
    rfl
  | word gap word rest hgap hword hrest ih =>
    rw [words_gap hgap, words_append_of_head hword hrest, List.flatten_cons]
    simp only [List.count_append, ih, hnone hgap, Nat.zero_add]

/-! ## Joining -/

/-- **Any blank divides words as well as another.** -/
theorem words_join (hb : isBlank b = true) (parts : List (List Char)) :
    words (join [b] parts) = parts.flatMap words := by
  induction parts with
  | nil => rfl
  | cons part parts ih =>
    by_cases h : parts = []
    · subst h
      simp [join]
    · rw [join_cons h, List.append_assoc, List.singleton_append, words_append hb, ih,
        List.flatMap_cons]

/-- Trimmed parts with spaces between them are a trimmed text. -/
theorem isTrimmed_join {parts : List (List Char)} (h : ∀ part ∈ parts, part ≠ [] ∧ IsTrimmed part) :
    IsTrimmed (join [' '] parts) := by
  induction parts with
  | nil => exact ⟨fun c hc => (by cases hc), fun c hc => (by cases hc)⟩
  | cons part parts ih =>
    obtain ⟨hne, hpart⟩ := h part (by simp)
    by_cases hparts : parts = []
    · rw [hparts]
      exact hpart
    · obtain ⟨second, rest, rfl⟩ := List.exists_cons_of_ne_nil hparts
      have hrest := ih fun p hp => h p (by simp [hp])
      have hjoin : join [' '] (second :: rest) ≠ [] := by
        have hsecond := (h second (by simp)).1
        cases rest <;> simp [join, hsecond]
      rw [join_cons hparts, List.append_assoc]
      refine ⟨fun c hc => hpart.1 c ?_, fun c hc => hrest.2 c ?_⟩
      · rwa [List.head?_append_of_ne_nil _ hne] at hc
      · rwa [List.getLast?_append_of_ne_nil _ (by simp), List.getLast?_append_of_ne_nil _ hjoin] at hc

end ReportQuery.Text
