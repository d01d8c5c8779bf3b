import Mathlib.Data.List.Basic
import ReportQuery.Proofs.Query.Plain
/-!
# What is left to remove

Where a piece is removed, its neighbours come together. The pass over the aliases leaves no alias
(`not_hasAlias_without`): what follows one does not go on with a word. The pass over the customizers
can leave both, an alias where it takes a customizer from behind an `as` (`HasAlias.behindAs`), and
a customizer where it takes one from behind a `-` or a `~` (`HasCustomizer.behindMark`).
-/

namespace ReportQuery.Query

open Text

variable {b c : Char} {text list left right gap word space rest : List Char}
variable {length : List Char → Nat}

/-! ## Aliases and customizers within a text -/

/-- The spellings of `AS`. -/
abbrev SpellsAs (word : List Char) : Prop := Spells ['a', 's'] word

/-- The parts of a text with an alias at its start: blanks, an `AS`, blanks, and a word. -/
structure AliasParts (text gap word space : List Char) (c : Char) (rest : List Char) : Prop where
  eq : text = gap ++ (word ++ (space ++ c :: rest))
  gap_ne : gap ≠ []
  gap_blank : ∀ d ∈ gap, isBlank d = true
  spells : SpellsAs word
  space_ne : space ≠ []
  space_blank : ∀ d ∈ space, isBlank d = true
  starts : isWord c = true

/-- An alias starts somewhere in a text. -/
def HasAlias (text : List Char) : Prop :=
  ∃ t, t <:+ text ∧ ∃ gap word space c rest, AliasParts t gap word space c rest

/-- A customizer starts a text. -/
inductive StartsCustomizer : List Char → Prop
  | arrow (rest : List Char) : StartsCustomizer ('-' :: '>' :: rest)
  | index {c : Char} (hc : isWord c = true) (rest : List Char) : StartsCustomizer ('~' :: c :: rest)
  | negative {c : Char} (hc : isWord c = true) (rest : List Char) :
    StartsCustomizer ('~' :: '-' :: c :: rest)
  | path (rest : List Char) : StartsCustomizer (':' :: rest)

/-- A customizer starts somewhere in a text. -/
def HasCustomizer (text : List Char) : Prop := ∃ t, t <:+ text ∧ StartsCustomizer t

theorem HasAlias.mono (h : HasAlias left) (hstarts : left <+: text) : HasAlias text := by
  obtain ⟨t, ⟨front, rfl⟩, gap, word, space, c, rest, hparts⟩ := h
  obtain ⟨right, rfl⟩ := hstarts
  refine ⟨t ++ right, ⟨front, by simp⟩, gap, word, space, c, rest ++ right, ?_, hparts.gap_ne,
    hparts.gap_blank, hparts.spells, hparts.space_ne, hparts.space_blank, hparts.starts⟩
  rw [hparts.eq]
  simp

theorem StartsCustomizer.append (h : StartsCustomizer left) (right : List Char) :
    StartsCustomizer (left ++ right) := by
  cases h with
  | arrow rest => exact .arrow _
  | index hc rest => exact .index hc _
  | negative hc rest => exact .negative hc _
  | path rest => exact .path _

theorem HasCustomizer.mono (h : HasCustomizer left) (hstarts : left <+: text) :
    HasCustomizer text := by
  obtain ⟨t, ⟨front, rfl⟩, hcustomizer⟩ := h
  obtain ⟨right, rfl⟩ := hstarts
  exact ⟨t ++ right, ⟨front, by simp⟩, hcustomizer.append right⟩

/-! ## Where the passes find them -/

theorem startsBlank_trimStart (text : List Char) : startsBlank (trimStart text) = false := by
  cases h : trimStart text with
  | nil => rfl
  | cons c cs => exact isBlank_head_trimStart h

theorem AliasParts.aliasLength_pos (h : AliasParts text gap word space c rest) :
    0 < aliasLength text := by
  have hwordText : IsWordText word := h.spells.isWordText isAsciiLetter_as (by simp)
  have hc : IsWordText [c] := ⟨by simp, by simpa using isBlank_of_isWord h.starts⟩
  have htrim : trimStart text = word ++ (space ++ c :: rest) := by
    rw [h.eq, trimStart_gap_append h.gap_blank hwordText]
  have hspace : trimStart (space ++ ([c] ++ rest)) = [c] ++ rest :=
    trimStart_gap_append h.space_blank hc
  rw [List.singleton_append] at hspace
  have hblank : startsBlank text = true := by
    rw [h.eq]
    exact startsBlank_gap_append h.gap_ne h.gap_blank
  have hblank' : startsBlank (space ++ c :: rest) = true :=
    startsBlank_gap_append h.space_ne h.space_blank
  have hdrop : (rest.dropWhile isWord).length ≤ rest.length := (List.dropWhile_sublist _).length_le
  rw [aliasLength, if_pos hblank, htrim, afterKeyword?_append h.spells]
  simp only [hblank', hspace, startsWord, h.starts, Bool.and_self, if_true,
    List.dropWhile_cons_of_pos h.starts]
  rw [h.eq]
  simp only [List.length_append, List.length_cons]
  omega

/-- **An alias is found where its parts stand.** -/
theorem aliasLength_pos_iff :
    0 < aliasLength text ↔ ∃ gap word space c rest, AliasParts text gap word space c rest := by
  refine ⟨fun h => ?_, fun ⟨gap, word, space, c, rest, h⟩ => h.aliasLength_pos⟩
  rw [aliasLength] at h
  split at h
  · next hblank =>
    split at h
    · next after hafter =>
      split at h
      · next hstarts =>
        rw [Bool.and_eq_true] at hstarts
        obtain ⟨word, hword, htrim⟩ := afterKeyword?_eq_some.1 hafter
        obtain ⟨gap, hgap, htext⟩ := exists_gap_trimStart text
        obtain ⟨space, hspace, hafter⟩ := exists_gap_trimStart after
        obtain ⟨c, rest, hrest⟩ : ∃ c rest, trimStart after = c :: rest := by
          cases htrim : trimStart after with
          | nil =>
            rw [htrim] at hstarts
            cases hstarts.2
          | cons c rest => exact ⟨c, rest, rfl⟩
        have hc : isWord c = true := by
          rw [hrest] at hstarts
          exact hstarts.2
        refine ⟨gap, word, space, c, rest, ⟨?_, ?_, hgap, hword, ?_, hspace, hc⟩⟩
        · rw [← hrest, ← hafter, ← htrim]
          exact htext
        · rintro rfl
          rw [htext, List.nil_append, startsBlank_trimStart] at hblank
          cases hblank
        · rintro rfl
          rw [hafter, List.nil_append, startsBlank_trimStart] at hstarts
          cases hstarts.1
      · omega
    · omega
  · omega

/-- **A customizer is found where one starts.** -/
theorem customizerLength_pos_iff : 0 < customizerLength text ↔ StartsCustomizer text := by
  have hword (rest : List Char) : rest.takeWhile isWord ≠ [] ↔
      ∃ c cs, rest = c :: cs ∧ isWord c = true := by
    cases rest with
    | nil => simp
    | cons c cs => by_cases hc : isWord c = true <;> simp [hc]
  constructor
  · intro h
    unfold customizerLength at h
    split at h
    · exact .arrow _
    · next rest =>
      obtain ⟨c, cs, rfl, hc⟩ := (hword rest).1 fun hnil => by simp [hnil] at h
      exact .negative hc cs
    · next rest _ =>
      obtain ⟨c, cs, rfl, hc⟩ := (hword rest).1 fun hnil => by simp [hnil] at h
      exact .index hc cs
    · exact .path _
    · omega
  · rintro (rest | ⟨hc, rest⟩ | ⟨hc, rest⟩ | rest)
    · rw [customizerLength_arrow]
      omega
    · next c =>
      have hdash : (c :: rest).head? ≠ some '-' := by
        rintro ⟨⟩
        exact absurd hc (by decide)
      rw [customizerLength_tilde hdash, if_neg ((hword _).2 ⟨c, rest, rfl, hc⟩)]
      omega
    · next c =>
      rw [customizerLength_minus, if_neg ((hword _).2 ⟨c, rest, rfl, hc⟩)]
      omega
    · rw [customizerLength_colon]
      omega

theorem StartsCustomizer.startsWord (h : StartsCustomizer text) : startsWord text = false := by
  cases h <;> rfl

/-! ## Texts that a pass leaves as they are -/

/-- Where a piece starts, the text gets shorter. -/
theorem length_without_lt (hbound : ∀ t, length t ≤ t.length) {t : List Char} (ht : t <:+ text)
    (hpos : 0 < length t) : (without length text).length < text.length := by
  induction text using parts_induction hbound with
  | nil =>
    have hle := hbound t
    rw [List.suffix_nil.1 ht] at hpos hle
    exact absurd hpos (Nat.not_lt.2 hle)
  | kept c cs hzero ih =>
    rw [without_kept hzero]
    rcases List.suffix_cons_iff.1 ht with rfl | ht
    · omega
    · exact Nat.succ_lt_succ (ih ht)
  | piece p t' hp hlength ih =>
    have hle := (without_sublist hbound t').length_le
    have hlt := List.length_pos_of_ne_nil hp
    rw [without_piece hp hlength, List.length_append]
    omega

/-- **A pass removes nothing** just if no piece starts in the text. -/
theorem without_eq_self_iff (hbound : ∀ t, length t ≤ t.length) :
    without length text = text ↔ ∀ t, t <:+ text → length t = 0 := by
  constructor
  · intro heq t ht
    by_contra hne
    have hlt := length_without_lt hbound ht (Nat.pos_of_ne_zero hne)
    rw [heq] at hlt
    omega
  · intro h
    have hrun : without length (text ++ []) = text ++ without length [] :=
      replace_run fun left c right htext => by
        rw [List.append_nil]
        exact h _ ⟨left, htext.symm⟩
    simpa [without] using hrun

theorem without_aliasLength_eq_self_iff : without aliasLength text = text ↔ ¬ HasAlias text := by
  simp only [without_eq_self_iff aliasLength_le, HasAlias, ← aliasLength_pos_iff, not_exists,
    not_and, Nat.not_lt, Nat.le_zero_eq]

theorem without_customizerLength_eq_self_iff :
    without customizerLength text = text ↔ ¬ HasCustomizer text := by
  simp only [without_eq_self_iff customizerLength_le, HasCustomizer, ← customizerLength_pos_iff,
    not_exists, not_and, Nat.not_lt, Nat.le_zero_eq]

/-- **The list stays** just if it has neither aliases nor customizers. -/
theorem plainList_eq_self_iff : plainList list = list ↔ ¬ HasAlias list ∧ ¬ HasCustomizer list := by
  rw [← without_aliasLength_eq_self_iff, ← without_customizerLength_eq_self_iff]
  constructor
  · intro h
    -- a list that the first pass has made shorter is not made longer again
    have halias : without aliasLength list = list := by
      rw [without_aliasLength_eq_self_iff]
      rintro ⟨t, ht, hparts⟩
      have hlt := length_without_lt aliasLength_le ht (aliasLength_pos_iff.2 hparts)
      have hle := (without_sublist customizerLength_le (without aliasLength list)).length_le
      rw [← plainList, h] at hle
      omega
    rw [plainList, halias] at h
    exact ⟨halias, h⟩
  · rintro ⟨halias, hcustomizer⟩
    rw [plainList, halias, hcustomizer]

/-! ## What the passes leave -/

/-- An `AS` in a text after a pass was an `AS` before. What follows it is what followed it then, or
a piece did. -/
theorem exists_as_of_without (hbound : ∀ t, length t ≤ t.length)
    (hstart : ∀ t, 0 < length t → startsWord t = false)
    (hdrop : ∀ t, startsWord t = false → startsWord (t.drop (length t)) = false)
    (h : HasAlias (without length text)) :
    ∃ b word space right, b :: (word ++ (space ++ right)) <:+ text ∧
      length (b :: (word ++ (space ++ right))) = 0 ∧ isBlank b = true ∧ SpellsAs word ∧
      (∀ d ∈ space, isBlank d = true) ∧
      (space ≠ [] ∧ startsWord right = true ∨ 0 < length right) := by
  obtain ⟨t, ⟨left, hleft⟩, gap, word, space, c, rest, hparts⟩ := h
  -- the last blank before the keyword
  obtain ⟨init, b, rfl⟩ := List.eq_nil_or_concat gap |>.resolve_left hparts.gap_ne
  have hb : isBlank b = true := hparts.gap_blank b (by simp)
  have hpass : without length text = left ++ init ++ b :: (word ++ (space ++ c :: rest)) := by
    rw [← hleft, hparts.eq]
    simp
  obtain ⟨before, cs, rfl, hzero, hcs⟩ :=
    replace_eq_append_cons hbound (fun _ => List.not_mem_nil) hpass
  have hsplit : word ++ (space ++ c :: rest) = word ++ (space ++ [c]) ++ rest := by simp
  rw [hsplit] at hcs
  rcases replace_eq_append hbound hcs with
    ⟨after, rfl, -, -⟩ | ⟨front, back, after, hfront, hback, rfl, hpos, hafter⟩
  · exact ⟨b, word, space, c :: after, ⟨before, by simp⟩, by simpa using hzero, hb, hparts.spells,
      hparts.space_blank, .inl ⟨hparts.space_ne, hparts.starts⟩⟩
  · obtain ⟨blanks, rfl, hblanks⟩ : ∃ blanks, front = word ++ blanks ∧ blanks <+: space := by
      rcases List.append_eq_append_iff.1 hfront with ⟨blanks, rfl, hblanks⟩ | ⟨letters, hword, rfl⟩
      · refine ⟨blanks, rfl, (List.prefix_concat_iff.1 ⟨back, hblanks.symm⟩).resolve_left ?_⟩
        rintro rfl
        exact hback (List.self_eq_append_right.1 hblanks)
      · refine ⟨[], ?_, List.nil_prefix⟩
        -- from a piece on, the text does not go on with a word
        have hnoWord : startsWord (letters ++ (space ++ [c]) ++ rest) = false := by
          rw [← hafter]
          exact startsWord_without hbound hdrop (hstart after hpos)
        cases letters with
        | nil => rw [hword, List.append_nil, List.append_nil]
        | cons l letters =>
          have hl : isWord l = true := hparts.spells.isWord isAsciiLetter_as l (by simp [hword])
          rw [List.cons_append, List.cons_append, startsWord, hl] at hnoWord
          cases hnoWord
    refine ⟨b, word, blanks, after, ⟨before, by simp⟩, by simpa using hzero, hb, hparts.spells,
      fun d hd => hparts.space_blank d (hblanks.subset hd), .inr hpos⟩

/-- **The pass over the aliases leaves none.** -/
theorem not_hasAlias_without (text : List Char) : ¬ HasAlias (without aliasLength text) := by
  intro h
  have hstart (t : List Char) (hpos : 0 < aliasLength t) : startsWord t = false := by
    obtain ⟨gap, word, space, c, rest, hparts⟩ := aliasLength_pos_iff.1 hpos
    rw [hparts.eq]
    exact startsWord_of_startsBlank (startsBlank_gap_append hparts.gap_ne hparts.gap_blank)
  obtain ⟨b, word, space, right, -, hzero, hb, hword, hspace, hright⟩ :=
    exists_as_of_without aliasLength_le hstart (fun _ => startsWord_drop_aliasLength) h
  have hgap : ∀ d ∈ [b], isBlank d = true := by simpa using hb
  refine absurd hzero (Nat.pos_iff_ne_zero.1 ?_)
  rcases hright with ⟨hne, hright⟩ | hpos
  · cases right with
    | nil => cases hright
    | cons c rest =>
      exact AliasParts.aliasLength_pos ⟨rfl, by simp, hgap, hword, hne, hspace, hright⟩
  · -- the keyword of an alias is a word as well
    obtain ⟨gap', word', space', c, rest, hparts⟩ := aliasLength_pos_iff.1 hpos
    obtain ⟨hne, -⟩ := hparts.spells.isWordText isAsciiLetter_as (by simp)
    obtain ⟨k, ks, rfl⟩ := List.exists_cons_of_ne_nil hne
    have hk : isWord k = true := hparts.spells.isWord isAsciiLetter_as k (by simp)
    have hlonger : AliasParts (b :: (word ++ (space ++ right))) [b] word (space ++ gap') k
        (ks ++ (space' ++ c :: rest)) := by
      refine ⟨?_, by simp, hgap, hword, ?_, fun d hd => ?_, hk⟩
      · rw [hparts.eq]
        simp
      · simp [hparts.gap_ne]
      · exact (List.mem_append.1 hd).elim (hspace d) (hparts.gap_blank d)
    exact hlonger.aliasLength_pos

/-- An `AS` with a blank before it has a customizer behind it; there may be blanks between the
two. -/
def CustomizerBehindAs (text : List Char) : Prop :=
  ∃ b word space right, b :: (word ++ (space ++ right)) <:+ text ∧ isBlank b = true ∧
    SpellsAs word ∧ (∀ d ∈ space, isBlank d = true) ∧ StartsCustomizer right

/-- **Where the pass over the customizers leaves an alias**, there was one before, or there was a
customizer behind the `AS`. -/
theorem HasAlias.behindAs (h : HasAlias (without customizerLength text)) :
    HasAlias text ∨ CustomizerBehindAs text := by
  obtain ⟨b, word, space, right, hsuffix, -, hb, hword, hspace, hright⟩ :=
    exists_as_of_without customizerLength_le
      (fun t hpos => (customizerLength_pos_iff.1 hpos).startsWord)
      (fun _ => startsWord_drop_customizerLength) h
  rcases hright with ⟨hne, hright⟩ | hpos
  · cases right with
    | nil => cases hright
    | cons c rest =>
      have hgap : ∀ d ∈ [b], isBlank d = true := by simpa using hb
      exact .inl ⟨_, hsuffix, [b], word, space, c, rest, rfl, by simp, hgap, hword, hne, hspace,
        hright⟩
  · exact .inr ⟨b, word, space, right, hsuffix, hb, hword, hspace, customizerLength_pos_iff.1 hpos⟩

/-- A customizer stands directly behind a `-` or a `~`. -/
def CustomizerBehindMark (text : List Char) : Prop :=
  ∃ c right, c :: right <:+ text ∧ (c = '-' ∨ c = '~') ∧ StartsCustomizer right

/-- What is left starts with a character that was kept, unless a customizer stood there. -/
theorem exists_of_without_eq_cons (h : without customizerLength text = c :: rest) :
    (∃ cs, text = c :: cs ∧ without customizerLength cs = rest) ∨ StartsCustomizer text := by
  cases text with
  | nil => cases h
  | cons d cs =>
    rcases Nat.eq_zero_or_pos (customizerLength (d :: cs)) with hzero | hpos
    · rw [without_kept hzero] at h
      obtain ⟨rfl, hrest⟩ := List.cons.inj h
      exact .inl ⟨cs, rfl, hrest⟩
    · exact .inr (customizerLength_pos_iff.1 hpos)

/-- **Where the pass over the customizers leaves a customizer**, there was one behind a `-` or a
`~`. -/
theorem HasCustomizer.behindMark (h : HasCustomizer (without customizerLength text)) :
    CustomizerBehindMark text := by
  obtain ⟨t, ⟨left, hleft⟩, hstarts⟩ := h
  -- the character it starts with was kept, so no customizer started there
  have hkept (c : Char) (rest : List Char) (ht : t = c :: rest) : ∃ cs, c :: cs <:+ text ∧
      ¬ StartsCustomizer (c :: cs) ∧ without customizerLength cs = rest := by
    obtain ⟨front, cs, rfl, hzero, hcs⟩ := replace_eq_append_cons customizerLength_le
      (fun _ => List.not_mem_nil) (by rw [← ht]; exact hleft.symm)
    refine ⟨cs, List.suffix_append front _, fun hstart => ?_, hcs⟩
    have hpos := customizerLength_pos_iff.2 hstart
    omega
  cases hstarts with
  | arrow rest =>
    obtain ⟨cs, hsuffix, hnone, hcs⟩ := hkept _ _ rfl
    rcases exists_of_without_eq_cons hcs with ⟨cs, rfl, -⟩ | hright
    · exact absurd (.arrow cs) hnone
    · exact ⟨'-', cs, hsuffix, .inl rfl, hright⟩
  | index hc rest =>
    obtain ⟨cs, hsuffix, hnone, hcs⟩ := hkept _ _ rfl
    rcases exists_of_without_eq_cons hcs with ⟨cs, rfl, -⟩ | hright
    · exact absurd (.index hc cs) hnone
    · exact ⟨'~', cs, hsuffix, .inr rfl, hright⟩
  | negative hc rest =>
    obtain ⟨cs, hsuffix, hnone, hcs⟩ := hkept _ _ rfl
    rcases exists_of_without_eq_cons hcs with ⟨cs, rfl, hcs'⟩ | hright
    · rcases exists_of_without_eq_cons hcs' with ⟨cs, rfl, -⟩ | hright
      · exact absurd (.negative hc cs) hnone
      · exact ⟨'-', cs, (List.suffix_cons '~' _).trans hsuffix, .inl rfl, hright⟩
    · exact ⟨'~', cs, hsuffix, .inr rfl, hright⟩
  | path rest =>
    obtain ⟨cs, -, hnone, -⟩ := hkept _ _ rfl
    exact absurd (.path cs) hnone

/-- **An alias that is left** in the list had a customizer behind its `AS`. -/
theorem HasAlias.behindAs_of_plainList (h : HasAlias (plainList list)) :
    CustomizerBehindAs (without aliasLength list) :=
  h.behindAs.resolve_left (not_hasAlias_without list)

end ReportQuery.Query
