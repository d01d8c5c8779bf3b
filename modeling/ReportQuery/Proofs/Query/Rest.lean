import Mathlib.Data.List.Count
import ReportQuery.Proofs.Query.Sent
/-!
# The rest of the query

The pass that takes the comma before `FROM` out of the select list goes through the whole text.
What follows the select list is sent as it stands just if no comma there has a `FROM` behind it
(`normalize_rest_iff`); a comma within quotes counts like any other
(`normalize_rest_fails`).

Where the pass changes the rest, the change shows: the text that is sent does not end with
the rest by accident (`EndsPlain.suffix_append_iff`).
-/

namespace ReportQuery.Query

open Text

variable {b c g : Char} {text front body link gap word rest s query : List Char}
variable {clause : SelectClause} {parameters : Entries String}

/-! ## The commas that go -/

/-- A comma of the text has a `FROM` behind it that a blank follows; there may be blanks between the
two. -/
def CommaBeforeFrom (text : List Char) : Prop :=
  ∃ left right, text = left ++ ',' :: right ∧ (afterFrom? (trimStart right)).isSome = true

theorem lastCommaLength_pos_iff :
    0 < lastCommaLength text ↔
      ∃ right, text = ',' :: right ∧ (afterFrom? (trimStart right)).isSome = true := by
  constructor
  · intro hpos
    unfold lastCommaLength at hpos
    split at hpos
    · next right =>
      split at hpos
      · next after hafter => exact ⟨right, rfl, by rw [hafter, Option.isSome_some]⟩
      · omega
    · omega
  · rintro ⟨right, rfl, hfrom⟩
    obtain ⟨after, hafter⟩ := Option.isSome_iff_exists.1 hfrom
    rw [lastCommaLength, hafter]
    exact Nat.succ_pos _

theorem comma_not_mem_of_spellsFrom (hword : SpellsFrom word) : ',' ∉ word := fun hmem =>
  absurd (hword.isWord isAsciiLetter_from ',' hmem) (by decide)

/-- Where a piece starts, a comma, blanks, a `FROM` and one more blank stand. -/
theorem exists_comma_of_pos (hpos : 0 < lastCommaLength text) :
    ∃ gap word c rest, text = ',' :: (gap ++ (word ++ c :: rest)) ∧
      (∀ d ∈ gap, isBlank d = true) ∧ SpellsFrom word ∧ isBlank c = true := by
  obtain ⟨right, rfl, hfrom⟩ := lastCommaLength_pos_iff.1 hpos
  obtain ⟨word, c, rest, htrim, hword, hc⟩ := isSome_afterFrom?_iff.1 hfrom
  obtain ⟨gap, hgap, hright⟩ := exists_gap_trimStart right
  exact ⟨gap, word, c, rest, by rw [hright, htrim], hgap, hword, hc⟩

/-- Induction along the pass: a character is kept, or a comma goes with the `FROM` behind it. -/
theorem lastComma_induction {P : List Char → Prop} (nil : P [])
    (kept : ∀ c cs, lastCommaLength (c :: cs) = 0 → P cs → P (c :: cs))
    (comma : ∀ gap word c rest, (∀ d ∈ gap, isBlank d = true) → SpellsFrom word →
      isBlank c = true → P rest → P (',' :: (gap ++ (word ++ c :: rest)))) (text : List Char) :
    P text := by
  induction text using parts_induction lastCommaLength_le with
  | nil => exact nil
  | kept c cs hzero ih => exact kept c cs hzero ih
  | piece p t hp hlength ih =>
    have hpos : 0 < lastCommaLength (p ++ t) := by
      rw [hlength]
      exact List.length_pos_of_ne_nil hp
    obtain ⟨gap, word, c, rest, htext, hgap, hword, hc⟩ := exists_comma_of_pos hpos
    -- the piece ends with the blank behind the keyword
    have hsplit : p ++ t = ',' :: (gap ++ (word ++ [c])) ++ rest := by simp [htext]
    have hsize : p.length = (',' :: (gap ++ (word ++ [c]))).length := by
      rw [← hlength, htext]
      exact lastCommaLength_comma hgap hword hc
    obtain ⟨-, rfl⟩ := List.append_inj hsplit hsize
    rw [htext]
    exact comma gap word c t hgap hword hc ih

theorem withoutLastComma_kept {cs : List Char} (hzero : lastCommaLength (c :: cs) = 0) :
    withoutLastComma (c :: cs) = c :: withoutLastComma cs := replace_kept hzero

theorem withoutLastComma_of_not (h : ¬ CommaBeforeFrom text) : withoutLastComma text = text := by
  have hrun : withoutLastComma (text ++ []) = text ++ withoutLastComma [] := by
    refine replace_run fun left c right htext => ?_
    rw [List.append_nil]
    by_contra hne
    obtain ⟨right', hright, hfrom⟩ := lastCommaLength_pos_iff.1 (Nat.pos_of_ne_zero hne)
    exact h ⟨left, right', by rw [htext, hright], hfrom⟩
  simpa [withoutLastComma] using hrun

theorem count_withoutLastComma_comma (hgap : ∀ d ∈ gap, isBlank d = true) (hword : SpellsFrom word)
    (hc : isBlank c = true) :
    (withoutLastComma (',' :: (gap ++ (word ++ c :: rest)))).count ',' =
      (withoutLastComma rest).count ',' := by
  have himage : [' ', 'F', 'R', 'O', 'M', ' '].count ',' = 0 := by decide
  rw [withoutLastComma_comma hgap hword hc, List.count_append, himage, Nat.zero_add]

/-- The pass puts no comma into a text. -/
theorem count_withoutLastComma_le (text : List Char) :
    (withoutLastComma text).count ',' ≤ text.count ',' := by
  induction text using lastComma_induction with
  | nil => exact Nat.le_refl 0
  | kept c cs hzero ih =>
    rw [withoutLastComma_kept hzero, List.count_cons, List.count_cons]
    omega
  | comma gap word c rest hgap hword hc ih =>
    rw [count_withoutLastComma_comma hgap hword hc]
    simp only [List.count_cons, List.count_append]
    omega

/-- **Where a comma goes, there are fewer.** -/
theorem CommaBeforeFrom.count_lt (h : CommaBeforeFrom text) :
    (withoutLastComma text).count ',' < text.count ',' := by
  induction text using lastComma_induction with
  | nil =>
    obtain ⟨left, right, htext, -⟩ := h
    simp at htext
  | kept c cs hzero ih =>
    have hcs : CommaBeforeFrom cs := by
      obtain ⟨left, right, htext, hfrom⟩ := h
      cases left with
      | nil =>
        have hpos := lastCommaLength_pos_iff.2 ⟨right, htext, hfrom⟩
        omega
      | cons d left =>
        obtain ⟨rfl, hcs⟩ := List.cons.inj htext
        exact ⟨left, right, hcs, hfrom⟩
    have hlt := ih hcs
    rw [withoutLastComma_kept hzero, List.count_cons, List.count_cons]
    omega
  | comma gap word c rest hgap hword hc ih =>
    have hle := count_withoutLastComma_le rest
    rw [count_withoutLastComma_comma hgap hword hc, List.count_cons_self]
    simp only [List.count_cons, List.count_append]
    omega

/-- **The pass leaves a text alone** just if no comma of it has a `FROM` behind it. -/
theorem withoutLastComma_eq_self_iff : withoutLastComma text = text ↔ ¬ CommaBeforeFrom text := by
  refine ⟨fun heq hcomma => ?_, withoutLastComma_of_not⟩
  have hlt := hcomma.count_lt
  rw [heq] at hlt
  omega

/-! ## Texts at whose end the pass starts afresh -/

/-- A text ends with a blank, and more than blanks stand between the last comma and the end. -/
inductive EndsPlain : List Char → Prop
  | blank {g : Char} (hg : isBlank g = true) : EndsPlain [g]
  | cons {c : Char} {s : List Char} (hs : EndsPlain s)
    (hcomma : c = ',' → ∃ d ∈ s, isBlank d = false) : EndsPlain (c :: s)

namespace EndsPlain

theorem ne_nil (h : EndsPlain s) : s ≠ [] := by
  rintro rfl
  cases h

theorem exists_concat (h : EndsPlain s) : ∃ init g, s = init ++ [g] ∧ isBlank g = true := by
  induction h with
  | @blank g hg => exact ⟨[], g, rfl, hg⟩
  | @cons c s _ _ ih =>
    obtain ⟨init, g, rfl, hg⟩ := ih
    exact ⟨c :: init, g, rfl, hg⟩

theorem of_suffix {v : List Char} (h : EndsPlain v) (hs : s <:+ v) (hne : s ≠ []) :
    EndsPlain s := by
  induction h with
  | @blank g hg =>
    rcases List.suffix_cons_iff.1 hs with rfl | hs
    · exact .blank hg
    · exact absurd (List.suffix_nil.1 hs) hne
  | @cons c v hv hcomma ih =>
    rcases List.suffix_cons_iff.1 hs with rfl | hs
    · exact .cons hv hcomma
    · exact ih hs

/-- What has no comma may stand in front. -/
theorem append_of_not_mem (h : EndsPlain s) (hfront : ',' ∉ front) : EndsPlain (front ++ s) := by
  induction front with
  | nil => exact h
  | cons c front ih =>
    rw [List.mem_cons, not_or] at hfront
    exact .cons (ih hfront.2) fun hc => absurd hc.symm hfront.1

/-- What the pass puts in the place of a comma and a `FROM`. -/
theorem image : EndsPlain [' ', 'F', 'R', 'O', 'M', ' '] := by
  have hlast : EndsPlain [' '] := .blank (by decide)
  have hfront : ',' ∉ [' ', 'F', 'R', 'O', 'M'] := by decide
  exact hlast.append_of_not_mem hfront

/-- Anything may stand in front of what is not all blanks. -/
theorem append_left (h : EndsPlain s) (hplain : ∃ d ∈ s, isBlank d = false) (front : List Char) :
    EndsPlain (front ++ s) := by
  induction front with
  | nil => exact h
  | cons c front ih =>
    obtain ⟨d, hd, hblank⟩ := hplain
    exact .cons ih fun _ => ⟨d, List.mem_append_right front hd, hblank⟩

theorem concat (hg : isBlank g = true)
    (hfront : ∀ left right, front = left ++ ',' :: right → ∃ d ∈ right, isBlank d = false) :
    EndsPlain (front ++ [g]) := by
  induction front with
  | nil => exact .blank hg
  | cons c front ih =>
    refine .cons (ih fun left right h => hfront (c :: left) right (by rw [h, List.cons_append])) ?_
    rintro rfl
    obtain ⟨d, hd, hblank⟩ := hfront [] front rfl
    exact ⟨d, List.mem_append_left _ hd, hblank⟩

/-- No comma of such a text looks at what follows the text. -/
theorem lastCommaLength_append (h : EndsPlain (c :: s)) (text : List Char) :
    lastCommaLength (c :: (s ++ text)) = lastCommaLength (c :: s) := by
  by_cases hc : c = ','
  · subst hc
    cases h with
    | blank hg => cases hg
    | cons hs hcomma =>
      obtain ⟨d, hd, hplain⟩ := hcomma rfl
      obtain ⟨init, g, rfl, hg⟩ := hs.exists_concat
      have hinit : trimStart init ≠ [] := by
        intro hnil
        rcases List.mem_append.1 hd with hd | hd
        · rw [isBlank_of_trimStart_eq_nil hnil d hd] at hplain
          cases hplain
        · rw [List.mem_singleton.1 hd, hg] at hplain
          cases hplain
      rw [lastCommaLength, lastCommaLength, List.append_assoc, trimStart_append hinit,
        trimStart_append hinit, List.singleton_append, afterFrom?_append (isWord_of_isBlank hg),
        afterFrom?_append (isWord_of_isBlank hg)]
      cases (afterKeyword? ['f', 'r', 'o', 'm'] (trimStart init)).filter
          fun rest => startsBlank (rest ++ [g]) with
      | none => rfl
      | some after =>
        simp only [Option.map_some, List.length_append, List.length_cons, List.length_nil]
        omega
  · rw [lastCommaLength_other hc, lastCommaLength_other hc]

/-- **The pass divides at the end of such a text.** -/
theorem withoutLastComma_append (h : EndsPlain s) (text : List Char) :
    withoutLastComma (s ++ text) = withoutLastComma s ++ withoutLastComma text := by
  refine replace_append lastCommaLength_le fun left c right hs => ?_
  have hsuffix : c :: right <:+ s := ⟨left, hs.symm⟩
  exact (h.of_suffix hsuffix (by simp)).lastCommaLength_append text

end EndsPlain

theorem exists_not_isBlank_withoutLastComma (h : ∃ d ∈ text, isBlank d = false) :
    ∃ d ∈ withoutLastComma text, isBlank d = false := by
  induction text using lastComma_induction with
  | nil => exact h
  | kept c cs hzero ih =>
    rw [withoutLastComma_kept hzero]
    obtain ⟨d, hd, hblank⟩ := h
    rcases List.mem_cons.1 hd with rfl | hd
    · exact ⟨d, List.mem_cons_self, hblank⟩
    · obtain ⟨e, he, hblank'⟩ := ih ⟨d, hd, hblank⟩
      exact ⟨e, List.mem_cons_of_mem c he, hblank'⟩
  | comma gap word c rest hgap hword hc ih =>
    rw [withoutLastComma_comma hgap hword hc]
    exact ⟨'F', by simp, by decide⟩

namespace EndsPlain

/-- The pass keeps the end of such a text. -/
theorem withoutLastComma (h : EndsPlain s) : EndsPlain (Query.withoutLastComma s) := by
  induction s using lastComma_induction with
  | nil => cases h
  | kept c cs hzero ih =>
    rw [withoutLastComma_kept hzero]
    cases h with
    | blank hg => exact .blank hg
    | cons hs hcomma =>
      exact .cons (ih hs) fun hc => exists_not_isBlank_withoutLastComma (hcomma hc)
  | comma gap word c rest hgap hword hc ih =>
    rw [withoutLastComma_comma hgap hword hc]
    by_cases hrest : rest = []
    · rw [hrest]
      exact image
    · have hsuffix : rest <:+ ',' :: (gap ++ (word ++ c :: rest)) :=
        ⟨',' :: (gap ++ (word ++ [c])), by simp⟩
      exact (ih (h.of_suffix hsuffix hrest)).append_of_not_mem (by decide)

/-- **A change shows.** No text is such a text followed by what the pass makes of it. -/
theorem ne_append (hs : EndsPlain s) (text : List Char) :
    text ≠ s ++ Query.withoutLastComma text := by
  induction hn : text.length using Nat.strongRecOn generalizing s text with
  | ind n ih =>
    intro htext
    -- the pass over both sides gives the same equation for a shorter text
    have hpass := congrArg Query.withoutLastComma htext
    rw [hs.withoutLastComma_append] at hpass
    have hshort : (Query.withoutLastComma text).length < n := by
      have hlength := congrArg List.length htext
      have hpos := List.length_pos_of_ne_nil hs.ne_nil
      rw [List.length_append] at hlength
      omega
    exact ih _ hshort hs.withoutLastComma _ rfl hpass

/-- **The rest stands at the end** just if the pass leaves it alone. -/
theorem suffix_append_iff {v : List Char} (hv : EndsPlain v) :
    rest <:+ v ++ Query.withoutLastComma rest ↔ ¬ CommaBeforeFrom rest := by
  constructor
  · rintro ⟨left, happend⟩ hcomma
    have hlt := hcomma.count_lt
    rcases List.append_eq_append_iff.1 happend with ⟨s, hv', hrest⟩ | ⟨s, -, hrest⟩
    · by_cases hs : s = []
      · rw [hs, List.nil_append] at hrest
        rw [← hrest] at hlt
        omega
      · have hsuffix : s <:+ v := ⟨left, hv'.symm⟩
        exact (hv.of_suffix hsuffix hs).ne_append rest hrest
    · rw [hrest, List.count_append] at hlt
      omega
  · intro hcomma
    rw [withoutLastComma_of_not hcomma]
    exact List.suffix_append v rest

end EndsPlain

/-! ## The select list and its `FROM` -/

namespace FromParts

variable {tail : List Char}

theorem comma_not_mem (h : FromParts tail b word c rest) : ',' ∉ word :=
  comma_not_mem_of_spellsFrom h.spells

/-- The rest stands behind a blank, four letters and a blank. -/
theorem rest_eq (h : FromParts tail b word c rest) : rest = tail.drop 6 := by
  have hlength : (word ++ [c]).length = 5 := by
    rw [List.length_append, h.spells.length_eq]
    rfl
  have hsplit : word ++ c :: rest = word ++ [c] ++ rest := by simp
  rw [h.eq, List.drop_succ_cons, hsplit, List.drop_left' hlength]

end FromParts

/-- What is left of the text in front of a tail, and how the `FROM` of the tail follows it. A comma
that only blanks part from the `FROM` goes; nothing else does. -/
inductive Joins (b : Char) (word : List Char) (c : Char) :
    (front body link : List Char) → Prop
  | comma (body : List Char) {gap : List Char} (hgap : ∀ d ∈ gap, isBlank d = true) :
    Joins b word c (body ++ ',' :: gap) body [' ', 'F', 'R', 'O', 'M', ' ']
  | plain {front : List Char}
    (hfront : ∀ left gap, front = left ++ ',' :: gap → ∃ d ∈ gap, isBlank d = false) :
    Joins b word c front (front ++ [b]) (word ++ [c])

theorem exists_joins (b : Char) (word : List Char) (c : Char) (front : List Char) :
    ∃ body link, Joins b word c front body link := by
  by_cases h : ∃ body gap, front = body ++ ',' :: gap ∧ ∀ d ∈ gap, isBlank d = true
  · obtain ⟨body, gap, rfl, hgap⟩ := h
    exact ⟨body, _, .comma body hgap⟩
  · refine ⟨_, _, .plain fun left gap hfront => ?_⟩
    by_contra hplain
    refine h ⟨left, gap, hfront, fun d hd => ?_⟩
    by_contra hblank
    exact hplain ⟨d, hd, by rwa [Bool.not_eq_true] at hblank⟩

namespace Joins

variable {tail : List Char}

/-- **The pass divides at the `FROM`** that ends the select list. -/
theorem withoutLastComma_append (h : Joins b word c front body link)
    (htail : FromParts tail b word c rest) :
    withoutLastComma (front ++ tail) =
      withoutLastComma body ++ link ++ withoutLastComma rest := by
  rw [htail.eq]
  cases h with
  | @comma body gap hgap =>
    have hcut : withoutLastComma (body ++ ',' :: (gap ++ b :: (word ++ c :: rest))) =
        withoutLastComma body ++ withoutLastComma (',' :: (gap ++ b :: (word ++ c :: rest))) :=
      replace_append lastCommaLength_le fun left d right _ =>
        lastCommaLength_append_stop (by decide) (by decide)
    rw [List.append_assoc, List.cons_append, hcut,
      withoutLastComma_from hgap htail.before htail.spells htail.after, ← List.append_assoc]
  | plain hfront =>
    have hends : EndsPlain (front ++ [b]) := .concat htail.before hfront
    have hlink : ',' ∉ word ++ [c] := by
      rw [List.mem_append, List.mem_singleton, not_or]
      refine ⟨htail.comma_not_mem, ?_⟩
      rintro rfl
      exact absurd htail.after (by decide)
    have hsplit : front ++ b :: (word ++ c :: rest) = front ++ [b] ++ (word ++ [c] ++ rest) := by
      simp
    rw [hsplit, hends.withoutLastComma_append, withoutLastComma_run hlink]
    exact (List.append_assoc _ _ _).symm

theorem endsPlain (h : Joins b word c front body link) (htail : FromParts tail b word c rest)
    (left : List Char) : EndsPlain (left ++ link) := by
  cases h with
  | comma body hgap => exact EndsPlain.image.append_left ⟨'F', by simp, by decide⟩ left
  | plain hfront =>
    have hlast : EndsPlain [c] := .blank htail.after
    have hlink : EndsPlain (word ++ [c]) := hlast.append_of_not_mem htail.comma_not_mem
    obtain ⟨hne, hplain⟩ := htail.spells.isWordText isAsciiLetter_from (by simp)
    obtain ⟨d, ds, rfl⟩ := List.exists_cons_of_ne_nil hne
    exact hlink.append_left ⟨d, by simp, hplain d (by simp)⟩ left

end Joins

/-! ## The text that is sent -/

theorem cleaned_eq (hclause : selectClause? query = some clause) :
    cleaned query = withoutLastComma (clause.head ++ plainList clause.list ++ clause.tail) := by
  rw [cleaned, hclause]
  rfl

/-- Cleaning puts no brace into a query. -/
theorem not_mem_cleaned (hclause : selectClause? query = some clause) (hbrace : '{' ∉ query) :
    '{' ∉ cleaned query := by
  intro hmem
  rw [(selectClause?_eq_some.1 hclause).1] at hbrace
  rw [cleaned_eq hclause] at hmem
  rcases mem_of_mem_replace hmem with hmem | ⟨-, hmem⟩
  · refine hbrace ?_
    simp only [List.mem_append] at hmem ⊢
    exact hmem.imp_left (Or.imp_right fun h => (plainList_sublist clause.list).subset h)
  · revert hmem
    decide

/-- **The rest of a query** without placeholders. What is sent is the text in front of the `FROM`
that ends the select list and the rest behind it, each after a pass of its own over its commas,
with the `FROM` between them. It ends with the rest just if no comma of the rest has a `FROM`
behind it. If the same holds of the text in front, and only then, aliases, customizers and the
comma at the end of the select list are all that is taken out. -/
theorem normalize_rest_iff (hbrace : '{' ∉ query) (hclause : selectClause? query = some clause) :
    ∃ sent b word c rest body link, normalize parameters query = .ok sent ∧
      FromParts clause.tail b word c rest ∧
      Joins b word c (clause.head ++ plainList clause.list) body link ∧
      sent = withoutLastComma body ++ link ++ withoutLastComma rest ∧
      (rest <:+ sent ↔ ¬ CommaBeforeFrom rest) ∧
      (sent = body ++ link ++ rest ↔ ¬ CommaBeforeFrom body ∧ ¬ CommaBeforeFrom rest) := by
  obtain ⟨-, his⟩ := selectClause?_eq_some.1 hclause
  obtain ⟨b, word, c, rest, htail⟩ := fromAt_iff.1 his.tail
  obtain ⟨body, link, hjoins⟩ := exists_joins b word c (clause.head ++ plainList clause.list)
  have hsent : cleaned query = withoutLastComma body ++ link ++ withoutLastComma rest := by
    rw [cleaned_eq hclause]
    exact hjoins.withoutLastComma_append htail
  have hnormalize : normalize parameters query = .ok (cleaned query) :=
    fillIn_of_not_mem (not_mem_cleaned hclause hbrace)
  refine ⟨cleaned query, b, word, c, rest, body, link, hnormalize, htail, hjoins, hsent, ?_, ?_⟩
  · rw [hsent]
    exact (hjoins.endsPlain htail _).suffix_append_iff
  · constructor
    · intro hsame
      -- where one of the two has lost a comma, the other has none to make up for it
      have hcount := congrArg (List.count ',') (hsent.symm.trans hsame)
      have hbody := count_withoutLastComma_le body
      have hrest := count_withoutLastComma_le rest
      simp only [List.count_append] at hcount
      refine ⟨fun hcomma => ?_, fun hcomma => ?_⟩
      · have hlt := hcomma.count_lt
        omega
      · have hlt := hcomma.count_lt
        omega
    · rintro ⟨hbody, hrest⟩
      rw [hsent, withoutLastComma_of_not hbody, withoutLastComma_of_not hrest]

/-- The comma at the end of the list goes. The one in the rest stays: a quote stands between it and
the next word. -/
theorem normalize_rest_iff_sample :
    '{' ∉ "SELECT a.b, FROM a WHERE a.c IN ('x', 'from y')".toList ∧
      ∃ sent, normalize [] "SELECT a.b, FROM a WHERE a.c IN ('x', 'from y')".toList = .ok sent ∧
        "a WHERE a.c IN ('x', 'from y')".toList <:+ sent := by
  have hbrace : '{' ∉ "SELECT a.b, FROM a WHERE a.c IN ('x', 'from y')".toList := by decide
  have hclause : selectClause? "SELECT a.b, FROM a WHERE a.c IN ('x', 'from y')".toList =
      some ⟨"SELECT".toList, " a.b,".toList, " FROM a WHERE a.c IN ('x', 'from y')".toList⟩ := by
    decide +kernel
  obtain ⟨sent, b, word, c, rest, body, link, hsent, htail, -, -, hsuffix, -⟩ :=
    @normalize_rest_iff _ _ [] hbrace hclause
  have hrest : rest = "a WHERE a.c IN ('x', 'from y')".toList := htail.rest_eq
  have hcomma : ¬ CommaBeforeFrom "a WHERE a.c IN ('x', 'from y')".toList :=
    withoutLastComma_eq_self_iff.1 (by decide +kernel)
  rw [hrest] at hsuffix
  exact ⟨hbrace, sent, hsent, hsuffix.2 hcomma⟩

/-- **A comma within quotes goes** if `from` stands behind it. -/
theorem normalize_rest_fails :
    '{' ∉ "SELECT a.b FROM a WHERE a.name = 'x, from y'".toList ∧
      ∃ clause sent, selectClause? "SELECT a.b FROM a WHERE a.name = 'x, from y'".toList =
          some clause ∧
        FromParts clause.tail ' ' "FROM".toList ' ' "a WHERE a.name = 'x, from y'".toList ∧
        normalize [] "SELECT a.b FROM a WHERE a.name = 'x, from y'".toList = .ok sent ∧
        ¬ "a WHERE a.name = 'x, from y'".toList <:+ sent := by
  have hbrace : '{' ∉ "SELECT a.b FROM a WHERE a.name = 'x, from y'".toList := by decide
  have hclause : selectClause? "SELECT a.b FROM a WHERE a.name = 'x, from y'".toList =
      some ⟨"SELECT".toList, " a.b".toList, " FROM a WHERE a.name = 'x, from y'".toList⟩ := by
    decide +kernel
  have hcleaned : cleaned "SELECT a.b FROM a WHERE a.name = 'x, from y'".toList =
      "SELECT a.b FROM a WHERE a.name = 'x FROM y'".toList := by decide +kernel
  have hspells : SpellsFrom "FROM".toList := by simp [Spells]; decide
  refine ⟨hbrace, _, _, hclause, ⟨rfl, by decide, hspells, by decide⟩,
    fillIn_of_not_mem (not_mem_cleaned hclause hbrace), ?_⟩
  rw [hcleaned]
  decide +kernel

end ReportQuery.Query
