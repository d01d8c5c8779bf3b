import Mathlib.Logic.Function.Iterate
import ReportQuery.Proofs.Query.Removal
import ReportQuery.Proofs.Query.Rest
/-!
# Normalizing again

A query is sent as it stands just if it is clean (`cleaned_eq_self_iff`): no comma before a `FROM`,
and neither aliases nor customizers in the select list. What is sent need not be clean. The passes
run once, one after the other, and each can leave what it or an earlier one looks for: the pass over
the commas takes one of two (`commaBeforeFrom_withoutLastComma`), and puts blanks around a `FROM`
that had none, so that the select list may end elsewhere, or be there at all
(`selectClause?_withoutLastComma`). `normalize_again_iff` says when a second run changes nothing.
-/

namespace ReportQuery.Query

open Text

variable {b c : Char} {text left right gap word rest query : List Char}
variable {clause shown : SelectClause} {parameters : Entries String}

/-! ## Clean queries -/

/-- The text of a query without the aliases and customizers of its select list. -/
def plainQuery (query : List Char) : List Char :=
  match selectClause? query with
  | some clause => clause.head ++ plainList clause.list ++ clause.tail
  | none => query

theorem cleaned_eq_withoutLastComma (query : List Char) :
    cleaned query = withoutLastComma (plainQuery query) := rfl

theorem plainQuery_eq (hclause : selectClause? query = some clause) :
    plainQuery query = clause.head ++ plainList clause.list ++ clause.tail := by
  rw [plainQuery, hclause]

theorem plainQuery_of_none (hnone : selectClause? query = none) : plainQuery query = query := by
  rw [plainQuery, hnone]

/-- A query with nothing to take out: no comma of it has a `FROM` behind it, and its select list, if
it has one, has neither aliases nor customizers. -/
def IsClean (query : List Char) : Prop :=
  ¬ CommaBeforeFrom query ∧ ∀ clause, selectClause? query = some clause →
    ¬ HasAlias clause.list ∧ ¬ HasCustomizer clause.list

/-- The passes over the select list leave the query alone just if they leave the list alone. -/
theorem plainQuery_eq_self_iff : plainQuery query = query ↔
    ∀ clause, selectClause? query = some clause →
      ¬ HasAlias clause.list ∧ ¬ HasCustomizer clause.list := by
  cases hclause : selectClause? query with
  | none => simp [plainQuery_of_none hclause]
  | some clause =>
    have hquery := (selectClause?_eq_some.1 hclause).1
    have hsame : plainQuery query = query ↔ plainList clause.list = clause.list := by
      rw [plainQuery_eq hclause, hquery, List.append_cancel_right_eq, List.append_cancel_left_eq]
    rw [hsame, plainList_eq_self_iff]
    simp

theorem plainQuery_sublist (query : List Char) : (plainQuery query).Sublist query := by
  cases hclause : selectClause? query with
  | none => rw [plainQuery_of_none hclause]
  | some clause =>
    have hquery := (selectClause?_eq_some.1 hclause).1
    rw [plainQuery_eq hclause, hquery]
    exact ((plainList_sublist clause.list).append_left clause.head).append_right clause.tail

/-- **Clean queries are left alone**, and no others are. -/
theorem cleaned_eq_self_iff : cleaned query = query ↔ IsClean query := by
  rw [cleaned_eq_withoutLastComma, IsClean, ← plainQuery_eq_self_iff]
  constructor
  · intro h
    -- a comma that goes is not made up for
    have hcomma : ¬ CommaBeforeFrom (plainQuery query) := by
      intro hcomma
      have hlt := hcomma.count_lt
      have hle := (plainQuery_sublist query).count_le ','
      rw [h] at hlt
      omega
    rw [withoutLastComma_of_not hcomma] at h
    exact ⟨h ▸ hcomma, h⟩
  · rintro ⟨hcomma, hplain⟩
    rw [hplain, withoutLastComma_of_not hcomma]

theorem not_mem_cleaned_of_not_mem (hbrace : '{' ∉ query) : '{' ∉ cleaned query := by
  rw [cleaned_eq_withoutLastComma]
  intro hmem
  rcases mem_of_mem_replace hmem with hmem | ⟨-, hmem⟩
  · exact hbrace ((plainQuery_sublist query).subset hmem)
  · revert hmem
    decide

/-- A query without placeholders is sent as the passes leave it. -/
theorem normalize_of_not_mem (hbrace : '{' ∉ query) :
    normalize parameters query = .ok (cleaned query) :=
  fillIn_of_not_mem (not_mem_cleaned_of_not_mem hbrace)

theorem normalize_eq_self_iff (hbrace : '{' ∉ query) :
    normalize parameters query = .ok query ↔ IsClean query := by
  rw [normalize_of_not_mem hbrace, Except.ok.injEq, cleaned_eq_self_iff]

/-! ## What the pass over the commas shows -/

/-- A comma with a `FROM` behind it starts a text. -/
def StartsComma (text : List Char) : Prop :=
  ∃ right, text = ',' :: right ∧ (afterFrom? (trimStart right)).isSome = true

/-- What the pass makes of such a text. -/
theorem StartsComma.exists_withoutLastComma (h : StartsComma text) :
    ∃ rest, withoutLastComma text = ' ' :: 'F' :: 'R' :: 'O' :: 'M' :: ' ' :: rest := by
  have hpos := lastCommaLength_pos_iff.2 h
  obtain ⟨right, rfl, -⟩ := h
  obtain ⟨p, rest, himage⟩ : ∃ p rest, withoutLastComma (',' :: right) =
      (fun _ => [' ', 'F', 'R', 'O', 'M', ' ']) p ++ rest := exists_replace_of_pos hpos
  exact ⟨rest, himage⟩

theorem spellsFrom_upper : SpellsFrom ['F', 'R', 'O', 'M'] := by simp [Spells]; decide

theorem StartsComma.fromAt (h : StartsComma text) : FromAt (withoutLastComma text) := by
  obtain ⟨rest, hrest⟩ := h.exists_withoutLastComma
  rw [hrest]
  exact fromAt_iff.2 ⟨' ', _, ' ', rest, rfl, by decide, spellsFrom_upper, by decide⟩

/-- **Where a `FROM` is left at the start of a text**: where one was, or where a `FROM` was with a
comma behind it that went. -/
theorem afterFrom?_withoutLastComma : (afterFrom? (withoutLastComma text)).isSome = true ↔
    (afterFrom? text).isSome = true ∨
      ∃ word right, text = word ++ right ∧ SpellsFrom word ∧ StartsComma right := by
  constructor
  · intro h
    obtain ⟨word, c, rest, hpass, hword, hc⟩ := isSome_afterFrom?_iff.1 h
    have hsplit : word ++ c :: rest = word ++ [c] ++ rest := by simp
    rw [hsplit] at hpass
    rcases replace_eq_append lastCommaLength_le hpass with
      ⟨rest, rfl, -, -⟩ | ⟨front, back, right, hfront, hback, rfl, hpos, hright⟩
    · exact .inl (isSome_afterFrom?_iff.2 ⟨word, c, rest, by simp, hword, hc⟩)
    · obtain ⟨letters, rfl⟩ : front <+: word := by
        refine (List.prefix_concat_iff.1 ⟨back, hfront.symm⟩).resolve_left ?_
        rintro rfl
        exact hback (List.self_eq_append_right.1 hfront)
      have hstarts : StartsComma right := lastCommaLength_pos_iff.1 hpos
      rw [List.append_assoc, List.append_cancel_left_eq] at hfront
      cases letters with
      | nil => exact .inr ⟨front, right, rfl, by simpa using hword, hstarts⟩
      | cons l letters =>
        -- the pass leaves a blank there, and no letter
        obtain ⟨after, hafter⟩ := hstarts.exists_withoutLastComma
        have hl : isWord l = true := hword.isWord isAsciiLetter_from l (by simp)
        change withoutLastComma right = back ++ rest at hright
        rw [hafter, ← hfront] at hright
        rw [← (List.cons.inj hright).1] at hl
        cases hl
  · rintro (h | ⟨word, right, rfl, hword, hstarts⟩)
    · obtain ⟨word, c, rest, rfl, hword, hc⟩ := isSome_afterFrom?_iff.1 h
      have hrun : ',' ∉ word ++ [c] := by
        rw [List.mem_append, List.mem_singleton, not_or]
        refine ⟨comma_not_mem_of_spellsFrom hword, ?_⟩
        rintro rfl
        exact absurd hc (by decide)
      rw [← List.singleton_append, ← List.append_assoc, withoutLastComma_run hrun]
      exact isSome_afterFrom?_iff.2 ⟨word, c, withoutLastComma rest, by simp, hword, hc⟩
    · obtain ⟨after, hafter⟩ := hstarts.exists_withoutLastComma
      rw [withoutLastComma_run (comma_not_mem_of_spellsFrom hword), hafter]
      exact isSome_afterFrom?_iff.2 ⟨word, ' ', _, rfl, hword, by decide⟩

/-- Where the pass over the commas leaves a `FROM` between blanks, as it ends a select list: it
stood there, or with a comma in front that goes, or with a comma behind that goes. -/
inductive EndsList : List Char → Prop
  | plain {text : List Char} (h : FromAt text) : EndsList text
  | comma {text : List Char} (h : StartsComma text) : EndsList text
  | between {b : Char} {word right : List Char} (hb : isBlank b = true) (hword : SpellsFrom word)
    (h : StartsComma right) : EndsList (b :: (word ++ right))

theorem withoutLastComma_of_isBlank (hb : isBlank b = true) :
    withoutLastComma (b :: text) = b :: withoutLastComma text := by
  refine withoutLastComma_kept (lastCommaLength_other ?_)
  rintro rfl
  cases hb

theorem fromAt_withoutLastComma : FromAt (withoutLastComma text) ↔ EndsList text := by
  constructor
  · intro h
    cases text with
    | nil =>
      obtain ⟨b, rest, hnil, -⟩ := h
      cases hnil
    | cons c cs =>
      rcases Nat.eq_zero_or_pos (lastCommaLength (c :: cs)) with hzero | hpos
      · rw [withoutLastComma_kept hzero, fromAt_cons, afterFrom?_withoutLastComma] at h
        obtain ⟨hc, hfrom | ⟨word, right, rfl, hword, hstarts⟩⟩ := h
        · exact .plain (fromAt_cons.2 ⟨hc, hfrom⟩)
        · exact .between hc hword hstarts
      · exact .comma (lastCommaLength_pos_iff.1 hpos)
  · rintro (h | h | ⟨hb, hword, h⟩)
    · obtain ⟨b, rest, rfl, hb, hfrom⟩ := h
      rw [withoutLastComma_of_isBlank hb, fromAt_cons, afterFrom?_withoutLastComma]
      exact ⟨hb, .inl hfrom⟩
    · exact h.fromAt
    · rw [withoutLastComma_of_isBlank hb, fromAt_cons, afterFrom?_withoutLastComma]
      exact ⟨hb, .inr ⟨_, _, rfl, hword, h⟩⟩

/-- A comma stands before one that goes. There may be blanks between the two, and a `FROM` behind
them. -/
def CommaBeforeComma (text : List Char) : Prop :=
  ∃ left gap word right, text = left ++ ',' :: (gap ++ (word ++ right)) ∧
    (∀ d ∈ gap, isBlank d = true) ∧ (word = [] ∨ SpellsFrom word) ∧ StartsComma right

theorem afterFrom?_of_spellsFrom (hword : SpellsFrom word) : afterFrom? word = none := by
  rw [← Option.not_isSome_iff_eq_none, isSome_afterFrom?_iff]
  rintro ⟨other, c, rest, rfl, hother, -⟩
  have hlength := hword.length_eq
  rw [List.length_append, hother.length_eq] at hlength
  simp at hlength

theorem trimStart_spellsFrom (hword : SpellsFrom word) (text : List Char) :
    trimStart (word ++ text) = word ++ text := by
  have hwordText : IsWordText word := hword.isWordText isAsciiLetter_from (by simp)
  obtain ⟨c, cs, rfl⟩ := List.exists_cons_of_ne_nil hwordText.1
  exact trimStart_of_head (hwordText.2 c (by simp))

/-- The pass keeps the blanks in front of what is no comma to go. -/
theorem trimStart_withoutLastComma (h : ¬ StartsComma (trimStart text)) :
    trimStart (withoutLastComma text) = withoutLastComma (trimStart text) := by
  obtain ⟨gap, hgap, htext⟩ := exists_gap_trimStart text
  have hcomma : ',' ∉ gap := fun hmem => absurd (hgap ',' hmem) (by decide)
  nth_rewrite 1 [htext]
  rw [withoutLastComma_run hcomma, trimStart_append_of_eq_nil (List.dropWhile_eq_nil_iff.2 hgap)]
  cases htrim : trimStart text with
  | nil => rfl
  | cons c cs =>
    rw [htrim] at h
    have hzero : lastCommaLength (c :: cs) = 0 :=
      Nat.eq_zero_of_not_pos fun hpos => h (lastCommaLength_pos_iff.1 hpos)
    rw [withoutLastComma_kept hzero]
    exact trimStart_of_head (isBlank_head_trimStart htrim)

/-- A `FROM` that is left behind blanks stood there, or it had a comma in front or behind that
went. -/
theorem exists_comma_of_withoutLastComma
    (h : (afterFrom? (trimStart (withoutLastComma text))).isSome = true) :
    (afterFrom? (trimStart text)).isSome = true ∨
      ∃ gap word right, text = gap ++ (word ++ right) ∧ (∀ d ∈ gap, isBlank d = true) ∧
        (word = [] ∨ SpellsFrom word) ∧ StartsComma right := by
  obtain ⟨gap, hgap, htext⟩ := exists_gap_trimStart text
  by_cases hstarts : StartsComma (trimStart text)
  · exact .inr ⟨gap, [], trimStart text, htext, hgap, .inl rfl, hstarts⟩
  · rw [trimStart_withoutLastComma hstarts, afterFrom?_withoutLastComma] at h
    refine h.imp_right fun ⟨word, right, htrim, hword, hright⟩ => ?_
    exact ⟨gap, word, right, by rw [← htrim, ← htext], hgap, .inr hword, hright⟩

/-- A comma before one that goes is kept: where a `FROM` stands between the two, no blank follows
it. -/
theorem lastCommaLength_of_startsComma (hgap : ∀ d ∈ gap, isBlank d = true)
    (hword : word = [] ∨ SpellsFrom word) (hright : StartsComma right) :
    lastCommaLength (',' :: (gap ++ (word ++ right))) = 0 := by
  obtain ⟨rest, rfl, -⟩ := hright
  rw [← List.append_assoc, lastCommaLength_append_stop (by decide) (by decide)]
  refine lastCommaLength_of_none ?_
  rw [trimStart_append_of_eq_nil (List.dropWhile_eq_nil_iff.2 hgap)]
  rcases hword with rfl | hword
  · rfl
  · have htrim := trimStart_spellsFrom hword []
    rw [List.append_nil] at htrim
    rw [htrim, afterFrom?_of_spellsFrom hword]

/-- **A comma that is left before a `FROM`** stood before one that went. -/
theorem commaBeforeFrom_withoutLastComma :
    CommaBeforeFrom (withoutLastComma text) ↔ CommaBeforeComma text := by
  constructor
  · rintro ⟨left, right, hpass, hfrom⟩
    obtain ⟨front, rest, rfl, hzero, hright⟩ :=
      replace_eq_append_cons lastCommaLength_le (fun _ => by decide) hpass
    change withoutLastComma rest = right at hright
    rw [← hright] at hfrom
    rcases exists_comma_of_withoutLastComma hfrom with hfrom | ⟨gap, word, right, hrest, hcomma⟩
    · have hpos := lastCommaLength_pos_iff.2 ⟨rest, rfl, hfrom⟩
      omega
    · exact ⟨front, gap, word, right, by rw [hrest], hcomma⟩
  · rintro ⟨left, gap, word, right, rfl, hgap, hword, hstarts⟩
    obtain ⟨after, hafter⟩ := hstarts.exists_withoutLastComma
    have hcomma : ',' ∉ gap ++ word := by
      rw [List.mem_append, not_or]
      refine ⟨fun hmem => absurd (hgap ',' hmem) (by decide), ?_⟩
      rcases hword with rfl | hword
      · exact List.not_mem_nil
      · exact comma_not_mem_of_spellsFrom hword
    have hcut : withoutLastComma (left ++ ',' :: (gap ++ (word ++ right))) =
        withoutLastComma left ++ withoutLastComma (',' :: (gap ++ (word ++ right))) :=
      replace_append lastCommaLength_le fun front d rest _ =>
        lastCommaLength_append_stop (by decide) (by decide)
    refine ⟨withoutLastComma left, gap ++ (word ++ withoutLastComma right), ?_, ?_⟩
    · rw [hcut, withoutLastComma_kept (lastCommaLength_of_startsComma hgap hword hstarts),
        ← List.append_assoc gap, withoutLastComma_run hcomma, List.append_assoc]
    · rw [trimStart_append_of_eq_nil (List.dropWhile_eq_nil_iff.2 hgap), hafter,
        isSome_afterFrom?_iff]
      rcases hword with rfl | hword
      · exact ⟨['F', 'R', 'O', 'M'], ' ', after, rfl, spellsFrom_upper, by decide⟩
      · exact ⟨word, ' ', _, trimStart_spellsFrom hword _, hword, by decide⟩

/-! ## The select list of the second run -/

/-- A query cut where the pass over the commas leaves the first `FROM` between blanks. -/
structure IsShown (query : List Char) (clause : SelectClause) : Prop where
  eq : query = clause.head ++ clause.list ++ clause.tail
  head : IsHead clause.head
  startsWord : startsWord (clause.list ++ clause.tail) = false
  tail : EndsList clause.tail
  first : ∀ left c right, clause.list = left ++ c :: right → ¬ EndsList (c :: right ++ clause.tail)

theorem EndsList.startsWord (h : EndsList text) : startsWord text = false := by
  rcases h with h | ⟨right, rfl, -⟩ | ⟨hb, -, -⟩
  · exact h.startsWord
  · rfl
  · exact isWord_of_isBlank hb

/-- **The second run finds the select list** where the pass over the commas leaves the first `FROM`
between blanks. -/
theorem selectClause?_withoutLastComma {found : SelectClause} :
    selectClause? (withoutLastComma text) = some found ↔
      ∃ shown, IsShown text shown ∧
        found = ⟨shown.head, shown.list, withoutLastComma shown.tail⟩ := by
  rw [selectClause?_eq_some]
  constructor
  · rintro ⟨hpass, his⟩
    rcases replace_eq_append lastCommaLength_le hpass with
      ⟨rest, htext, hrest, hfree⟩ | ⟨front, back, rest, hfront, hback, -, hpos, hrest⟩
    · change withoutLastComma rest = found.tail at hrest
      have htail : EndsList rest := fromAt_withoutLastComma.1 (hrest ▸ his.tail)
      refine ⟨⟨found.head, found.list, rest⟩, ⟨htext, his.head,
        startsWord_append (startsWord_of_append his.startsWord) htail.startsWord, htail,
        fun left c right hlist hends => ?_⟩, by rw [hrest]⟩
      -- the pass keeps the list from there on
      have hrun : withoutLastComma (c :: right ++ rest) = c :: right ++ withoutLastComma rest :=
        replace_run fun before d after hright => hfree (found.head ++ left ++ before) d after
          (by rw [show found.list = left ++ c :: right from hlist, hright]; simp)
      rw [← fromAt_withoutLastComma, hrun, hrest] at hends
      exact his.first left c right hlist hends
    · obtain ⟨c, right, rfl⟩ := List.exists_cons_of_ne_nil hback
      have hfrom : FromAt (withoutLastComma rest) :=
        StartsComma.fromAt (lastCommaLength_pos_iff.1 hpos)
      change withoutLastComma rest = _ at hrest
      rw [hrest] at hfrom
      exact absurd hfrom (his.not_fromAt hfront)
  · rintro ⟨⟨head, list, tail⟩, hshown, rfl⟩
    have hkept (left right : List Char) (hlist : list = left ++ right) :
        withoutLastComma (right ++ tail) = right ++ withoutLastComma tail := by
      refine replace_run fun before c after hright => ?_
      by_contra hne
      have hstarts := lastCommaLength_pos_iff.1 (Nat.pos_of_ne_zero hne)
      have hsplit : list = left ++ before ++ c :: after := by rw [hlist, hright, List.append_assoc]
      exact hshown.first _ c after hsplit (.comma hstarts)
    have hfrom : FromAt (withoutLastComma tail) := fromAt_withoutLastComma.2 hshown.tail
    have hcomma : ',' ∉ head := hshown.head.not_mem (by decide) (by decide)
    refine ⟨?_, hshown.head, ?_, hfrom, fun left c right hlist hends => ?_⟩
    · rw [hshown.eq, List.append_assoc, withoutLastComma_run hcomma, hkept [] list rfl,
        List.append_assoc]
    · exact startsWord_append (startsWord_of_append hshown.startsWord) hfrom.startsWord
    · rw [← hkept left (c :: right) hlist, fromAt_withoutLastComma] at hends
      exact hshown.first left c right hlist hends

/-- The second select list ends where the first does, or before. -/
theorem IsShown.list_isPrefix (h : IsShown (plainQuery query) shown)
    (hclause : selectClause? query = some clause) : shown.list <+: plainList clause.list := by
  obtain ⟨-, his⟩ := selectClause?_eq_some.1 hclause
  have heq := h.eq
  rw [plainQuery_eq hclause, List.append_assoc, List.append_assoc] at heq
  obtain ⟨-, hlist⟩ := IsHead.append_inj his.head h.head heq
  rcases List.append_eq_append_iff.1 hlist with ⟨between, hshown, htail⟩ | ⟨between, hplain, -⟩
  · cases between with
    | nil => exact ⟨[], by rw [hshown, List.append_nil, List.append_nil]⟩
    | cons c right => exact absurd (.plain (htail ▸ his.tail)) (h.first _ c right hshown)
  · exact ⟨between, hplain.symm⟩

/-! ## The second run -/

/-- **What is sent is clean** if no comma stood before one that went, and the select list that is
there now has neither aliases nor customizers. -/
theorem isClean_cleaned_iff : IsClean (cleaned query) ↔
    ¬ CommaBeforeComma (plainQuery query) ∧ ∀ shown, IsShown (plainQuery query) shown →
      ¬ HasAlias shown.list ∧ ¬ HasCustomizer shown.list := by
  rw [cleaned_eq_withoutLastComma, IsClean, commaBeforeFrom_withoutLastComma]
  refine and_congr_right fun _ => ⟨fun h shown hshown => ?_, fun h found hfound => ?_⟩
  · have hfound := selectClause?_withoutLastComma.2 ⟨shown, hshown, rfl⟩
    exact h ⟨shown.head, shown.list, withoutLastComma shown.tail⟩ hfound
  · obtain ⟨shown, hshown, rfl⟩ := selectClause?_withoutLastComma.1 hfound
    exact h shown hshown

/-- **Normalizing again.** A query without placeholders is sent as it stands just if it is clean.
What is sent for it is sent as it stands in its turn just if no comma stood before one that went,
and the select list that is there now has neither aliases nor customizers. For a query with a select
list there are none if no customizer stood behind an `AS`, a `-` or a `~` once the aliases were
gone. -/
theorem normalize_again_iff (hbrace : '{' ∉ query) :
    (normalize parameters query = .ok query ↔ IsClean query) ∧
      ∃ sent, normalize parameters query = .ok sent ∧
        (normalize parameters sent = .ok sent ↔
          ¬ CommaBeforeComma (plainQuery query) ∧ ∀ shown, IsShown (plainQuery query) shown →
            ¬ HasAlias shown.list ∧ ¬ HasCustomizer shown.list) ∧
        ∀ clause, selectClause? query = some clause → ¬ CommaBeforeComma (plainQuery query) →
          ¬ CustomizerBehindAs (without aliasLength clause.list) →
          ¬ CustomizerBehindMark (without aliasLength clause.list) →
          normalize parameters sent = .ok sent := by
  have hagain : normalize parameters (cleaned query) = .ok (cleaned query) ↔
      IsClean (cleaned query) := normalize_eq_self_iff (not_mem_cleaned_of_not_mem hbrace)
  rw [isClean_cleaned_iff] at hagain
  refine ⟨normalize_eq_self_iff hbrace, cleaned query, normalize_of_not_mem hbrace, hagain,
    fun clause hclause hcomma has hmark => hagain.2 ⟨hcomma, fun shown hshown => ⟨?_, ?_⟩⟩⟩
  · intro halias
    exact has (halias.mono (hshown.list_isPrefix hclause)).behindAs_of_plainList
  · intro hcustomizer
    exact hmark (hcustomizer.mono (hshown.list_isPrefix hclause)).behindMark

/-- An alias and a customizer go, and one comma. -/
theorem normalize_again_iff_sample :
    '{' ∉ "SELECT a.b~1 AS c, d.e, FROM f".toList ∧
      ∃ sent, normalize [] "SELECT a.b~1 AS c, d.e, FROM f".toList = .ok sent ∧
        normalize [] sent = .ok sent ∧
        ¬ CommaBeforeComma (plainQuery "SELECT a.b~1 AS c, d.e, FROM f".toList) := by
  have hbrace : '{' ∉ "SELECT a.b~1 AS c, d.e, FROM f".toList := by decide
  have hcleaned : cleaned "SELECT a.b~1 AS c, d.e, FROM f".toList =
      "SELECT a.b, d.e FROM f".toList := by decide +kernel
  have hsame : cleaned "SELECT a.b, d.e FROM f".toList = "SELECT a.b, d.e FROM f".toList := by
    decide +kernel
  obtain ⟨-, sent, hsent, hagain, -⟩ := @normalize_again_iff _ [] hbrace
  have hwhole := hsent
  rw [normalize_of_not_mem hbrace, hcleaned] at hwhole
  obtain rfl := Except.ok.inj hwhole
  have hclean : normalize [] "SELECT a.b, d.e FROM f".toList =
      .ok "SELECT a.b, d.e FROM f".toList :=
    (normalize_eq_self_iff (by decide)).2 (cleaned_eq_self_iff.1 hsame)
  exact ⟨hbrace, _, hsent, hclean, (hagain.1 hclean).1⟩

/-- **A second run finds more to take out**: a second comma, an alias that a customizer had kept
apart, and a customizer that another one had kept apart. -/
theorem normalize_again_fails :
    ('{' ∉ "SELECT campaign.id,, FROM campaign".toList ∧
      normalize [] "SELECT campaign.id,, FROM campaign".toList =
        .ok "SELECT campaign.id, FROM campaign".toList ∧
      normalize [] "SELECT campaign.id, FROM campaign".toList =
        .ok "SELECT campaign.id FROM campaign".toList) ∧
    ('{' ∉ "SELECT a.b AS~1 c FROM d".toList ∧
      normalize [] "SELECT a.b AS~1 c FROM d".toList = .ok "SELECT a.b AS c FROM d".toList ∧
      normalize [] "SELECT a.b AS c FROM d".toList = .ok "SELECT a.b FROM d".toList) ∧
    ('{' ∉ "SELECT a.b-~1>c FROM d".toList ∧
      normalize [] "SELECT a.b-~1>c FROM d".toList = .ok "SELECT a.b->c FROM d".toList ∧
      normalize [] "SELECT a.b->c FROM d".toList = .ok "SELECT a.b FROM d".toList) := by
  have hrun {query sent : List Char} (hbrace : '{' ∉ query) (h : cleaned query = sent) :
      normalize [] query = .ok sent := by rw [normalize_of_not_mem hbrace, h]
  refine ⟨⟨by decide, hrun (by decide) ?_, hrun (by decide) ?_⟩,
    ⟨by decide, hrun (by decide) ?_, hrun (by decide) ?_⟩,
    ⟨by decide, hrun (by decide) ?_, hrun (by decide) ?_⟩⟩
  all_goals decide +kernel

/-! ## Run after run -/

theorem length_withoutLastComma_le (text : List Char) :
    (withoutLastComma text).length ≤ text.length := by
  induction text using lastComma_induction with
  | nil => exact Nat.le_refl 0
  | kept c cs hzero ih =>
    rw [withoutLastComma_kept hzero]
    exact Nat.succ_le_succ ih
  | comma gap word c rest hgap hword hc ih =>
    have hlength := hword.length_eq
    rw [withoutLastComma_comma hgap hword hc]
    simp only [List.length_append, List.length_cons, List.length_nil] at hlength ⊢
    omega

/-- A run over a query that is not clean takes out characters, or a comma. -/
theorem cleaned_lt (h : ¬ IsClean query) :
    (cleaned query).length + (cleaned query).count ',' < query.length + query.count ',' := by
  have hsub := plainQuery_sublist query
  have hlength := hsub.length_le
  have hcount := hsub.count_le ','
  have hlength' := length_withoutLastComma_le (plainQuery query)
  have hcount' := count_withoutLastComma_le (plainQuery query)
  rw [cleaned_eq_withoutLastComma]
  by_cases hplain : plainQuery query = query
  · have hcomma : CommaBeforeFrom query := by
      by_contra hcomma
      exact h ⟨hcomma, plainQuery_eq_self_iff.1 hplain⟩
    have hlt := hcomma.count_lt
    rw [hplain] at hlength' ⊢
    omega
  · have hlt : (plainQuery query).length < query.length :=
      Nat.lt_of_le_of_ne hlength fun heq => hplain (hsub.eq_of_length heq)
    omega

/-- **Run after run, a query gets clean.** -/
theorem exists_isClean_iterate (query : List Char) :
    ∃ n ≤ query.length + query.count ',', IsClean (cleaned^[n] query) := by
  induction hn : query.length + query.count ',' using Nat.strongRecOn generalizing query with
  | ind n ih =>
    by_cases hclean : IsClean query
    · exact ⟨0, Nat.zero_le n, hclean⟩
    · have hlt := cleaned_lt hclean
      rw [hn] at hlt
      obtain ⟨m, hm, hclean⟩ := ih _ hlt (cleaned query) rfl
      exact ⟨m + 1, by omega, hclean⟩

end ReportQuery.Query
