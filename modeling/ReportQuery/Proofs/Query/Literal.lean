import ReportQuery.Proofs.Query.Comment
/-!
# Quoted literals under comment stripping

Comments and blanks are looked for line by line, with no notion of quotes. So a quoted literal at
the end of a query is kept as it stands just if it has no dashes in a row and no blanks but single
spaces (`stripComments_quoted_iff`): dashes cut it off (`count_keptWords_quoted`), and other blanks
become single spaces (`stripComments_quoted`).
-/

namespace ReportQuery.Query

open Text

variable {c : Char} {front literal text line left right : List Char}

/-- A literal in quotes. -/
def quoted (literal : List Char) : List Char := '\'' :: (literal ++ ['\''])

/-! ## Characters that are not blank -/

/-- A character that is not blank divides the runs of blanks. -/
theorem collapseFrom_append (hc : isBlank c = false) (inRun : Bool) :
    collapseFrom inRun (left ++ c :: right) =
      collapseFrom inRun left ++ c :: collapseFrom false right := by
  induction left generalizing inRun with
  | nil => simp [collapseFrom, hc]
  | cons d left ih =>
    rw [List.cons_append, collapseFrom, collapseFrom]
    cases hd : isBlank d with
    | true => cases inRun <;> simp [ih]
    | false => simp [ih]

/-- What is not blank stays. -/
theorem count_collapseFrom (hc : isBlank c = false) (inRun : Bool) :
    (collapseFrom inRun text).count c = text.count c := by
  have hspace : c ≠ ' ' := by
    rintro rfl
    cases hc
  induction text generalizing inRun with
  | nil => rfl
  | cons d text ih =>
    rw [collapseFrom]
    cases hd : isBlank d with
    | true =>
      have hdc : d ≠ c := by
        rintro rfl
        rw [hc] at hd
        cases hd
      cases inRun <;> simp [ih, hdc, Ne.symm hspace]
    | false => simp [ih, List.count_cons]

theorem eq_space_of_mem_collapseFrom {inRun : Bool} (h : c ∈ collapseFrom inRun text)
    (hc : isBlank c = true) : c = ' ' := by
  induction text generalizing inRun with
  | nil => cases h
  | cons d text ih =>
    rw [collapseFrom] at h
    cases hd : isBlank d with
    | true =>
      cases inRun with
      | true => exact ih (by simpa [hd] using h)
      | false =>
        rcases List.mem_cons.1 (by simpa [hd] using h) with rfl | h
        · rfl
        · exact ih h
    | false =>
      rcases List.mem_cons.1 (by simpa [hd] using h) with rfl | h
      · rw [hc] at hd
        cases hd
      · exact ih h

/-- Single spaces are what is left alone. -/
theorem collapse_eq_self_iff : collapse text = text ↔
    (∀ c ∈ text, isBlank c = true → c = ' ') ∧ ¬ [' ', ' '] <:+: text := by
  refine ⟨fun h => ⟨fun c hc => ?_, ?_⟩, fun ⟨hblank, hsingle⟩ => ?_⟩
  · rw [← h] at hc
    exact eq_space_of_mem_collapseFrom hc
  · rw [← h]
    exact (not_spaces_collapseFrom false text).1
  · exact collapseFrom_of_single hblank hsingle fun hrun => (by cases hrun)

/-! ## The line of a literal -/

/-- The words of a line that ends with a literal, if nothing in front of the literal starts a
comment. -/
theorem keptWords_quoted (hhash : '#' ∉ line) (hdashes : ¬ ['-', '-'] <:+: line) :
    keptWords (line ++ quoted literal) =
      words (line ++ '\'' :: beforeComment (literal ++ ['\''])) := by
  have hquote : (trimStart (quoted literal)).head? ≠ some '#' := by
    rw [quoted, trimStart_of_head (by decide)]
    simp
  have hcomment : isCommentLine (line ++ quoted literal) = false := by
    rw [isCommentLine_append hquote, isCommentLine, decide_eq_false_iff_not]
    intro hhead
    exact hhash ((List.dropWhile_suffix isBlank).subset (List.mem_of_head? hhead))
  rw [keptWords, hcomment, quoted, beforeComment_append_cons (by decide) hdashes]
  rfl

theorem count_join_spaces (hc : c ≠ ' ') (ws : List (List Char)) :
    (join [' '] ws).count c = ws.flatten.count c := by
  induction ws with
  | nil => rfl
  | cons word ws ih =>
    by_cases hws : ws = []
    · simp [hws, join]
    · rw [join_cons hws, List.flatten_cons]
      simp [ih, Ne.symm hc]

/-- What is left of a text that ends with a literal: words without quotes, and the words of the line
of the literal. -/
theorem exists_stripComments_quoted (hquote : '\'' ∉ front) (hhash : '#' ∉ front)
    (hdashes : ¬ ['-', '-'] <:+: front) (hline : '\n' ∉ literal) :
    ∃ ws last, (∀ word ∈ ws, '\'' ∉ word) ∧ '\'' ∉ last ∧
      stripComments (front ++ quoted literal) =
        join [' '] (ws ++ words (last ++ '\'' :: beforeComment (literal ++ ['\'']))) := by
  have hquoted : '\n' ∉ quoted literal := by simpa [quoted] using hline
  obtain ⟨init, last, hfront, hcells⟩ := cells_append_of_not_mem front hquoted
  have hoccurs : ∀ line ∈ init ++ [last], line <:+: front := fun line hline =>
    infix_of_mem_cells (hfront ▸ hline)
  have hlast := hoccurs last (by simp)
  refine ⟨init.flatMap keptWords, last, fun word hword hmem => ?_,
    fun hmem => hquote (hlast.subset hmem), ?_⟩
  · obtain ⟨line, hmemLine, hword⟩ := List.mem_flatMap.1 hword
    have hword := (of_mem_keptWords hword).1.trans (hoccurs line (by simp [hmemLine]))
    exact hquote (hword.subset hmem)
  · rw [stripComments_eq_words, hcells, List.flatMap_append, List.flatMap_singleton,
      keptWords_quoted (fun hmem => hhash (hlast.subset hmem)) fun h => hdashes (h.trans hlast)]

/-- **Dashes cut a literal off**: of its quotes, one is lost. -/
theorem count_stripComments_quoted (hquote : '\'' ∉ front) (hhash : '#' ∉ front)
    (hdashes : ¬ ['-', '-'] <:+: front) (hline : '\n' ∉ literal)
    (hliteral : ['-', '-'] <:+: literal) :
    (stripComments (front ++ quoted literal)).count '\'' < (quoted literal).count '\'' := by
  obtain ⟨ws, last, hws, hlast, hstrip⟩ :=
    exists_stripComments_quoted hquote hhash hdashes hline
  have hnone : ws.flatten.count '\'' = 0 := List.count_eq_zero.2 fun hmem => by
    obtain ⟨word, hword, hmem⟩ := List.mem_flatten.1 hmem
    exact hws word hword hmem
  have hkept := (prefix_beforeComment literal).sublist.count_le '\''
  rw [hstrip, beforeComment_append_of_dashes hliteral, count_join_spaces (by decide),
    List.flatten_append, List.count_append, hnone, count_words (by decide), quoted]
  simp only [List.count_append, List.count_cons_self, List.count_nil, List.count_eq_zero.2 hlast]
  omega

theorem isTrimmed_quoted (line literal : List Char) :
    IsTrimmed (trimStart line ++ quoted literal) := by
  have htrim : trimStart (line ++ quoted literal) = trimStart line ++ quoted literal := by
    by_cases hline : trimStart line = []
    · rw [trimStart_append_of_eq_nil hline, hline, quoted, trimStart_of_head (by decide)]
      rfl
    · exact trimStart_append hline
  refine ⟨fun c hc => ?_, fun c hc => ?_⟩
  · rw [← htrim] at hc
    obtain ⟨rest, hrest⟩ := List.head?_eq_some_iff.1 hc
    exact isBlank_head_trimStart hrest
  · rw [quoted, ← List.cons_append, ← List.append_assoc, List.getLast?_concat] at hc
    obtain rfl := Option.some.inj hc
    decide

/-- **What is left ends with the literal**, with a single space for each run of blanks in it. -/
theorem stripComments_quoted (hquote : '\'' ∉ front) (hhash : '#' ∉ front)
    (hdashes : ¬ ['-', '-'] <:+: front) (hline : '\n' ∉ literal)
    (hliteral : ¬ ['-', '-'] <:+: literal) :
    ∃ front', '\'' ∉ front' ∧
      stripComments (front ++ quoted literal) = front' ++ quoted (collapse literal) := by
  obtain ⟨ws, last, hws, hlast, hstrip⟩ :=
    exists_stripComments_quoted hquote hhash hdashes hline
  have hwhole : beforeComment (literal ++ ['\'']) = literal ++ ['\''] :=
    beforeComment_append_cons (by decide) hliteral
  have hwords : words (last ++ quoted literal) = words (trimStart last ++ quoted literal) := by
    obtain ⟨gap, hgap, hsplit⟩ := exists_gap_trimStart last
    conv_lhs => rw [hsplit, List.append_assoc, words_gap hgap]
  have hcollapse : join [' '] (words (trimStart last ++ quoted literal)) =
      collapse (trimStart last) ++ quoted (collapse literal) := by
    have hquote : isBlank '\'' = false := by decide
    rw [← collapse_eq (isTrimmed_quoted last literal), collapse, quoted, collapseFrom_append hquote,
      collapseFrom_append hquote]
    rfl
  have hlast' : '\'' ∉ collapse (trimStart last) := by
    have hcount : (collapseFrom false (trimStart last)).count '\'' = (trimStart last).count '\'' :=
      count_collapseFrom (by decide) false
    rw [← List.count_eq_zero, collapse, hcount, List.count_eq_zero]
    exact fun hmem => hlast ((List.dropWhile_suffix isBlank).subset hmem)
  rw [hwhole, ← quoted, hwords] at hstrip
  by_cases hnil : ws = []
  · rw [hnil, List.nil_append, hcollapse] at hstrip
    exact ⟨_, hlast', hstrip⟩
  · have hne : words (trimStart last ++ quoted literal) ≠ [] :=
      words_ne_nil (by simp [quoted]) (isTrimmed_quoted last literal).2
    rw [join_append hnil hne, hcollapse, ← List.append_assoc] at hstrip
    refine ⟨_, ?_, hstrip⟩
    simpa [hlast'] using not_mem_join (by decide) hws

/-! ## Literals that are kept as they stand -/

/-- A text that shows no comment, with no blanks but single spaces. -/
structure IsSpaced (text : List Char) : Prop where
  dashes : ¬ ['-', '-'] <:+: text
  blank : ∀ c ∈ text, isBlank c = true → c = ' '
  single : ¬ [' ', ' '] <:+: text

/-- With no quote in front, a text ends with a literal in quotes just if that is all it ends with. -/
theorem quoted_suffix_iff {kept : List Char} (hfront : '\'' ∉ front)
    (hcount : kept.count '\'' = literal.count '\'') :
    quoted literal <:+ front ++ quoted kept ↔ literal = kept := by
  constructor
  · rintro ⟨left, h⟩
    rcases List.append_eq_append_iff.1 h with ⟨between, rfl, hbetween⟩ | ⟨between, rfl, hbetween⟩
    · cases between with
      | nil =>
        obtain ⟨-, hlast⟩ := List.cons.inj hbetween
        exact List.append_cancel_right hlast
      | cons d between =>
        -- the first quote of the literal would stand in front
        obtain ⟨rfl, -⟩ := List.cons.inj hbetween
        exact absurd (by simp) hfront
    · have hquotes := congrArg (List.count '\'') hbetween
      cases between with
      | nil =>
        obtain ⟨-, hlast⟩ := List.cons.inj hbetween
        exact (List.append_cancel_right hlast).symm
      | cons d between =>
        obtain ⟨rfl, -⟩ := List.cons.inj hbetween
        simp only [quoted, List.count_cons_self, List.count_append, List.count_nil] at hquotes
        omega
  · rintro rfl
    exact List.suffix_append front (quoted literal)

/-- **A quoted literal at the end of a query** is kept as it stands just if it shows no comment and
has no blanks but single spaces. -/
theorem stripComments_quoted_iff (hquote : '\'' ∉ front) (hhash : '#' ∉ front)
    (hdashes : ¬ ['-', '-'] <:+: front) :
    quoted literal <:+ stripComments (front ++ quoted literal) ↔ IsSpaced literal := by
  by_cases hline : '\n' ∈ literal
  · -- no line feed is left, and a line feed is no space
    constructor
    · intro hsuffix
      exact absurd (hsuffix.subset (by simp [quoted, hline])) (isBare_stripComments _).lineFeed
    · intro h
      exact absurd (h.blank '\n' hline (by decide)) (by decide)
  by_cases hliteral : ['-', '-'] <:+: literal
  · refine iff_of_false (fun hsuffix => ?_) fun h => h.dashes hliteral
    have hlost := count_stripComments_quoted hquote hhash hdashes hline hliteral
    have hcount := hsuffix.sublist.count_le '\''
    omega
  · obtain ⟨front', hfront, hstrip⟩ := stripComments_quoted hquote hhash hdashes hline hliteral
    have hcount : (collapse literal).count '\'' = literal.count '\'' :=
      count_collapseFrom (by decide) false
    rw [hstrip, quoted_suffix_iff hfront hcount, eq_comm, collapse_eq_self_iff]
    exact ⟨fun ⟨hblank, hsingle⟩ => ⟨hliteral, hblank, hsingle⟩, fun h => ⟨h.blank, h.single⟩⟩

/-- Comment marks and commas within a literal are no harm. -/
theorem stripComments_quoted_iff_sample :
    '\'' ∉ "SELECT a.b\n  FROM a\nWHERE a.c = ".toList ∧
      '#' ∉ "SELECT a.b\n  FROM a\nWHERE a.c = ".toList ∧
      ¬ ['-', '-'] <:+: "SELECT a.b\n  FROM a\nWHERE a.c = ".toList ∧
      quoted "# 1 - 2, é".toList <:+
        stripComments ("SELECT a.b\n  FROM a\nWHERE a.c = ".toList ++ quoted "# 1 - 2, é".toList) := by
  have hquote : '\'' ∉ "SELECT a.b\n  FROM a\nWHERE a.c = ".toList := by decide
  have hhash : '#' ∉ "SELECT a.b\n  FROM a\nWHERE a.c = ".toList := by decide
  have hdashes : ¬ ['-', '-'] <:+: "SELECT a.b\n  FROM a\nWHERE a.c = ".toList :=
    cut?_eq_none.1 (by decide +kernel)
  have hblank : "# 1 - 2, é".toList.all (fun c => !isBlank c || c = ' ') = true := by decide +kernel
  have hspaced : IsSpaced "# 1 - 2, é".toList :=
    ⟨cut?_eq_none.1 (by decide +kernel),
      fun c hc hb => by simpa [hb] using List.all_eq_true.1 hblank c hc,
      cut?_eq_none.1 (by decide +kernel)⟩
  exact ⟨hquote, hhash, hdashes, (stripComments_quoted_iff hquote hhash hdashes).2 hspaced⟩

/-- **Two spaces within quotes become one.** -/
theorem stripComments_quoted_fails :
    ¬ ∀ front literal : List Char, ('\'' ∉ front ∧ '"' ∉ front) →
      ('\'' ∉ literal ∧ '"' ∉ literal ∧ '\n' ∉ literal ∧ '{' ∉ literal ∧ '}' ∉ literal) →
      '#' ∉ front → ¬ ['-', '-'] <:+: front →
      quoted literal <:+ stripComments (front ++ quoted literal) := by
  intro h
  have hsuffix := h "SELECT a.b FROM a WHERE a.c = ".toList "x  y".toList (by decide +kernel)
    (by decide +kernel) (by decide +kernel) (cut?_eq_none.1 (by decide +kernel))
  revert hsuffix
  decide +kernel

end ReportQuery.Query
