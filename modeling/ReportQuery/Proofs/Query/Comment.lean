import ReportQuery.Proofs.Query.Layout
import ReportQuery.Query.Compiled
/-!
# What is left without comments

A query without comments is the words of its lines, each line up to its comment, with single spaces
between them (`stripComments_eq_words`). From this one equation follow the form of what is left
(`IsBare`), that texts of this form are left alone (`stripComments_eq_self_iff`), and what may be
added to a text without a change: lines that have no words, and comments at the ends of lines.
-/

namespace ReportQuery.Query

open Text

variable {c : Char} {text line word comment left right : List Char} {ws : List (List Char)}

/-! ## Comments on a line -/

theorem beforeComment_of_not_dashes (h : ¬ ['-', '-'] <:+: line) : beforeComment line = line := by
  rw [beforeComment, cut?_eq_none.2 h]

theorem beforeComment_append_of_dashes (h : ['-', '-'] <:+: line) (right : List Char) :
    beforeComment (line ++ right) = beforeComment line := by
  obtain ⟨⟨before, rest⟩, hcut⟩ : ∃ parts, cut? ['-', '-'] line = some parts :=
    Option.ne_none_iff_exists'.1 fun hnone => cut?_eq_none.1 hnone h
  rw [beforeComment, beforeComment, cut?_append_of_some hcut, hcut]

/-- Without dashes in front, the comment is looked for behind. -/
theorem beforeComment_append_cons (hc : c ≠ '-') (h : ¬ ['-', '-'] <:+: line) :
    beforeComment (line ++ c :: right) = line ++ c :: beforeComment right := by
  have hsep : c ∉ ['-', '-'] := by simpa using hc
  rw [beforeComment, beforeComment, cut?_append_cons hsep h]
  cases cut? ['-', '-'] right <;> rfl

theorem prefix_beforeComment (line : List Char) : beforeComment line <+: line := by
  rw [beforeComment]
  split
  · next before rest hcut => exact ⟨_, (eq_of_cut? hcut).symm⟩
  · exact List.prefix_rfl

theorem not_dashes_beforeComment (line : List Char) : ¬ ['-', '-'] <:+: beforeComment line := by
  rw [beforeComment]
  split
  · next before rest hcut => exact not_infix_of_cut? (by simp) hcut
  · next hcut => exact cut?_eq_none.1 hcut

/-- Whether a line is a comment line shows in its first character that is not blank. -/
theorem isCommentLine_append (h : (trimStart right).head? ≠ some '#') :
    isCommentLine (left ++ right) = isCommentLine left := by
  rw [isCommentLine, isCommentLine]
  by_cases hleft : trimStart left = []
  · rw [trimStart_append_of_eq_nil hleft, hleft]
    simpa using h
  · rw [trimStart_append hleft, List.head?_append_of_ne_nil _ hleft]

/-! ## The words that are kept of a line -/

/-- The words of a line in front of its comment. A comment line has none. -/
def keptWords (line : List Char) : List (List Char) :=
  if isCommentLine line then [] else words (beforeComment line)

/-- A kept word stands in the line, and has no dashes. -/
theorem of_mem_keptWords (h : word ∈ keptWords line) :
    word <:+: line ∧ IsWordText word ∧ ¬ ['-', '-'] <:+: word := by
  obtain ⟨-, h⟩ := List.mem_ite_nil_left.1 h
  obtain ⟨hoccurs, hword⟩ := of_mem_words h
  exact ⟨hoccurs.trans (prefix_beforeComment line).isInfix, hword,
    fun hdashes => not_dashes_beforeComment line (hdashes.trans hoccurs)⟩

/-- The first word that is kept does not start as a comment line does. -/
theorem head?_keptWords (h : keptWords line = word :: ws) : word.head? ≠ some '#' := by
  rw [keptWords] at h
  split at h
  · cases h
  · next hcomment =>
    have hhead := head?_trimStart_of_words h
    obtain ⟨rest, hline⟩ := prefix_beforeComment line
    have hne : trimStart (beforeComment line) ≠ [] := by
      intro hnil
      rw [words_of_isBlank (isBlank_of_trimStart_eq_nil hnil)] at h
      cases h
    rw [isCommentLine, ← hline, trimStart_append hne, List.head?_append_of_ne_nil _ hne, hhead]
      at hcomment
    simpa using hcomment

/-- **What stands behind the words of a line** does not count, if a blank parts it from them. -/
theorem keptWords_append (hc : isBlank c = true) (hhead : (trimStart right).head? ≠ some '#')
    (hright : words (beforeComment right) = []) :
    keptWords (line ++ c :: right) = keptWords line := by
  have hdash : c ≠ '-' := by
    rintro rfl
    exact absurd hc (by decide)
  have hhead' : (trimStart (c :: right)).head? ≠ some '#' := by
    rwa [trimStart, List.dropWhile_cons_of_pos hc, ← trimStart]
  rw [keptWords, keptWords, isCommentLine_append hhead']
  congr 1
  by_cases hdashes : ['-', '-'] <:+: line
  · rw [beforeComment_append_of_dashes hdashes]
  · rw [beforeComment_append_cons hdash hdashes, beforeComment_of_not_dashes hdashes,
      words_append hc, hright, List.append_nil]

theorem keptWords_append_comment :
    keptWords (line ++ ' ' :: '-' :: '-' :: comment) = keptWords line := by
  have htrim : trimStart ('-' :: '-' :: comment) = '-' :: '-' :: comment := rfl
  have hbefore : beforeComment ('-' :: '-' :: comment) = [] := rfl
  exact keptWords_append (by decide) (by simp [htrim]) (by rw [hbefore, words_nil])

theorem keptWords_append_return : keptWords (line ++ ['\r']) = keptWords line :=
  keptWords_append (by decide) (by simp [trimStart]) rfl

/-! ## The words of a query without comments -/

/-- The carriage return of a line end does not count. -/
theorem keptWords_withoutReturn (line : List Char) :
    keptWords (withoutReturn line) = keptWords line := by
  rw [withoutReturn]
  split
  · next hlast =>
    obtain ⟨init, rfl⟩ := List.getLast?_eq_some_iff.1 hlast
    rw [List.dropLast_concat, keptWords_append_return]
  · rfl

theorem keptWords_lines (text : List Char) :
    (lines text).flatMap keptWords = (cells '\n' text).flatMap keptWords := by
  obtain ⟨init, last, hcells, hlines⟩ := exists_lines_eq text
  have hinit : (init.map withoutReturn).flatMap keptWords = init.flatMap keptWords := by
    rw [List.flatMap_map]
    exact congrArg (init.flatMap ·) (funext keptWords_withoutReturn)
  have hnil : keptWords [] = [] := rfl
  rw [hlines, hcells, List.flatMap_append, List.flatMap_append, hinit]
  by_cases hlast : last = [] <;> simp [hlast, hnil]

/-- **What is left of a query** are the words that are kept of its lines. -/
theorem stripComments_eq_words (text : List Char) :
    stripComments text = join [' '] ((cells '\n' text).flatMap keptWords) := by
  have htrimmed (lines : List (List Char)) :
      ∀ line ∈ (lines.map trim).filter (fun line => line ≠ []), line ≠ [] ∧ IsTrimmed line := by
    intro line hline
    obtain ⟨hmem, hne⟩ := List.mem_filter.1 hline
    obtain ⟨whole, -, rfl⟩ := List.mem_map.1 hmem
    exact ⟨of_decide_eq_true hne, isTrimmed_trim whole⟩
  have hkept (lines : List (List Char)) :
      ((lines.filter fun line => !isCommentLine line).map beforeComment).flatMap words =
        lines.flatMap keptWords := by
    induction lines with
    | nil => rfl
    | cons line lines ih =>
      rw [List.flatMap_cons, ← ih, keptWords]
      cases hcomment : isCommentLine line <;> simp [hcomment]
  rw [stripComments, ← keptWords_lines, ← hkept, ← flatMap_words_filter, ← words_join (b := ' ') rfl,
    ← collapse_eq (isTrimmed_join (htrimmed _)), List.map_map]
  rfl

/-! ## Single spaces -/

/-- A text in one line that shows no comment, whose words stand between single spaces. -/
structure IsBare (text : List Char) : Prop where
  lineFeed : '\n' ∉ text
  dashes : ¬ ['-', '-'] <:+: text
  blank : ∀ c ∈ text, isBlank c = true → c = ' '
  single : ¬ [' ', ' '] <:+: text
  first : ∀ c ∈ text.head?, c ≠ ' ' ∧ c ≠ '#'
  last : ∀ c ∈ text.getLast?, c ≠ ' '

/-- Of two spaces in a row, one at most is left. -/
theorem not_spaces_collapseFrom (inRun : Bool) (text : List Char) :
    ¬ [' ', ' '] <:+: collapseFrom inRun text ∧
      (inRun = true → (collapseFrom inRun text).head? ≠ some ' ') := by
  induction text generalizing inRun with
  | nil => simp [collapseFrom]
  | cons c cs ih =>
    obtain ⟨hrun, hhead⟩ := ih true
    obtain ⟨hword, -⟩ := ih false
    rw [collapseFrom]
    cases hc : isBlank c with
    | true =>
      cases inRun with
      | true => exact ih true
      | false =>
        refine ⟨fun hoccurs => ?_, fun h => (by cases h)⟩
        rcases List.infix_cons_iff.1 hoccurs with hstarts | hoccurs
        · obtain ⟨rest, hrest⟩ := (List.prefix_cons_inj ' ').1 hstarts
          exact hhead rfl (List.head?_eq_some_iff.2 ⟨rest, hrest.symm⟩)
        · exact hrun hoccurs
    | false =>
      have hspace : c ≠ ' ' := by
        rintro rfl
        cases hc
      refine ⟨fun hoccurs => ?_, fun _ => by simpa using hspace⟩
      rcases List.infix_cons_iff.1 hoccurs with hstarts | hoccurs
      · exact hspace (List.cons_prefix_cons.1 hstarts).1.symm
      · exact hword hoccurs

/-- Single spaces stay. -/
theorem collapseFrom_of_single {inRun : Bool} (hblank : ∀ c ∈ text, isBlank c = true → c = ' ')
    (hsingle : ¬ [' ', ' '] <:+: text) (hhead : inRun = true → text.head? ≠ some ' ') :
    collapseFrom inRun text = text := by
  induction text generalizing inRun with
  | nil => rfl
  | cons c cs ih =>
    have hcs : ∀ c ∈ cs, isBlank c = true → c = ' ' := fun d hd => hblank d (by simp [hd])
    rw [List.infix_cons_iff, not_or] at hsingle
    rw [collapseFrom]
    cases hc : isBlank c with
    | true =>
      obtain rfl := hblank c (by simp) hc
      cases inRun with
      | true => exact absurd rfl (hhead rfl)
      | false =>
        have hnext : cs.head? ≠ some ' ' := by
          intro hnext
          obtain ⟨rest, rfl⟩ := List.head?_eq_some_iff.1 hnext
          exact hsingle.1 ⟨rest, rfl⟩
        simp [ih hcs hsingle.2 fun _ => hnext]
    | false =>
      have hrest : collapseFrom false cs = cs := ih hcs hsingle.2 fun h => (by cases h)
      simp [hrest]

namespace IsBare

theorem isTrimmed (h : IsBare text) : IsTrimmed text := by
  have hblank {c : Char} (hmem : c ∈ text) (hc : c ≠ ' ') : isBlank c = false := by
    cases hb : isBlank c with
    | false => rfl
    | true => exact absurd (h.blank c hmem hb) hc
  exact ⟨fun c hc => hblank (List.mem_of_head? hc) (h.first c hc).1,
    fun c hc => hblank (List.mem_of_getLast? hc) (h.last c hc)⟩

/-- Such a text is its words with single spaces. -/
theorem join_words (h : IsBare text) : join [' '] (words text) = text := by
  rw [← collapse_eq h.isTrimmed]
  exact collapseFrom_of_single h.blank h.single fun hrun => (by cases hrun)

/-- All words of such a text are kept. -/
theorem keptWords_eq (h : IsBare text) : keptWords text = words text := by
  have hcomment : isCommentLine text = false := by
    rw [isCommentLine, decide_eq_false_iff_not]
    intro hhead
    cases text with
    | nil => cases hhead
    | cons c cs =>
      rw [trimStart_of_head (h.isTrimmed.1 c rfl), List.head?_cons, Option.some.injEq] at hhead
      exact (h.first c rfl).2 hhead
  rw [keptWords, hcomment, beforeComment_of_not_dashes h.dashes]
  rfl

end IsBare

theorem stripComments_of_isBare (h : IsBare text) : stripComments text = text := by
  rw [stripComments_eq_words, cells_of_not_mem h.lineFeed, List.flatMap_singleton, h.keptWords_eq,
    h.join_words]

/-- Words without dashes, with single spaces between them, are a bare text, unless a comment mark
stands in front. -/
theorem isBare_join (hws : ∀ word ∈ ws, IsWordText word ∧ ¬ ['-', '-'] <:+: word)
    (hfirst : ∀ word ∈ ws.head?, word.head? ≠ some '#') : IsBare (join [' '] ws) := by
  have hwords : words (join [' '] ws) = ws :=
    (Relaid.refl _).words_eq fun word hword => (hws word hword).1
  have htrimmed : IsTrimmed (join [' '] ws) := isTrimmed_join fun word hword =>
    ⟨(hws word hword).1.1, (hws word hword).1.isTrimmed⟩
  have hblank : ∀ c ∈ join [' '] ws, isBlank c = true → c = ' ' := by
    intro c hc hb
    rcases mem_join.1 hc with ⟨word, hword, hc⟩ | ⟨hc, -⟩
    · rw [(hws word hword).1.2 c hc] at hb
      cases hb
    · exact List.mem_singleton.1 hc
  have hspace {c : Char} (hb : isBlank c = false) : c ≠ ' ' := by
    rintro rfl
    cases hb
  refine ⟨fun hmem => ?_, fun hdashes => ?_, hblank, ?_,
    fun c hc => ⟨hspace (htrimmed.1 c hc), ?_⟩, fun c hc => hspace (htrimmed.2 c hc)⟩
  · have hfeed := hblank '\n' hmem (by decide)
    revert hfeed
    decide
  · -- the dashes would stand within a word
    have hdash : isBlank '-' = false := by decide
    obtain ⟨word, hword, hoccurs⟩ := exists_word_of_infix ⟨by simp, by simp [hdash]⟩ hdashes
    exact (hws word (hwords ▸ hword)).2 hoccurs
  · have hcollapse : collapse (join [' '] ws) = join [' '] ws := by rw [collapse_eq htrimmed, hwords]
    rw [← hcollapse]
    exact (not_spaces_collapseFrom false _).1
  · rintro rfl
    cases ws with
    | nil => cases hc
    | cons word ws =>
      obtain ⟨rest, hrest⟩ := List.head?_eq_some_iff.1 hc
      have hhead := head?_trimStart_of_words hwords
      rw [hrest, trimStart_of_head (by decide), List.head?_cons] at hhead
      exact hfirst word rfl hhead.symm

/-- **What is left** is a bare text. -/
theorem isBare_stripComments (text : List Char) : IsBare (stripComments text) := by
  rw [stripComments_eq_words]
  refine isBare_join (fun word hword => ?_) fun word hword => ?_
  · obtain ⟨line, -, hword⟩ := List.mem_flatMap.1 hword
    exact (of_mem_keptWords hword).2
  · rw [Option.mem_def, List.head?_flatMap] at hword
    obtain ⟨line, -, hline⟩ := List.exists_of_findSome?_eq_some hword
    obtain ⟨ws, hws⟩ := List.head?_eq_some_iff.1 hline
    exact head?_keptWords hws

/-- **The texts that are left alone** are the bare ones. -/
theorem stripComments_eq_self_iff : stripComments text = text ↔ IsBare text :=
  ⟨fun h => h ▸ isBare_stripComments text, stripComments_of_isBare⟩

/-! ## What may be added to a text -/

/-- A line of blanks, or one whose first other character is a comment mark. -/
def IsIdle (line : List Char) : Prop :=
  ∃ gap rest, line = gap ++ rest ∧ (∀ c ∈ gap, isBlank c = true) ∧ ∀ c ∈ rest.head?, c = '#'

/-- The line ends in front of the text. -/
def EndsLine (text : List Char) : Prop :=
  text = [] ∨ ∃ rest, text = '\n' :: rest ∨ text = '\r' :: '\n' :: rest

theorem keptWords_of_isIdle (h : IsIdle line) : keptWords line = [] := by
  obtain ⟨gap, rest, rfl, hgap, hrest⟩ := h
  have htrim : trimStart gap = [] := List.dropWhile_eq_nil_iff.2 hgap
  cases rest with
  | nil =>
    rw [keptWords, List.append_nil, words_of_isBlank fun c hc =>
      hgap c ((prefix_beforeComment gap).subset hc), ite_self]
  | cons c rest =>
    obtain rfl := hrest c rfl
    have hcomment : isCommentLine (gap ++ '#' :: rest) = true := by
      rw [isCommentLine, trimStart_append_of_eq_nil htrim, trimStart_of_head (by decide)]
      rfl
    rw [keptWords, hcomment]
    rfl

/-- **A line without words** may stand between two lines. -/
theorem stripComments_insert_line (hline : '\n' ∉ line) (hidle : IsIdle line) :
    stripComments (left ++ '\n' :: (line ++ '\n' :: right)) =
      stripComments (left ++ '\n' :: right) := by
  simp only [stripComments_eq_words, cells_append, cells_of_not_mem hline, List.flatMap_append,
    List.flatMap_singleton, keptWords_of_isIdle hidle, List.nil_append]

/-- What adds no words to any line may stand at the end of the last one. -/
theorem flatMap_keptWords_append (hright : '\n' ∉ right)
    (h : ∀ line, keptWords (line ++ right) = keptWords line) (left : List Char) :
    (cells '\n' (left ++ right)).flatMap keptWords = (cells '\n' left).flatMap keptWords := by
  obtain ⟨init, last, hleft, happend⟩ := cells_append_of_not_mem left hright
  rw [hleft, happend, List.flatMap_append, List.flatMap_append, List.flatMap_singleton,
    List.flatMap_singleton, h]

/-- **A comment** may stand at the end of a line. -/
theorem stripComments_insert_comment (hcomment : '\n' ∉ comment) (hends : EndsLine right) :
    stripComments (left ++ ' ' :: '-' :: '-' :: (comment ++ right)) =
      stripComments (left ++ right) := by
  have hadd {comment : List Char} (hcomment : '\n' ∉ comment) :
      (cells '\n' (left ++ ' ' :: '-' :: '-' :: comment)).flatMap keptWords =
        (cells '\n' left).flatMap keptWords :=
    flatMap_keptWords_append (by simpa using hcomment) (fun _ => keptWords_append_comment) left
  rw [stripComments_eq_words, stripComments_eq_words]
  congr 1
  rcases hends with rfl | ⟨rest, rfl | rfl⟩
  · rw [List.append_nil, List.append_nil, hadd hcomment]
  · have hsplit : left ++ ' ' :: '-' :: '-' :: (comment ++ '\n' :: rest) =
        left ++ ' ' :: '-' :: '-' :: comment ++ '\n' :: rest := by simp
    rw [hsplit, cells_append, cells_append, List.flatMap_append, List.flatMap_append, hadd hcomment]
  · -- the carriage return belongs to the line as well
    have hsplit : left ++ ' ' :: '-' :: '-' :: (comment ++ '\r' :: '\n' :: rest) =
        left ++ ' ' :: '-' :: '-' :: (comment ++ ['\r']) ++ '\n' :: rest := by simp
    have hsplit' : left ++ '\r' :: '\n' :: rest = left ++ ['\r'] ++ '\n' :: rest := by simp
    have hreturn : '\n' ∉ comment ++ ['\r'] := by simpa using hcomment
    have hends := flatMap_keptWords_append (by simp) (fun _ => keptWords_append_return) left
    rw [hsplit, hsplit', cells_append, cells_append, List.flatMap_append, List.flatMap_append,
      hadd hreturn, hends]

/-- **Removing comments computes a canonical form.** What is left is a bare text, and the bare texts
are those that are left alone; so a second run changes nothing, and compiling sees no difference. A
line without words between two lines, and a comment at the end of a line, change nothing either. -/
theorem stripComments_canonical :
    (∀ text, IsBare (stripComments text)) ∧
      (∀ text, stripComments text = text ↔ IsBare text) ∧
      (∀ text, stripComments (stripComments text) = stripComments text) ∧
      (∀ schema parameters text, compile schema parameters (stripComments text) =
        compile schema parameters text) ∧
      (∀ left line right, '\n' ∉ line → IsIdle line →
        stripComments (left ++ '\n' :: (line ++ '\n' :: right)) =
          stripComments (left ++ '\n' :: right)) ∧
      ∀ left comment right, '\n' ∉ comment → EndsLine right →
        stripComments (left ++ ' ' :: '-' :: '-' :: (comment ++ right)) =
          stripComments (left ++ right) := by
  have htwice (text : List Char) : stripComments (stripComments text) = stripComments text :=
    stripComments_of_isBare (isBare_stripComments text)
  refine ⟨isBare_stripComments, fun _ => stripComments_eq_self_iff, htwice, ?_,
    fun _ _ _ => stripComments_insert_line, fun _ _ _ => stripComments_insert_comment⟩
  intro schema parameters text
  rw [compile, htwice, ← compile]

/-- A comment line within a query and a comment at the end of a line that ends with a carriage
return. -/
theorem stripComments_canonical_sample :
    '\n' ∉ "  # all of them".toList ∧ IsIdle "  # all of them".toList ∧ '\n' ∉ " its name".toList ∧
      EndsLine "\r\nFROM a".toList ∧
      stripComments ("SELECT a.b".toList ++ '\n' :: ("  # all of them".toList ++
        '\n' :: "FROM a".toList)) = "SELECT a.b FROM a".toList ∧
      stripComments ("SELECT  a.b,".toList ++ ' ' :: '-' :: '-' :: (" its name".toList ++
        "\r\nFROM a".toList)) = "SELECT a.b, FROM a".toList := by
  have hline : '\n' ∉ "  # all of them".toList := by decide
  have hidle : IsIdle "  # all of them".toList :=
    ⟨"  ".toList, '#' :: " all of them".toList, by decide +kernel,
      List.all_eq_true.1 (by decide +kernel), fun c hc => (Option.some.inj hc).symm⟩
  have hcomment : '\n' ∉ " its name".toList := by decide
  have hends : EndsLine "\r\nFROM a".toList := .inr ⟨"FROM a".toList, .inr (by decide +kernel)⟩
  obtain ⟨-, -, -, -, hinsert, happend⟩ := stripComments_canonical
  have hinserted := hinsert "SELECT a.b".toList _ "FROM a".toList hline hidle
  have happended := happend "SELECT  a.b,".toList _ _ hcomment hends
  exact ⟨hline, hidle, hcomment, hends, hinserted.trans (by decide +kernel),
    happended.trans (by decide +kernel)⟩

end ReportQuery.Query
