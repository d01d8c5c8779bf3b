import ReportQuery.Proofs.Text.Words
import ReportQuery.Query.Comment
/-!
# Layout does not matter

A query without comments is its words with single spaces between them
(`stripComments_eq`). So whichever blanks stand in the place of single spaces (`Relaid`),
the same query is left (`stripComments_of_relaid`).
-/

namespace ReportQuery.Query

open Text

variable {c : Char} {text line single sep left right : List Char}

/-! ## Single spaces -/

theorem words_ne_nil (hne : text ≠ []) (h : ∀ c ∈ text.getLast?, isBlank c = false) :
    words text ≠ [] := by
  obtain ⟨init, last, rfl⟩ := text.eq_nil_or_concat'.resolve_left hne
  have hlast : IsWordText [last] := ⟨by simp, by simpa using h⟩
  obtain ⟨word, hword, -⟩ := exists_word_of_infix hlast (List.suffix_append init [last]).isInfix
  exact List.ne_nil_of_mem hword

/-- Runs of blanks become single spaces, in front of the first word too unless a run has
been started. -/
theorem collapseFrom_eq (h : ∀ c ∈ text.getLast?, isBlank c = false) (inRun : Bool) :
    collapseFrom inRun text =
      (if inRun = false ∧ text.head?.any isBlank = true then [' '] else []) ++
        join [' '] (words text) := by
  induction text generalizing inRun with
  | nil => simp [collapseFrom, join]
  | cons c cs ih =>
    have hcs : ∀ c ∈ cs.getLast?, isBlank c = false := fun d hd => h d <| by
      cases cs with
      | nil => cases hd
      | cons e es => rwa [List.getLast?_cons_cons]
    rw [collapseFrom]
    cases hc : isBlank c with
    | true =>
      rw [if_pos rfl, ih hcs, words_cons hc]
      cases inRun <;> simp [hc]
    | false =>
      rw [if_neg (by simp), ih hcs]
      cases cs with
      | nil =>
        have hword : IsWordText [c] := ⟨by simp, by simpa using hc⟩
        simp [words_of_isWordText hword, join, hc]
      | cons d ds =>
        cases hd : isBlank d with
        | true =>
          have hwords : words (d :: ds) ≠ [] := words_ne_nil (by simp) hcs
          rw [words_cons_of_head hc (by simpa using hd), join_cons hwords]
          simp [hc, hd]
        | false =>
          obtain ⟨word, rest, hwords, hwords'⟩ := words_cons_of_word ds hc hd
          rw [hwords, hwords', ← cons_join]
          simp [hc, hd]

/-- **A trimmed text becomes its words with single spaces.** -/
theorem collapse_eq (h : IsTrimmed text) : collapse text = join [' '] (words text) := by
  rw [collapse, collapseFrom_eq h.2, if_neg, List.nil_append]
  rintro ⟨-, hblank⟩
  cases text with
  | nil => cases hblank
  | cons c cs =>
    rw [List.head?_cons, Option.any_some, h.1 c rfl] at hblank
    cases hblank

/-! ## Lines -/

/-- A line without the carriage return of its end. -/
def withoutReturn (line : List Char) : List Char :=
  if line.getLast? = some '\r' then line.dropLast else line

theorem words_withoutReturn (line : List Char) : words (withoutReturn line) = words line := by
  rw [withoutReturn]
  split
  · next hlast =>
    obtain ⟨init, rfl⟩ := List.getLast?_eq_some_iff.1 hlast
    rw [List.dropLast_concat, words_append_gap (List.forall_mem_singleton.2 (by decide))]
  · rfl

theorem infix_withoutReturn (line : List Char) : withoutReturn line <:+: line := by
  rw [withoutReturn]
  split
  · exact (List.dropLast_prefix line).isInfix
  · exact List.infix_rfl

/-- The lines of a text are its cells, without a last one that is empty. -/
theorem lines_eq {init : List (List Char)} {last : List Char}
    (h : cells '\n' text = init ++ [last]) :
    lines text = init.map withoutReturn ++ if last = [] then [] else [last] := by
  cases last with
  | nil => simp [lines, h, withoutReturn]
  | cons c cs => simp [lines, h, withoutReturn]

theorem exists_lines_eq (text : List Char) : ∃ init last, cells '\n' text = init ++ [last] ∧
    lines text = init.map withoutReturn ++ if last = [] then [] else [last] := by
  obtain ⟨init, last, h⟩ := (cells '\n' text).eq_nil_or_concat'.resolve_left (cells_ne_nil _ _)
  exact ⟨init, last, h, lines_eq h⟩

theorem infix_of_mem_lines (h : line ∈ lines text) : line <:+: text := by
  obtain ⟨init, last, hcells, hlines⟩ := exists_lines_eq text
  have hoccurs (part : List Char) (hpart : part ∈ init ++ [last]) : part <:+: text :=
    infix_of_mem_cells (hcells ▸ hpart)
  rw [hlines, List.mem_append, List.mem_map] at h
  rcases h with ⟨part, hpart, rfl⟩ | h
  · exact (infix_withoutReturn part).trans (hoccurs part (by simp [hpart]))
  · split at h
    · cases h
    · rw [List.mem_singleton.1 h]
      exact hoccurs last (by simp)

/-- The words of a text are those of its lines. -/
theorem words_lines : (lines text).flatMap words = words text := by
  obtain ⟨init, last, hcells, hlines⟩ := exists_lines_eq text
  have hjoin : join ['\n'] (init ++ [last]) = text := by rw [← hcells, join_cells]
  have hinit : (init.map withoutReturn).flatMap words = init.flatMap words := by
    rw [List.flatMap_map]
    exact congrArg (init.flatMap ·) (funext words_withoutReturn)
  rw [hlines, ← hjoin, words_join (by decide), List.flatMap_append, List.flatMap_append, hinit]
  by_cases hlast : last = [] <;> simp [hlast]

theorem flatMap_words_filter (lines : List (List Char)) :
    ((lines.map trim).filter fun line => line ≠ []).flatMap words = lines.flatMap words := by
  induction lines with
  | nil => rfl
  | cons line lines ih =>
    rw [List.flatMap_cons, ← ih, ← words_trim line, List.map_cons]
    by_cases hline : trim line = [] <;> simp [hline]

/-- **A query without comments is its words.** -/
theorem stripComments_eq (hhash : '#' ∉ text) (hdashes : ¬ ['-', '-'] <:+: text) :
    stripComments text = join [' '] (words text) := by
  -- no line is a comment, no line is cut, and what is trimmed has no words
  have hkept : (lines text).filter (fun line => !isCommentLine line) = lines text := by
    refine List.filter_eq_self.2 fun line hline => ?_
    rw [isCommentLine, Bool.not_eq_true', decide_eq_false_iff_not]
    intro hhead
    have hmem : '#' ∈ line := (List.dropWhile_suffix isBlank).subset (List.mem_of_head? hhead)
    exact hhash ((infix_of_mem_lines hline).subset hmem)
  have hwhole : (lines text).map (fun line => trim (beforeComment line)) = (lines text).map trim := by
    refine List.map_congr_left fun line hline => ?_
    have hcut : cut? ['-', '-'] line = none := by
      rw [Option.eq_none_iff_forall_ne_some]
      rintro ⟨before, rest⟩ hcut
      have hoccurs : ['-', '-'] <:+: line := ⟨before, rest, by rw [eq_of_cut? hcut, List.append_assoc]⟩
      exact hdashes (hoccurs.trans (infix_of_mem_lines hline))
    rw [beforeComment, hcut]
  have htrimmed : ∀ line ∈ ((lines text).map trim).filter (fun line => line ≠ []),
      line ≠ [] ∧ IsTrimmed line := by
    intro line hline
    obtain ⟨hmem, hne⟩ := List.mem_filter.1 hline
    obtain ⟨whole, -, rfl⟩ := List.mem_map.1 hmem
    exact ⟨of_decide_eq_true hne, isTrimmed_trim whole⟩
  rw [stripComments]
  simp only [hkept, hwhole]
  rw [collapse_eq (isTrimmed_join htrimmed), words_join (by decide), flatMap_words_filter, words_lines]

/-! ## Blanks in the place of spaces -/

/-- A text that has runs of blanks where another has single spaces. -/
inductive Relaid : (single text : List Char) → Prop where
  | nil : Relaid [] []
  | char {c : Char} {single text : List Char} (hc : c ≠ ' ') (h : Relaid single text) :
      Relaid (c :: single) (c :: text)
  | gap {run single text : List Char} (hne : run ≠ []) (hblank : ∀ c ∈ run, isBlank c = true)
      (h : Relaid single text) : Relaid (' ' :: single) (run ++ text)

namespace Relaid

theorem refl : (text : List Char) → Relaid text text
  | [] => .nil
  | c :: cs => by
    by_cases hc : c = ' '
    · subst hc
      exact gap (List.cons_ne_nil ' ' []) (List.forall_mem_singleton.2 (by decide)) (refl cs)
    · exact char hc (refl cs)

/-- What has no spaces is left as it is. -/
theorem exists_append {word : List Char} (hword : ' ' ∉ word) (h : Relaid (word ++ single) text) :
    ∃ rest, text = word ++ rest ∧ Relaid single rest := by
  induction word generalizing text with
  | nil => exact ⟨text, rfl, h⟩
  | cons c cs ih =>
    rw [List.mem_cons, not_or] at hword
    cases h with
    | char hc h =>
      obtain ⟨rest, rfl, hrest⟩ := ih hword.2 h
      exact ⟨rest, rfl, hrest⟩
    | gap => exact absurd rfl hword.1

/-- **The words stay.** -/
theorem words_eq {ws : List (List Char)} (hws : ∀ word ∈ ws, IsWordText word)
    (h : Relaid (join [' '] ws) text) : words text = ws := by
  -- word by word: the run in the place of the space after a word has no words
  induction ws generalizing text with
  | nil =>
    cases h
    rfl
  | cons word ws ih =>
    have hword := hws word (by simp)
    have hspace : ' ' ∉ word := fun hmem => absurd (hword.2 ' ' hmem) (by decide)
    by_cases hnil : ws = []
    · rw [hnil, join, ← List.append_nil word] at h
      obtain ⟨rest, rfl, hrest⟩ := exists_append hspace h
      cases hrest
      rw [List.append_nil, words_of_isWordText hword, hnil]
    · rw [join_cons hnil, List.append_assoc] at h
      obtain ⟨rest, rfl, hrest⟩ := exists_append hspace h
      rw [List.singleton_append] at hrest
      cases hrest with
      | char hc => exact absurd rfl hc
      | @gap run _ rest hne hblank hrest =>
        obtain ⟨b, bs, rfl⟩ := List.exists_cons_of_ne_nil hne
        have hhead : ∀ c ∈ (b :: bs ++ rest).head?, isBlank c = true := fun c hc => by
          cases hc
          exact hblank b (by simp)
        rw [words_append_of_head hword hhead, words_gap hblank,
          ih (fun w hw => hws w (by simp [hw])) hrest]

end Relaid

/-- Whether a text has runs of blanks where another has single spaces. A run is taken as
long as it can be. -/
def isRelaid : (single text : List Char) → Bool
  | [], text => text = []
  | c :: single, text =>
    if c = ' ' then text.head?.any isBlank && isRelaid single (trimStart text)
    else match text with
      | [] => false
      | d :: text => c = d && isRelaid single text

theorem relaid_of_isRelaid (h : isRelaid single text = true) : Relaid single text := by
  induction single generalizing text with
  | nil =>
    rw [of_decide_eq_true h]
    exact .nil
  | cons c single ih =>
    unfold isRelaid at h
    split at h
    · next hc =>
      rw [Bool.and_eq_true] at h
      obtain ⟨hhead, hrest⟩ := h
      have hrun : text.takeWhile isBlank ≠ [] := by
        cases text with
        | nil => cases hhead
        | cons b bs => simp [show isBlank b = true from hhead]
      have hgap := Relaid.gap hrun (fun b hb => List.mem_takeWhile_imp hb) (ih hrest)
      rwa [trimStart, List.takeWhile_append_dropWhile, ← hc] at hgap
    · next hc =>
      split at h
      · cases h
      · rw [Bool.and_eq_true] at h
        obtain ⟨hd, hrest⟩ := h
        rw [← of_decide_eq_true hd]
        exact .char hc (ih hrest)

/-! ## Texts that are laid out -/

/-- A word without comment marks. -/
structure IsPlainWord (word : List Char) : Prop where
  isWordText : IsWordText word
  hash : '#' ∉ word
  dashes : word.count '-' ≤ 1

/-- Words without comment marks, with single spaces between them. -/
def IsLaid (text : List Char) : Prop :=
  ∃ ws, ws ≠ [] ∧ (∀ word ∈ ws, IsPlainWord word) ∧ text = join [' '] ws

theorem IsPlainWord.isLaid {word : List Char} (h : IsPlainWord word) : IsLaid word :=
  ⟨[word], by simp, by simpa using h, rfl⟩

namespace IsLaid

theorem append (hleft : IsLaid left) (hright : IsLaid right) : IsLaid (left ++ ' ' :: right) := by
  obtain ⟨ws, hws, hplain, rfl⟩ := hleft
  obtain ⟨vs, hvs, hplain', rfl⟩ := hright
  refine ⟨ws ++ vs, by simp [hws], fun word hword => ?_, by rw [join_append hws hvs]; simp⟩
  rcases List.mem_append.1 hword with hword | hword
  · exact hplain word hword
  · exact hplain' word hword

/-- A comma at the end belongs to the last word. -/
theorem append_comma (h : IsLaid text) : IsLaid (text ++ [',']) := by
  obtain ⟨ws, hws, hplain, rfl⟩ := h
  obtain ⟨init, last, rfl⟩ := ws.eq_nil_or_concat'.resolve_left hws
  obtain ⟨hlast, hhash, hdashes⟩ := hplain last (by simp)
  have hcomma : IsPlainWord (last ++ [',']) := by
    refine ⟨⟨by simp, fun c hc => ?_⟩, by simp [hhash], by simpa using hdashes⟩
    rcases List.mem_append.1 hc with hc | hc
    · exact hlast.2 c hc
    · rw [List.mem_singleton.1 hc]
      decide
  refine ⟨init ++ [last ++ [',']], by simp, fun word hword => ?_, ?_⟩
  · rcases List.mem_append.1 hword with hword | hword
    · exact hplain word (by simp [hword])
    · rwa [List.mem_singleton.1 hword]
  · by_cases hinit : init = []
    · simp [hinit, join]
    · rw [join_append hinit (by simp), join_append hinit (by simp)]
      simp [join]

/-- Texts that are laid out, with commas and spaces between them, are laid out. -/
theorem join {texts : List (List Char)} (hne : texts ≠ []) (h : ∀ text ∈ texts, IsLaid text) :
    IsLaid (join [',', ' '] texts) := by
  induction texts with
  | nil => exact absurd rfl hne
  | cons first texts ih =>
    have hfirst := h first (by simp)
    by_cases htexts : texts = []
    · rw [htexts]
      exact hfirst
    · have hrest := ih htexts fun text htext => h text (by simp [htext])
      have happend := hfirst.append_comma.append hrest
      rw [join_cons htexts]
      simpa using happend

theorem isTrimmed (h : IsLaid text) : IsTrimmed text := by
  obtain ⟨ws, -, hplain, rfl⟩ := h
  refine isTrimmed_join fun word hword => ?_
  have hword := (hplain word hword).isWordText
  exact ⟨hword.1, hword.isTrimmed⟩

end IsLaid

/-- **Layout does not matter.** A text that is laid out is what is left of it without
comments, whichever blanks stand in the place of its spaces. -/
theorem stripComments_of_relaid (hlaid : IsLaid single) (h : Relaid single text) :
    stripComments text = single := by
  obtain ⟨ws, -, hplain, rfl⟩ := hlaid
  have hwords := h.words_eq fun word hword => (hplain word hword).isWordText
  rw [stripComments_eq, hwords]
  · intro hhash
    obtain ⟨left, right, htext⟩ := List.append_of_mem hhash
    have hoccurs : ['#'] <:+: text := ⟨left, right, by simp [htext]⟩
    obtain ⟨word, hword, hoccurs⟩ :=
      exists_word_of_infix ⟨by simp, List.forall_mem_singleton.2 (by decide)⟩ hoccurs
    exact (hplain word (hwords ▸ hword)).hash (hoccurs.subset (by simp))
  · intro hdashes
    have hdash : isBlank '-' = false := by decide
    obtain ⟨word, hword, hoccurs⟩ := exists_word_of_infix ⟨by simp, by simp [hdash]⟩ hdashes
    have hcount := hoccurs.sublist.count_le '-'
    have hplain := (hplain word (hwords ▸ hword)).dashes
    rw [List.count_cons_self, List.count_cons_self] at hcount
    omega

end ReportQuery.Query
