import ReportQuery.Proofs.Placeholder
import ReportQuery.Proofs.Query.Sent
/-!
# Placeholders that are left in the text

Before placeholders are filled in, aliases, customizers and the last comma are taken out of
a query. The braces stay, in their order, unless a customizer takes one with it; and so does
the placeholder of a name that none of these can start in (`keeps_cleaned`). What stands in
the query then stands in what is left of it (`Keeps.stands`).
-/

namespace ReportQuery.Query

open Text Placeholder

variable {name text text' front mid mid' tail before rest query : List Char} {c sep : Char}
variable {length : List Char → Nat} {image : List Char → List Char}

/-! ## Parts of a text -/

/-- A part without a certain character stands in front of it or behind it. -/
theorem part_of_not_mem (hc : c ∉ mid) (h : front ++ c :: tail = before ++ (mid ++ rest)) :
    (∃ between, front = before ++ (mid ++ between)) ∨
      ∃ between, before = front ++ c :: between ∧ tail = between ++ (mid ++ rest) := by
  rcases List.append_eq_append_iff.1 h with ⟨between, rfl, hbetween⟩ | ⟨between, rfl, hbetween⟩
  · cases between with
    | nil =>
      cases mid with
      | nil => exact .inl ⟨[], by simp⟩
      | cons d mid =>
        obtain ⟨rfl, -⟩ := List.cons.inj hbetween
        exact absurd List.mem_cons_self hc
    | cons d between =>
      obtain ⟨rfl, htail⟩ := List.cons.inj hbetween
      exact .inr ⟨between, rfl, htail⟩
  · rcases List.append_eq_append_iff.1 hbetween with ⟨inner, rfl, -⟩ | ⟨inner, rfl, hinner⟩
    · exact .inl ⟨inner, rfl⟩
    · cases inner with
      | nil => exact .inl ⟨[], by simp⟩
      | cons d inner =>
        obtain ⟨rfl, -⟩ := List.cons.inj hinner
        exact absurd (by simp) hc

/-- What starts with a character that the front has not starts behind the front. -/
theorem front_of_not_mem (hc : c ∉ front) (h : front ++ tail = before ++ c :: rest) :
    ∃ between, before = front ++ between ∧ tail = between ++ c :: rest := by
  rcases List.append_eq_append_iff.1 h with ⟨between, rfl, hbetween⟩ | ⟨between, rfl, hbetween⟩
  · exact ⟨between, rfl, hbetween⟩
  · cases between with
    | nil => exact ⟨[], by simp, by simpa using hbetween.symm⟩
    | cons d between =>
      obtain ⟨rfl, -⟩ := List.cons.inj hbetween
      exact absurd (by simp) hc

/-! ## Changes that keep placeholders -/

/-- The name has no character at which an alias, a customizer or the last comma could
start, nor the end of an arrow. -/
def Unbroken (name : List Char) : Prop :=
  ∀ c ∈ name, isBlank c = false ∧ c ≠ '~' ∧ c ≠ '>' ∧ c ≠ ':' ∧ c ≠ ','

/-- A change of a text that keeps the braces, and keeps the placeholders of a name with the braces
before them. -/
structure Keeps (name text text' : List Char) : Prop where
  braces : text'.filter isBrace = text.filter isBrace
  placeholder : ∀ before rest, text = before ++ '{' :: (name ++ '}' :: rest) →
    ∃ before' rest', text' = before' ++ '{' :: (name ++ '}' :: rest') ∧
      before'.filter isBrace = before.filter isBrace

namespace Keeps

theorem refl (name text : List Char) : Keeps name text text :=
  ⟨rfl, fun before rest h => ⟨before, rest, h, rfl⟩⟩

theorem trans {text'' : List Char} (h : Keeps name text text') (h' : Keeps name text' text'') :
    Keeps name text text'' := by
  refine ⟨h'.braces.trans h.braces, fun before rest htext => ?_⟩
  obtain ⟨before', rest', htext', hbefore'⟩ := h.placeholder before rest htext
  obtain ⟨before'', rest'', htext'', hbefore''⟩ := h'.placeholder before' rest' htext'
  exact ⟨before'', rest'', htext'', hbefore''.trans hbefore'⟩

/-- **What stands in a text stands in what is kept of it.** -/
theorem stands (h : Keeps name text text') (hstands : Stands name text) : Stands name text' := by
  obtain ⟨before, _, after, htext, hstarts, hclosed⟩ := hstands
  rw [hstarts.text_eq] at htext
  obtain ⟨before', after', htext', hbefore⟩ := h.placeholder before after htext
  refine ⟨before', _, after', htext', ⟨rfl, hstarts.name_ne_nil, hstarts.not_mem⟩, ?_⟩
  rw [Closed, hbefore]
  exact hclosed

/-- A pass keeps the placeholders of a name, if its pieces have no braces and none starts
in the placeholder. -/
theorem replace (hbound : ∀ t, length t ≤ t.length) (hclears : Clears isBrace length image text)
    (hname : ∀ left c right, '{' :: (name ++ ['}']) = left ++ c :: right →
      ∀ rest, length (c :: right ++ rest) = 0) :
    Keeps name text (replace (fun _ t => length t) image text) := by
  refine ⟨hclears.filter_replace hbound, ?_⟩
  rintro before rest rfl
  obtain ⟨before', hreplace, hfilter⟩ :=
    hclears.exists_replace_append hbound (by decide : isBrace '{' = true)
  have hrun : Text.replace (fun _ t => length t) image ('{' :: (name ++ ['}']) ++ rest) =
      '{' :: (name ++ ['}']) ++ Text.replace (fun _ t => length t) image rest :=
    replace_run fun left c right h => hname left c right h rest
  refine ⟨before', Text.replace (fun _ t => length t) image rest, ?_, hfilter⟩
  rw [hreplace]
  simpa using hrun

/-- **What is kept of a part is kept of the whole**, where no placeholder of the name crosses
the ends of that part. -/
theorem append (h : Keeps name mid mid') (hfront : '{' ∉ front)
    (hc : c ∉ '{' :: (name ++ ['}'])) :
    Keeps name (front ++ mid ++ c :: tail) (front ++ mid' ++ c :: tail) := by
  refine ⟨by simp only [List.filter_append, h.braces], fun before rest htext => ?_⟩
  rw [List.append_assoc] at htext
  obtain ⟨inner, rfl, hinner⟩ := front_of_not_mem hfront htext
  have hsplit : mid ++ c :: tail = inner ++ ('{' :: (name ++ ['}']) ++ rest) := by
    simpa using hinner
  rcases part_of_not_mem hc hsplit with ⟨after, rfl⟩ | ⟨between, rfl, rfl⟩
  · obtain ⟨inner', after', hmid', hfilter⟩ := h.placeholder inner after (by simp)
    refine ⟨front ++ inner', after' ++ c :: tail, by simp [hmid'], ?_⟩
    rw [List.filter_append, List.filter_append, hfilter]
  · refine ⟨front ++ mid' ++ c :: between, rest, by simp, ?_⟩
    simp only [List.filter_append, h.braces, List.append_assoc]

end Keeps

/-! ## The passes -/

/-- The braces of a placeholder and an unbroken name have no blank, and start no customizer and no
comma. -/
theorem Unbroken.braces (h : Unbroken name) :
    ∀ c ∈ '{' :: (name ++ ['}']), isBlank c = false ∧ c ≠ '~' ∧ c ≠ '>' ∧ c ≠ ':' ∧ c ≠ ',' := by
  intro c hc
  simp only [List.mem_cons, List.mem_append, List.not_mem_nil, or_false] at hc
  rcases hc with rfl | hc | rfl
  · decide
  · exact h c hc
  · decide

theorem isBrace_eq_false (hopen : c ≠ '{') (hclose : c ≠ '}') : isBrace c = false := by
  simp [isBrace, hopen, hclose]

/-- Pieces that reach over no brace have none. -/
theorem clears_of_stopsAt (hopen : StopsAt '{' length) (hclose : StopsAt '}' length)
    (himage : ∀ p, ∀ c ∈ image p, isBrace c = false) : Clears isBrace length image text := by
  refine ⟨fun p hp c hc => isBrace_eq_false ?_ ?_, fun p _ => himage p⟩
  · rintro rfl
    exact hopen.not_mem_of_piece hp hc
  · rintro rfl
    exact hclose.not_mem_of_piece hp hc

theorem keeps_aliases (hname : Unbroken name) : Keeps name text (without aliasLength text) := by
  refine .replace aliasLength_le (clears_of_stopsAt (stopsAt_aliasLength (by decide) (by decide))
    (stopsAt_aliasLength (by decide) (by decide)) (by simp)) fun left c right h rest => ?_
  have hblank : isBlank c = false := (hname.braces c (by simp [h])).1
  exact aliasLength_of_not_startsBlank hblank

theorem keeps_customizers (hname : Unbroken name)
    (hpieces : ∀ p, Part.piece p ∈ parts (fun _ t => customizerLength t) text →
      ∀ c ∈ p, isBrace c = false) :
    Keeps name text (without customizerLength text) := by
  refine .replace customizerLength_le ⟨hpieces, by simp⟩ fun left c right h rest => ?_
  have hbraces := hname.braces
  rw [h] at hbraces
  obtain ⟨-, htilde, -, hcolon, -⟩ := hbraces c (by simp)
  by_cases hdash : c = '-'
  · subst hdash
    -- the placeholder ends with a brace, so a character of it follows the dash
    cases right with
    | nil =>
      have hlast : ['}'] = ['-'] := (@List.append_inj' _ ('{' :: name) ['}'] left ['-'] h rfl).2
      simp at hlast
    | cons d ds =>
      have hd : d ≠ '>' := (hbraces d (by simp)).2.2.1
      exact customizerLength_dash (by simpa using hd)
  · exact customizerLength_other hdash htilde hcolon

theorem keeps_lastComma (hname : Unbroken name) : Keeps name text (withoutLastComma text) := by
  have himage : ∀ c ∈ [' ', 'F', 'R', 'O', 'M', ' '], isBrace c = false := by simp [isBrace]
  have hstops (sep : Char) (hblank : isBlank sep = false) (hword : isWord sep = false)
      (hcomma : sep ≠ ',') : StopsAt sep lastCommaLength :=
    stopsAt_lastCommaLength hblank hword hcomma
  have hclears : Clears isBrace lastCommaLength (fun _ => [' ', 'F', 'R', 'O', 'M', ' ']) text :=
    clears_of_stopsAt (hstops '{' (by decide) (by decide) (by decide))
      (hstops '}' (by decide) (by decide) (by decide)) fun _ => himage
  refine .replace lastCommaLength_le hclears fun left c right h rest => ?_
  have hcomma : c ≠ ',' := (hname.braces c (by simp [h])).2.2.2.2
  exact lastCommaLength_other hcomma

/-- No customizer of the select list has a brace in it, once the aliases are taken out. -/
def ClearCustomizers (query : List Char) : Prop :=
  ∀ clause, selectClause? query = some clause → ∀ p,
    Part.piece p ∈ parts (fun _ t => customizerLength t) (without aliasLength clause.list) →
      ∀ c ∈ p, isBrace c = false

/-- **Cleaning keeps placeholders** of unbroken names, if no customizer has a brace in it. -/
theorem keeps_cleaned (hname : Unbroken name) (hcustomizers : ClearCustomizers query) :
    Keeps name query (cleaned query) := by
  rw [cleaned]
  refine Keeps.trans ?_ (keeps_lastComma hname)
  cases hclause : selectClause? query with
  | none => exact .refl name query
  | some clause =>
    obtain ⟨rfl, his⟩ := selectClause?_eq_some.1 hclause
    obtain ⟨b, rest, htail, hb, -⟩ := his.tail
    have hlist : Keeps name clause.list (plainList clause.list) :=
      (keeps_aliases hname).trans (keeps_customizers hname (hcustomizers clause hclause))
    have hb' : b ∉ '{' :: (name ++ ['}']) := fun hmem => by
      rw [(hname.braces b hmem).1] at hb
      cases hb
    dsimp only
    rw [htail]
    exact hlist.append (his.not_mem_head (by decide) (by decide)) hb'

end ReportQuery.Query
