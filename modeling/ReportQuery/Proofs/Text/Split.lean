import ReportQuery.Text.Basic
/-!
# Splitting and joining

`cells` cuts a text at a separator and `join` puts the separator back. The
first law is that the cells of two texts around a separator are the cells of
the one followed by the cells of the other (`cells_append`). From it, each undoes
the other (`join_cells`, `cells_join`).
-/

namespace ReportQuery.Text

variable {sep : Char} {c : Char} {text left right : List Char}

/-- A text has at least one cell. -/
@[simp] theorem cells_ne_nil (sep : Char) (text : List Char) : cells sep text ≠ [] := by
  cases text with
  | nil => simp [cells]
  | cons c cs =>
    rw [cells]
    split
    · simp
    · split <;> simp

/-- A character that does not separate belongs to the first cell. -/
theorem cells_cons_of_ne (text : List Char) (hc : c ≠ sep) :
    ∃ part parts, cells sep text = part :: parts ∧ cells sep (c :: text) = (c :: part) :: parts := by
  obtain ⟨part, parts, h⟩ := List.exists_cons_of_ne_nil (cells_ne_nil sep text)
  exact ⟨part, parts, h, by rw [cells, if_neg hc, h]⟩

/-- **A separator divides the cells.** -/
theorem cells_append : cells sep (left ++ sep :: right) = cells sep left ++ cells sep right := by
  induction left with
  | nil => simp [cells]
  | cons c cs ih =>
    by_cases hc : c = sep
    · subst hc
      simp [cells, ih]
    · obtain ⟨part, parts, hcs, hcons⟩ := cells_cons_of_ne cs hc
      obtain ⟨part', parts', hcs', hcons'⟩ := cells_cons_of_ne (cs ++ sep :: right) hc
      rw [List.cons_append, hcons', hcons]
      rw [ih, hcs, List.cons_append, List.cons.injEq] at hcs'
      rw [← hcs'.1, ← hcs'.2, List.cons_append]

/-- A text without separators is its only cell. -/
theorem cells_of_not_mem (h : sep ∉ text) : cells sep text = [text] := by
  induction text with
  | nil => rfl
  | cons c cs ih =>
    rw [List.mem_cons, not_or] at h
    rw [cells, if_neg (Ne.symm h.1), ih h.2]

/-- A cell has no separator in it. -/
theorem not_mem_of_mem_cells {part : List Char} (h : part ∈ cells sep text) : sep ∉ part := by
  induction text generalizing part with
  | nil =>
    rw [cells, List.mem_singleton] at h
    simp [h]
  | cons c cs ih =>
    by_cases hc : c = sep
    · rw [cells, if_pos hc, List.mem_cons] at h
      rcases h with rfl | h
      · simp
      · exact ih h
    · obtain ⟨first, rest, hcells, hcons⟩ := cells_cons_of_ne cs hc
      rw [hcons, List.mem_cons] at h
      rcases h with rfl | h
      · rw [List.mem_cons, not_or]
        exact ⟨Ne.symm hc, ih (by rw [hcells]; simp)⟩
      · exact ih (by rw [hcells]; simp [h])

/-- What follows a start, put after it, is the text. -/
theorem after?_eq_some {start rest : List Char} : after? start text = some rest ↔ text = start ++ rest := by
  induction start generalizing text with
  | nil => rw [after?, Option.some.injEq, List.nil_append]
  | cons d ds ih =>
    cases text with
    | nil => simp [after?]
    | cons e es =>
      rw [after?, Option.ite_none_right_eq_some, ih, List.cons_append, List.cons.injEq,
        eq_comm (a := d)]

/-- The two parts of a text that is cut, with the separator between them, are the text. -/
theorem eq_of_cut? {sep before rest : List Char} (h : cut? sep text = some (before, rest)) :
    text = before ++ (sep ++ rest) := by
  induction text generalizing before with
  | nil =>
    obtain ⟨rfl, h⟩ := Option.ite_none_right_eq_some.1 h
    cases h
    rfl
  | cons d ds ih =>
    rw [cut?] at h
    split at h
    · next hafter =>
      cases h
      rw [List.nil_append]
      exact after?_eq_some.1 hafter
    · obtain ⟨⟨before', rest'⟩, hcut, h⟩ := Option.map_eq_some_iff.1 h
      cases h
      rw [ih hcut, List.cons_append]

/-- A text is cut at the first separator, if none of its characters stands before it. -/
theorem cut?_append {sep rest : List Char} (h : c ∉ left) :
    cut? (c :: sep) (left ++ (c :: sep ++ rest)) = some (left, rest) := by
  induction left with
  | nil =>
    have hafter : after? (c :: sep) (c :: sep ++ rest) = some rest := after?_eq_some.2 rfl
    rw [List.nil_append, List.cons_append, cut?, ← List.cons_append, hafter]
  | cons d ds ih =>
    rw [List.mem_cons, not_or] at h
    have hafter : after? (c :: sep) (d :: (ds ++ (c :: sep ++ rest))) = none := by
      rw [after?, if_neg h.1]
    rw [List.cons_append, cut?, hafter, ih h.2]
    rfl

/-- A text is not cut at what does not stand in it. -/
theorem cut?_of_not_mem {sep : List Char} (h : c ∉ text) : cut? (c :: sep) text = none := by
  induction text with
  | nil => rfl
  | cons d ds ih =>
    rw [List.mem_cons, not_or] at h
    have hafter : after? (c :: sep) (d :: ds) = none := by rw [after?, if_neg h.1]
    rw [cut?, hafter, ih h.2]
    rfl

/-- What stands in no place of a text does not cut it. -/
theorem cut?_eq_none {sep : List Char} : cut? sep text = none ↔ ¬ sep <:+: text := by
  induction text with
  | nil => simp [cut?, eq_comm]
  | cons d ds ih =>
    unfold cut?
    cases hafter : after? sep (d :: ds) with
    | some rest =>
      have hstarts : sep <+: d :: ds := ⟨rest, (after?_eq_some.1 hafter).symm⟩
      simp [hstarts.isInfix]
    | none =>
      have hstarts : ¬ sep <+: d :: ds := by
        rintro ⟨rest, hrest⟩
        have hsome := after?_eq_some.2 hrest.symm
        rw [hafter] at hsome
        cases hsome
      rw [Option.map_eq_none_iff, ih, List.infix_cons_iff, not_or]
      exact ⟨fun h => ⟨hstarts, h⟩, fun h => h.2⟩

/-- Where a text is cut, a longer one is cut as well. -/
theorem cut?_append_of_some {sep before rest : List Char} (h : cut? sep left = some (before, rest)) :
    cut? sep (left ++ right) = some (before, rest ++ right) := by
  induction left generalizing before with
  | nil =>
    obtain ⟨rfl, h⟩ := Option.ite_none_right_eq_some.1 h
    cases h
    cases right <;> rfl
  | cons d ds ih =>
    rw [cut?] at h
    split at h
    · next hafter =>
      cases h
      have hafter' : after? sep (d :: ds ++ right) = some (rest ++ right) := by
        rw [after?_eq_some, after?_eq_some.1 hafter, List.append_assoc]
      rw [List.cons_append] at hafter' ⊢
      rw [cut?, hafter']
    · next hafter =>
      obtain ⟨⟨before', rest'⟩, hcut, h⟩ := Option.map_eq_some_iff.1 h
      cases h
      -- there is room for a separator behind this place, so one that starts here ends in the text
      have hafter' : after? sep (d :: (ds ++ right)) = none := by
        rw [Option.eq_none_iff_forall_ne_some]
        intro behind hbehind
        have hroom : sep.length ≤ (d :: ds).length := by
          have hlength := congrArg List.length (eq_of_cut? hcut)
          simp only [List.length_append] at hlength
          rw [List.length_cons]
          omega
        obtain ⟨further, hfurther⟩ : sep <+: d :: ds :=
          List.prefix_of_prefix_length_le ⟨behind, (after?_eq_some.1 hbehind).symm⟩
            (List.prefix_append (d :: ds) right) hroom
        rw [after?_eq_some.2 hfurther.symm] at hafter
        cases hafter
      rw [List.cons_append, cut?, hafter', ih hcut]
      rfl

/-- A text is cut at the first separator: none stands before it. -/
theorem not_infix_of_cut? {sep before rest : List Char} (hsep : sep ≠ [])
    (h : cut? sep text = some (before, rest)) : ¬ sep <:+: before := by
  intro hoccurs
  obtain ⟨⟨before', rest'⟩, hcut⟩ : ∃ parts, cut? sep before = some parts :=
    Option.ne_none_iff_exists'.1 fun hnone => cut?_eq_none.1 hnone hoccurs
  -- the cut of the front would be the cut of the text
  have hfirst : cut? sep (before ++ (sep ++ rest)) = some (before', rest' ++ (sep ++ rest)) :=
    cut?_append_of_some hcut
  rw [← eq_of_cut? h, h, Option.some.injEq, Prod.mk.injEq] at hfirst
  have hlength := congrArg List.length (eq_of_cut? hcut)
  rw [← hfirst.1, List.length_append, List.length_append] at hlength
  have hpos := List.length_pos_iff.2 hsep
  omega

/-- The search goes on behind a text without the separator and a character that the separator
has not. -/
theorem cut?_append_cons {sep : List Char} (hc : c ∉ sep) (h : ¬ sep <:+: left) :
    cut? sep (left ++ c :: right) =
      (cut? sep right).map fun (before, rest) => (left ++ c :: before, rest) := by
  have hnone {left : List Char} (h : ¬ sep <:+: left) : after? sep (left ++ c :: right) = none := by
    rw [Option.eq_none_iff_forall_ne_some]
    intro rest hrest
    rcases List.append_eq_append_iff.1 (after?_eq_some.1 hrest) with
      ⟨between, rfl, hbetween⟩ | ⟨between, rfl, -⟩
    · cases between with
      | nil => exact h ⟨[], [], by simp⟩
      | cons d between =>
        obtain ⟨rfl, -⟩ := List.cons.inj hbetween
        exact hc (by simp)
    · exact h (List.prefix_append sep between).isInfix
  induction left with
  | nil =>
    have hhere := hnone h
    rw [List.nil_append] at hhere ⊢
    rw [cut?, hhere]
    rfl
  | cons d ds ih =>
    have hhere := hnone h
    rw [List.infix_cons_iff, not_or] at h
    rw [List.cons_append] at hhere ⊢
    rw [cut?, hhere, ih h.2, Option.map_map]
    rfl

/-! ## Joining -/

theorem join_cons {sep part : List Char} {parts : List (List Char)} (h : parts ≠ []) :
    join sep (part :: parts) = part ++ sep ++ join sep parts := by
  cases parts with
  | nil => exact absurd rfl h
  | cons _ _ => rfl

/-- A character in front of joined parts belongs to the first. -/
theorem cons_join {part : List Char} {parts : List (List Char)} {sep : List Char} :
    c :: join sep (part :: parts) = join sep ((c :: part) :: parts) := by
  cases parts <;> rfl

/-- What joined parts are made of. -/
theorem mem_join {sep : List Char} {parts : List (List Char)} :
    c ∈ join sep parts ↔ (∃ part ∈ parts, c ∈ part) ∨ (c ∈ sep ∧ 1 < parts.length) := by
  induction parts with
  | nil => simp [join]
  | cons part parts ih =>
    by_cases h : parts = []
    · simp [h, join]
    · have hlength : 0 < parts.length := List.length_pos_iff.2 h
      rw [join_cons h, List.mem_append, List.mem_append, ih, List.length_cons]
      constructor
      · rintro ((hc | hc) | ⟨p, hp, hc⟩ | ⟨hc, -⟩)
        · exact .inl ⟨part, by simp, hc⟩
        · exact .inr ⟨hc, by omega⟩
        · exact .inl ⟨p, by simp [hp], hc⟩
        · exact .inr ⟨hc, by omega⟩
      · rintro (⟨p, hp, hc⟩ | ⟨hc, -⟩)
        · rcases List.mem_cons.1 hp with rfl | hp
          · exact .inl (.inl hc)
          · exact .inr (.inl ⟨p, hp, hc⟩)
        · exact .inl (.inr hc)

/-- What stands in no part does not stand in the joined parts, unless it separates them. -/
theorem not_mem_join {parts : List (List Char)} (hc : c ≠ sep) (h : ∀ part ∈ parts, c ∉ part) :
    c ∉ join [sep] parts := by
  intro hmem
  rcases mem_join.1 hmem with ⟨part, hpart, hmem⟩ | ⟨hmem, -⟩
  · exact h part hpart hmem
  · exact hc (List.mem_singleton.1 hmem)

theorem infix_join {sep part : List Char} {parts : List (List Char)} (h : part ∈ parts) :
    part <:+: join sep parts := by
  induction parts with
  | nil => cases h
  | cons first parts ih =>
    by_cases hparts : parts = []
    · rw [hparts, List.mem_singleton] at h
      rw [h, hparts]
      exact List.infix_rfl
    · rw [join_cons hparts]
      rcases List.mem_cons.1 h with rfl | h
      · rw [List.append_assoc]
        exact (List.prefix_append _ _).isInfix
      · exact (ih h).trans (List.suffix_append _ _).isInfix

theorem join_append {sep : List Char} {parts others : List (List Char)} (hparts : parts ≠ [])
    (hothers : others ≠ []) :
    join sep (parts ++ others) = join sep parts ++ sep ++ join sep others := by
  induction parts with
  | nil => exact absurd rfl hparts
  | cons part parts ih =>
    by_cases hnil : parts = []
    · rw [hnil, List.singleton_append, join_cons hothers]
      rfl
    · rw [List.cons_append, join_cons (by simp [hothers]), ih hnil, join_cons hnil]
      simp only [List.append_assoc]

/-- The cells of a text, joined, are the text. -/
theorem join_cells : join [sep] (cells sep text) = text := by
  induction text with
  | nil => rfl
  | cons c cs ih =>
    by_cases hc : c = sep
    · rw [cells, if_pos hc, join_cons (cells_ne_nil sep cs), ih, hc]
      rfl
    · obtain ⟨part, parts, hcells, hcons⟩ := cells_cons_of_ne cs hc
      rw [hcons, ← cons_join, ← hcells, ih]

/-- A text with one cell has no separator. -/
theorem not_mem_of_cells {part : List Char} (h : cells sep text = [part]) : sep ∉ text := by
  have hjoin : join [sep] (cells sep text) = text := join_cells
  have hpart : sep ∉ part := not_mem_of_mem_cells (by rw [h]; exact List.mem_singleton_self part)
  rw [h] at hjoin
  rwa [← hjoin]

/-- A text with more than one cell is the first two, with a separator between them and
another in front of what follows. -/
theorem eq_of_cells {first second : List Char} {parts : List (List Char)}
    (h : cells sep text = first :: second :: parts) :
    sep ∉ first ∧ sep ∉ second ∧ ∃ further, text = first ++ sep :: (second ++ further) ∧
      (further = [] ∨ ∃ rest, further = sep :: rest) := by
  have hjoin : join [sep] (cells sep text) = text := join_cells
  have hmem : ∀ part ∈ first :: second :: parts, sep ∉ part := fun part hpart =>
    not_mem_of_mem_cells (h ▸ hpart)
  refine ⟨hmem first (by simp), hmem second (by simp), ?_⟩
  rw [h, join_cons (by simp), List.append_assoc, List.singleton_append] at hjoin
  by_cases hparts : parts = []
  · subst hparts
    exact ⟨[], by rw [← hjoin, join, List.append_nil], .inl rfl⟩
  · rw [join_cons hparts, List.append_assoc, List.singleton_append] at hjoin
    exact ⟨_, hjoin.symm, .inr ⟨_, rfl⟩⟩

theorem infix_of_mem_cells {part : List Char} (h : part ∈ cells sep text) : part <:+: text := by
  have hoccurs : part <:+: join [sep] (cells sep text) := infix_join h
  rwa [join_cells] at hoccurs

/-- **Joined parts are read back as cells**, unless there are none or one of them has
the separator. -/
theorem cells_join {parts : List (List Char)} (hne : parts ≠ []) (h : ∀ part ∈ parts, sep ∉ part) :
    cells sep (join [sep] parts) = parts := by
  induction parts with
  | nil => exact absurd rfl hne
  | cons part parts ih =>
    have hpart : cells sep part = [part] := cells_of_not_mem (h part (by simp))
    by_cases hparts : parts = []
    · rw [hparts, join, hpart]
    · rw [join_cons hparts, List.append_assoc, List.singleton_append, cells_append, hpart,
        ih hparts fun p hp => h p (by simp [hp]), List.singleton_append]

/-- The last cell of a text goes on with what has no separator. -/
theorem cells_append_of_not_mem (left : List Char) (hright : sep ∉ right) :
    ∃ init last, cells sep left = init ++ [last] ∧
      cells sep (left ++ right) = init ++ [last ++ right] := by
  obtain ⟨init, last, h⟩ : ∃ init last, cells sep left = init ++ [last] :=
    ⟨_, _, (List.dropLast_concat_getLast (cells_ne_nil sep left)).symm⟩
  refine ⟨init, last, h, ?_⟩
  have hmem : ∀ part ∈ init ++ [last], sep ∉ part := fun part hpart =>
    not_mem_of_mem_cells (h ▸ hpart)
  have hlast : sep ∉ last ++ right := by
    rw [List.mem_append, not_or]
    exact ⟨hmem last (by simp), hright⟩
  have hjoin : join [sep] (init ++ [last ++ right]) = left ++ right := by
    have hleft : join [sep] (init ++ [last]) = left := by rw [← h, join_cells]
    rw [← hleft]
    by_cases hinit : init = []
    · simp [hinit, join]
    · rw [join_append hinit (by simp), join_append hinit (by simp)]
      simp [join]
  rw [← hjoin, cells_join (by simp)]
  intro part hpart
  rcases List.mem_append.1 hpart with hpart | hpart
  · exact hmem part (by simp [hpart])
  · rwa [List.mem_singleton.1 hpart]

end ReportQuery.Text
