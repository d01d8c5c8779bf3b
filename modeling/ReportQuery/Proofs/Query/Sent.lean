import ReportQuery.Proofs.Query.Plain
/-!
# The select list that is sent

What stands between `SELECT` and `FROM` in the text that is sent, cell by cell: the
cells of the select list without aliases and customizers, and without a last one that
is blank (`sent_clause`). The last two passes change nothing else there, as long as no
word of the list is a `FROM` and no placeholder stands in it.
-/

namespace ReportQuery.Query

open Text

variable {c b sep : Char} {text left right run rest word gap resource query sent : List Char}

/-! ## The comma before `FROM` -/

/-- A text without the commas in front of a `FROM`. -/
def withoutLastComma (text : List Char) : List Char :=
  replace (fun _ t => lastCommaLength t) (fun _ => [' ', 'F', 'R', 'O', 'M', ' ']) text

theorem lastCommaLength_other (hc : c ≠ ',') : lastCommaLength (c :: text) = 0 := by
  rw [lastCommaLength]
  rintro rest ⟨⟩
  exact hc rfl

theorem lastCommaLength_of_none (h : afterFrom? (trimStart text) = none) :
    lastCommaLength (',' :: text) = 0 := by
  rw [lastCommaLength, h]

theorem lastCommaLength_le (text : List Char) : lastCommaLength text ≤ text.length := by
  unfold lastCommaLength
  split
  · next rest =>
    split
    · next after hafter =>
      obtain ⟨word, -, htrim, hblank⟩ := afterFrom?_eq_some.1 hafter
      have htrimmed : (trimStart rest).length ≤ rest.length := (List.dropWhile_sublist _).length_le
      have hpos : 0 < after.length := by
        cases after with
        | nil => cases hblank
        | cons b after => exact Nat.succ_pos _
      rw [htrim, List.length_append] at htrimmed
      rw [List.length_cons]
      omega
    · exact Nat.zero_le _
  · exact Nat.zero_le _

/-- A `FROM` does not reach over what is no word character. -/
theorem afterFrom?_append (hword : isWord sep = false) :
    afterFrom? (left ++ sep :: right) =
      ((afterKeyword? ['f', 'r', 'o', 'm'] left).filter fun rest => startsBlank (rest ++ [sep])).map
        fun rest => rest ++ sep :: right := by
  have hfold : ∀ k ∈ ['f', 'r', 'o', 'm'], foldsTo k sep = false := fun k hk =>
    foldsTo_of_not_isWord (List.all_eq_true.1 isAsciiLetter_from k hk) hword
  rw [afterFrom?, afterKeyword?_append_stop hfold]
  cases afterKeyword? ['f', 'r', 'o', 'm'] left with
  | none => rfl
  | some rest =>
    have hstarts : startsBlank (rest ++ sep :: right) = startsBlank (rest ++ [sep]) := by
      cases rest <;> rfl
    cases hrest : startsBlank (rest ++ [sep]) <;> simp [Option.filter, hstarts, hrest]

theorem afterFrom?_append_stop (hblank : isBlank sep = false) (hword : isWord sep = false) :
    afterFrom? (left ++ sep :: right) = (afterFrom? left).map fun rest => rest ++ sep :: right := by
  have hstarts : (fun rest : List Char => startsBlank (rest ++ [sep])) = startsBlank :=
    funext fun rest => startsBlank_append_stop hblank
  rw [afterFrom?_append hword, hstarts, afterFrom?]

/-- What starts in a text has the same length in front of a character that is neither a blank nor
of a word. -/
theorem lastCommaLength_append_stop (hblank : isBlank sep = false) (hword : isWord sep = false) :
    lastCommaLength (c :: (left ++ sep :: right)) = lastCommaLength (c :: left) := by
  by_cases hc : c = ','
  · subst hc
    rw [lastCommaLength, lastCommaLength, trimStart, dropWhile_append_stop hblank,
      afterFrom?_append_stop hblank hword, ← trimStart]
    cases afterFrom? (trimStart left) with
    | none => rfl
    | some after => simp only [Option.map_some, List.length_append, Nat.add_sub_add_right]
  · rw [lastCommaLength_other hc, lastCommaLength_other hc]

/-- The last comma reaches over blanks and the letters of `FROM` only. -/
theorem stopsAt_lastCommaLength (hblank : isBlank sep = false) (hword : isWord sep = false)
    (hcomma : sep ≠ ',') : StopsAt sep lastCommaLength := by
  refine ⟨lastCommaLength_le, fun left right => ?_⟩
  cases left with
  | nil => exact lastCommaLength_other hcomma
  | cons c cs => exact lastCommaLength_append_stop hblank hword

theorem withoutLastComma_run (h : ',' ∉ run) :
    withoutLastComma (run ++ text) = run ++ withoutLastComma text :=
  replace_run_of_forall fun _ hc _ => lastCommaLength_other fun heq => h (heq ▸ hc)

theorem withoutLastComma_of_not_mem (h : ',' ∉ text) : withoutLastComma text = text := by
  have hrun : withoutLastComma (text ++ []) = text ++ withoutLastComma [] := withoutLastComma_run h
  simpa [withoutLastComma] using hrun

theorem NoFrom.trimStart (h : NoFrom text) : NoFrom (trimStart text) := by
  rw [NoFrom, words_trimStart]
  exact h

/-- No `FROM` stands at the start of a cell, after blanks, unless the cell is blank. -/
theorem afterFrom?_trimStart_append {cell : List Char} (hcell : NoFrom cell)
    (htext : startsWord text = false)
    (hblank : trimStart cell = [] → afterFrom? (trimStart text) = none) :
    afterFrom? (trimStart (cell ++ text)) = none := by
  by_cases hnil : trimStart cell = []
  · rw [trimStart_append_of_eq_nil hnil, hblank hnil]
  · rw [trimStart_append hnil, hcell.trimStart.afterFrom?_eq_none htext]

/-- The commas between cells stay, unless a blank cell stands before a `FROM`. -/
theorem withoutLastComma_join (first : List Char) (cells : List (List Char))
    (hcomma : ∀ cell ∈ first :: cells, ',' ∉ cell) (hfrom : ∀ cell ∈ cells, NoFrom cell)
    (htext : startsWord text = false)
    (hlast : ∀ last ∈ cells.getLast?, trimStart last = [] → afterFrom? (trimStart text) = none) :
    withoutLastComma (join [','] (first :: cells) ++ text) =
      join [','] (first :: cells) ++ withoutLastComma text := by
  induction cells generalizing first with
  | nil => exact withoutLastComma_run (hcomma first (by simp))
  | cons second cells ih =>
    have hsecond : withoutLastComma (join [','] (second :: cells) ++ text) =
        join [','] (second :: cells) ++ withoutLastComma text := by
      refine ih second (fun cell hcell => hcomma cell (by simp [hcell]))
        (fun cell hcell => hfrom cell (by simp [hcell])) fun last hmem => hlast last ?_
      cases cells with
      | nil => cases hmem
      | cons third cells => rwa [List.getLast?_cons_cons]
    -- what follows the second cell is the text, or one more comma
    have hnone : afterFrom? (trimStart (join [','] (second :: cells) ++ text)) = none := by
      by_cases hnil : cells = []
      · subst hnil
        exact afterFrom?_trimStart_append (hfrom second (by simp)) htext (hlast second rfl)
      · rw [join_cons hnil, List.append_assoc, List.append_assoc]
        exact afterFrom?_trimStart_append (hfrom second (by simp)) rfl fun _ => rfl
    have hkept : withoutLastComma (',' :: (join [','] (second :: cells) ++ text)) =
        ',' :: withoutLastComma (join [','] (second :: cells) ++ text) :=
      replace_kept (lastCommaLength_of_none hnone)
    rw [join_cons (by simp)]
    simp only [List.append_assoc, List.cons_append, List.nil_append]
    rw [withoutLastComma_run (hcomma first (by simp)), hkept, hsecond]

/-- A comma, blanks, a `FROM` and one more blank are a piece. -/
theorem lastCommaLength_comma (hgap : ∀ c ∈ gap, isBlank c = true) (hword : SpellsFrom word)
    (hc : isBlank c = true) :
    lastCommaLength (',' :: (gap ++ (word ++ c :: text))) =
      (',' :: (gap ++ (word ++ [c]))).length := by
  have hlength : word.length = 4 := hword.length_eq
  have htrim : trimStart (gap ++ (word ++ c :: text)) = word ++ c :: text :=
    trimStart_gap_append hgap (hword.isWordText isAsciiLetter_from (by simp))
  have hafter : afterFrom? (word ++ c :: text) = some (c :: text) :=
    afterFrom?_eq_some.2 ⟨word, hword, rfl, hc⟩
  simp only [lastCommaLength, htrim, hafter, List.length_cons, List.length_append, List.length_nil]
  omega

theorem withoutLastComma_comma (hgap : ∀ c ∈ gap, isBlank c = true) (hword : SpellsFrom word)
    (hc : isBlank c = true) :
    withoutLastComma (',' :: (gap ++ (word ++ c :: text))) =
      [' ', 'F', 'R', 'O', 'M', ' '] ++ withoutLastComma text := by
  have hlength : lastCommaLength (',' :: (gap ++ (word ++ c :: text))) =
      (',' :: (gap ++ (word ++ [c]))).length := lastCommaLength_comma hgap hword hc
  have hsplit : ',' :: (gap ++ (word ++ c :: text)) = ',' :: (gap ++ (word ++ [c])) ++ text := by
    simp
  rw [hsplit] at hlength ⊢
  exact replace_piece (by simp) hlength

/-- **The comma in front of `FROM` goes**, with a blank cell after it. -/
theorem withoutLastComma_from {last : List Char} (hlast : ∀ c ∈ last, isBlank c = true)
    (hb : isBlank b = true) (hword : SpellsFrom word) (hc : isBlank c = true) :
    withoutLastComma (',' :: (last ++ b :: (word ++ c :: text))) =
      [' ', 'F', 'R', 'O', 'M', ' '] ++ withoutLastComma text := by
  have hgap : ∀ d ∈ last ++ [b], isBlank d = true := by
    intro d hd
    rcases List.mem_append.1 hd with hd | hd
    · exact hlast d hd
    · rwa [List.mem_singleton.1 hd]
  have hcomma : withoutLastComma (',' :: (last ++ [b] ++ (word ++ c :: text))) =
      [' ', 'F', 'R', 'O', 'M', ' '] ++ withoutLastComma text := withoutLastComma_comma hgap hword hc
  rwa [List.append_assoc, List.singleton_append] at hcomma

/-- What does not go on with a resource does not do so without the commas either. -/
theorem head_withoutLastComma (h : ∀ c ∈ text.head?, isResourceChar c = false) :
    ∀ c ∈ (withoutLastComma text).head?, isResourceChar c = false := by
  cases text with
  | nil => exact h
  | cons c cs =>
    rcases Nat.eq_zero_or_pos (lastCommaLength (c :: cs)) with hzero | hpos
    · have hkept : withoutLastComma (c :: cs) = c :: withoutLastComma cs := replace_kept hzero
      rw [hkept]
      exact h
    · obtain ⟨p, rest, himage⟩ : ∃ p rest, withoutLastComma (c :: cs) =
          (fun _ => [' ', 'F', 'R', 'O', 'M', ' ']) p ++ rest := exists_replace_of_pos hpos
      rw [himage]
      intro d hd
      cases hd
      decide

theorem ResourceParts.withoutLastComma (h : ResourceParts text resource b word gap rest) :
    ResourceParts (withoutLastComma text) resource b word gap (Query.withoutLastComma rest) := by
  have hcomma : ',' ∉ b :: (word ++ (gap ++ resource)) :=
    h.not_mem (by decide) (by decide) fun hmem => absurd (h.chars _ hmem) (by decide)
  refine ⟨?_, h.blank, h.spells, h.gap_ne, h.gap_blank, h.ne, h.chars, head_withoutLastComma h.stop⟩
  rw [h.eq_append, withoutLastComma_run hcomma]
  simp

/-! ## Placeholders -/

/-- A text with the values of parameters in the place of placeholders. -/
def filled (parameters : Entries String) (text : List Char) : List Char :=
  replace Placeholder.anywhere
    (fun p => ((parameters.find? (Placeholder.name p)).getD "").toList) text

variable {parameters : Entries String}

theorem fillIn_eq_ok (h : fillIn parameters text = .ok sent) : sent = filled parameters text := by
  rw [fillIn] at h
  split at h
  · cases h
    rfl
  · cases h

theorem placeholderLength_other (hc : c ≠ '{') : Placeholder.length (c :: text) = 0 := by
  rw [Placeholder.length]
  rintro rest ⟨⟩
  exact hc rfl

theorem filled_run (h : '{' ∉ run) :
    filled parameters (run ++ text) = run ++ filled parameters text :=
  replace_run_of_forall fun _ hc _ => placeholderLength_other fun heq => h (heq ▸ hc)

/-- A text without placeholders needs no parameters. -/
theorem fillIn_of_not_mem (h : '{' ∉ text) : fillIn parameters text = .ok text := by
  have hother : ∀ c ∈ text, ∀ cs, Placeholder.length (c :: cs) = 0 := fun _ hc _ =>
    placeholderLength_other fun heq => h (heq ▸ hc)
  have hparts : parts Placeholder.anywhere text = text.map .kept := parts_of_forall hother
  have hunknown : Placeholder.unknown Placeholder.anywhere parameters.has text = [] := by
    rw [Placeholder.unknown, hparts, List.filterMap_map, List.filterMap_eq_nil_iff.2 (by simp)]
    rfl
  have hfilled : filled parameters text = text := by
    have hrun : filled parameters (text ++ []) = text ++ [] := filled_run h
    rwa [List.append_nil] at hrun
  rw [fillIn, hunknown]
  exact congrArg Except.ok hfilled

theorem ResourceParts.filled (h : ResourceParts text resource b word gap rest)
    (hbrace : '{' ∉ resource) : ResourceParts (filled parameters text) resource b word gap
      (Query.filled parameters rest) := by
  refine ⟨?_, h.blank, h.spells, h.gap_ne, h.gap_blank, h.ne, h.chars, ?_⟩
  · rw [h.eq_append, filled_run (h.not_mem (by decide) (by decide) hbrace)]
    simp
  · cases rest with
    | nil => exact h.stop
    | cons c cs =>
      have hc : c ≠ '{' := by
        rintro rfl
        exact absurd (h.stop _ rfl) (by decide)
      have hkept : Query.filled parameters (c :: cs) = c :: Query.filled parameters cs :=
        replace_kept (placeholderLength_other hc)
      rw [hkept]
      exact h.stop

/-! ## The clause that is sent -/

/-- The cells of a list without a last one that is blank. The first cell stays. -/
def withoutBlankLast : List (List Char) → List (List Char)
  | [] => []
  | first :: rest =>
    if rest.getLast?.map trimStart = some [] then first :: rest.dropLast else first :: rest

theorem exists_withoutBlankLast (first : List Char) (cells : List (List Char)) :
    ∃ rest, withoutBlankLast (first :: cells) = first :: rest ∧ ∀ cell ∈ rest, cell ∈ cells := by
  rw [withoutBlankLast]
  split
  · exact ⟨_, rfl, fun cell hcell => List.dropLast_subset _ hcell⟩
  · exact ⟨_, rfl, fun _ hcell => hcell⟩

variable {first : List Char} {cells : List (List Char)} {tail : List Char}

/-- The pass over the commas leaves the cells, but for a last one that is blank, and a
tail with the same resource. -/
theorem withoutLastComma_cells (hcomma : ∀ cell ∈ first :: cells, ',' ∉ cell)
    (hfrom : ∀ cell ∈ first :: cells, NoFrom cell)
    (htail : ResourceParts tail resource b word gap rest) :
    ∃ tail', withoutLastComma (join [','] (first :: cells) ++ tail) =
        join [','] (withoutBlankLast (first :: cells)) ++ tail' ∧
      resourceAt? tail' = some resource := by
  have hrest (cells' : List (List Char)) (h : ∀ cell ∈ cells', cell ∈ cells) :
      (∀ cell ∈ first :: cells', ',' ∉ cell) ∧ ∀ cell ∈ cells', NoFrom cell :=
    ⟨fun cell hcell => hcomma cell (List.cons_subset_cons _ h hcell),
      fun cell hcell => hfrom cell (by simp [h cell hcell])⟩
  rw [withoutBlankLast]
  split
  · next hblank =>
    obtain ⟨last, hlast, hnil⟩ := Option.map_eq_some_iff.1 hblank
    obtain ⟨init, rfl⟩ := List.getLast?_eq_some_iff.1 hlast
    obtain ⟨d, gap, rfl⟩ := List.exists_cons_of_ne_nil htail.gap_ne
    have hinit := hrest init fun cell hcell => by simp [hcell]
    have hgap := isBlank_of_trimStart_eq_nil hnil
    have hspace := htail.gap_blank
    rw [List.dropLast_concat, ← List.cons_append, join_append (by simp) (by simp),
      List.append_assoc, List.append_assoc, List.singleton_append, join,
      withoutLastComma_join first init hinit.1 hinit.2 rfl fun _ _ _ => rfl, htail.eq,
      List.cons_append,
      withoutLastComma_from hgap htail.blank htail.spells (hspace d (by simp))]
    have hcomma' : ',' ∉ gap ++ resource := by
      rw [List.mem_append, not_or]
      exact ⟨fun hmem => absurd (hspace ',' (by simp [hmem])) (by decide),
        fun hmem => absurd (htail.chars _ hmem) (by decide)⟩
    have hspells : SpellsFrom ['F', 'R', 'O', 'M'] := by simp [Spells]; decide
    have hparts : ResourceParts (' ' :: (['F', 'R', 'O', 'M'] ++ (' ' :: gap ++
        (resource ++ withoutLastComma rest)))) resource ' ' ['F', 'R', 'O', 'M'] (' ' :: gap)
        (withoutLastComma rest) :=
      ⟨rfl, by decide, hspells, by simp, fun c hc => ?_, htail.ne, htail.chars,
        head_withoutLastComma htail.stop⟩
    · refine ⟨_, ?_, resourceAt?_eq_some.2 ⟨_, _, _, _, hparts⟩⟩
      rw [← List.append_assoc gap, withoutLastComma_run hcomma']
      simp
    · rcases List.mem_cons.1 hc with rfl | hc
      · decide
      · exact hspace c (by simp [hc])
  · next hblank =>
    refine ⟨withoutLastComma tail, ?_, resourceAt?_eq_some.2 ⟨_, _, _, _, htail.withoutLastComma⟩⟩
    refine withoutLastComma_join first cells hcomma (hrest cells fun _ h => h).2
      htail.fromAt.startsWord fun last hlast hnil => absurd ?_ hblank
    rw [hlast, Option.map_some, hnil]

/-- **The select list that is sent**, cell by cell, and the resource after it. -/
theorem sent_clause {clause : SelectClause} (hclause : selectClause? query = some clause)
    (hresource : resourceAt? clause.tail = some resource) (hname : '{' ∉ resource)
    (hbrace : '{' ∉ plainList clause.list)
    (hfrom : ∀ cell ∈ Text.cells ',' (plainList clause.list), NoFrom cell)
    (hsent : normalize parameters query = .ok sent) :
    ∃ tail, selectClause? sent = some ⟨clause.head,
        join [','] (withoutBlankLast (Text.cells ',' (plainList clause.list))), tail⟩ ∧
      resourceAt? tail = some resource := by
  obtain ⟨hquery, hparts⟩ := selectClause?_eq_some.1 hclause
  obtain ⟨b, word, gap, rest, htail⟩ := resourceAt?_eq_some.1 hresource
  obtain ⟨first, cells, hcells⟩ :=
    List.exists_cons_of_ne_nil (cells_ne_nil ',' (plainList clause.list))
  have hjoin : join [','] (first :: cells) = plainList clause.list := by rw [← hcells, join_cells]
  have hcomma : ∀ cell ∈ first :: cells, ',' ∉ cell := fun cell hcell =>
    not_mem_of_mem_cells (hcells ▸ hcell)
  rw [hcells] at hfrom ⊢
  obtain ⟨tail, hpass, htail⟩ := withoutLastComma_cells hcomma hfrom htail
  obtain ⟨b, word, gap, rest, htail⟩ := resourceAt?_eq_some.1 htail
  obtain ⟨kept, hkept, hmem⟩ := exists_withoutBlankLast first cells
  have hkeptFrom : ∀ cell ∈ first :: kept, NoFrom cell := fun cell hcell =>
    hfrom cell (List.cons_subset_cons _ hmem hcell)
  have hlist : '{' ∉ clause.head ++ join [','] (first :: kept) := by
    rw [List.mem_append, not_or]
    refine ⟨hparts.not_mem_head (by decide) (by decide),
      not_mem_join (by decide) fun cell hcell hmem' => hbrace ?_⟩
    rw [← hjoin]
    exact mem_join.2 (.inl ⟨cell, List.cons_subset_cons _ hmem hcell, hmem'⟩)
  have hcleaned : cleaned query = clause.head ++ join [','] (first :: kept) ++ tail := by
    have hhead : ',' ∉ clause.head := hparts.not_mem_head (by decide) (by decide)
    have hpass' : withoutLastComma (clause.head ++ plainList clause.list ++ clause.tail) =
        clause.head ++ join [','] (first :: kept) ++ tail := by
      rw [List.append_assoc, withoutLastComma_run hhead, ← hjoin, hpass, hkept, List.append_assoc]
    rw [← hpass', cleaned, hclause]
    rfl
  have htail' : ResourceParts (filled parameters tail) resource b word gap (filled parameters rest) :=
    htail.filled hname
  refine ⟨filled parameters tail, selectClause?_eq_some.2 ⟨?_, hparts.head, ?_, htail'.fromAt, ?_⟩,
    resourceAt?_eq_some.2 ⟨_, _, _, _, htail'⟩⟩
  · rw [fillIn_eq_ok hsent, hcleaned, filled_run hlist, hkept]
  · -- the list starts as it did before the passes
    have hlistWord : startsWord (plainList clause.list) = false :=
      startsWord_plainList (startsWord_of_append hparts.startsWord)
    rw [← hjoin, startsWord_join] at hlistWord
    refine startsWord_append ?_ htail'.fromAt.startsWord
    rwa [hkept, startsWord_join]
  · rw [hkept]
    exact (untilFrom?_eq_some.1 (untilFrom?_join _ hkeptFrom htail'.fromAt)).2.2

end ReportQuery.Query
