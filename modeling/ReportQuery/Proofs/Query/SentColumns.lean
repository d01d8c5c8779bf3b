import ReportQuery.Proofs.Query.Columns
import ReportQuery.Proofs.Query.NestedField
import ReportQuery.Proofs.Query.Sent
import ReportQuery.Proofs.Schema.Names
import ReportQuery.Proofs.Text.Lower
/-!
# When the sent text selects the columns

The columns are read from the items of the select list, and the sent text is made by
passes over the whole list. The two agree when each item, cleaned by itself, leaves its
field (`CleansToFields`), and on regular lists only then (`compile_sendsColumns`). An
alias with a hyphen is taken as the label of a column, and only its first word is removed
from the text (`compile_sendsColumns_fails`).
-/

namespace ReportQuery.Query

open Text Outcome

variable {s : Schema} {parameters : Entries String} {text item : List Char} {c : Char}
variable {q : CompiledQuery} {clause : SelectClause}

/-! ## Marks -/

/-- The marks of a select list, apart from dots. -/
def marks : List Char := [',', '(', ')', '{', '~', ':']

/-- A mark has no case and is no blank, no word character and no dot. -/
structure IsMark (c : Char) : Prop extends HasNoCase c where
  blank : isBlank c = false
  word : isWord c = false
  dot : c ≠ '.'

theorem isMark_of_mem (hc : c ∈ marks) : IsMark c := by
  have hall : marks.all (fun c => Casing.lowerChar c = [c] && c.toNat ≠ 0x3A3 && !isBlank c &&
      !isWord c && c ≠ '.') = true := by decide
  have hmark := List.all_eq_true.1 hall c hc
  simp only [Bool.and_eq_true, Bool.not_eq_true', decide_eq_true_eq] at hmark
  obtain ⟨⟨⟨⟨hlower, hsigma⟩, hblank⟩, hword⟩, hdot⟩ := hmark
  exact ⟨⟨hlower, hsigma⟩, hblank, hword, hdot⟩

/-! ## Field paths -/

/-- A text of word characters and dots that has a dot. -/
structure IsPathText (text : List Char) : Prop where
  dot : '.' ∈ text
  chars : ∀ c ∈ text, isWord c = true ∨ c = '.'

/-- A field that has a type is a path of names. -/
theorem isPathText_of_columnType {field : String} {customizer : Option Customizer}
    {type : FieldType} (hs : s.hasNames = true) (h : columnType s field customizer = .ok type) :
    IsPathText field.toList := by
  rw [columnType] at h
  obtain ⟨root, hroot, h⟩ := bind_eq_ok.1 h
  obtain ⟨base, hbase, -⟩ := bind_eq_ok.1 h
  obtain ⟨hfirst, hnames⟩ := Schema.hasNames_of_resource hs (mapError_eq_ok.1 hroot)
  have hwalk := mapError_eq_ok.1 hbase
  have hrest := Schema.isName_of_walk hs hnames hwalk
  have hne := Schema.ne_nil_of_walk hwalk
  obtain ⟨first, rest, hcells⟩ := List.exists_cons_of_ne_nil (cells_ne_nil '.' field.toList)
  have hsegments : segments field = String.ofList first :: rest.map String.ofList := by
    rw [segments, hcells, List.map_cons]
  rw [hsegments] at hfirst hrest hne
  have hword : ∀ part ∈ first :: rest, ∀ c ∈ part, isWord c = true := by
    intro part hpart c hc
    rcases List.mem_cons.1 hpart with rfl | hpart
    · exact List.all_eq_true.1 hfirst c (by simpa using hc)
    · exact List.all_eq_true.1 (hrest _ (List.mem_map_of_mem hpart)) c (by simpa using hc)
  have hjoin : join ['.'] (first :: rest) = field.toList := by rw [← hcells, join_cells]
  rw [← hjoin]
  refine ⟨mem_join.2 (.inr ⟨by simp, ?_⟩), fun c hc => ?_⟩
  · rw [List.length_cons]
    have hlength : 0 < rest.length := List.length_pos_iff.2 (by simpa using hne)
    omega
  · rcases mem_join.1 hc with ⟨part, hpart, hc⟩ | ⟨hc, -⟩
    · exact .inl (hword part hpart c hc)
    · exact .inr (List.mem_singleton.1 hc)

theorem isPathText_of_compile (hs : s.hasNames = true) (h : compile s parameters text = .ok q) :
    ∀ field ∈ q.fields.map String.toList, IsPathText field := by
  obtain ⟨sent, selected, -, -, -, -, -, hcols⟩ := compile_eq_ok h
  intro field hfield
  obtain ⟨name, hname, rfl⟩ := List.mem_map.1 hfield
  obtain ⟨column, hcolumn, rfl⟩ := List.mem_map.1 hname
  exact isPathText_of_columnType hs (columnType_of_mem (columns_eq_ok hcols) hcolumn)

namespace IsPathText

/-- No mark stands in a text that has a path as its lower case. -/
theorem not_mem (h : IsPathText (lower (trim item))) (hc : c ∈ marks) : c ∉ item := by
  have hmark := isMark_of_mem hc
  intro hmem
  rcases h.chars c (mem_lower hmark.toHasNoCase (mem_trim hmem hmark.blank)) with hword | hdot
  · rw [hmark.word] at hword
    cases hword
  · exact hmark.dot hdot

theorem isWordText (h : IsPathText (lower (trim item))) : IsWordText (trim item) := by
  refine ⟨fun hnil => ?_, fun c hc => ?_⟩
  · have hdot := h.dot
    rw [hnil] at hdot
    cases hdot
  · cases hblank : isBlank c with
    | false => rfl
    | true =>
      rcases h.chars c (mem_lower (hasNoCase_of_isBlank hblank) hc) with hword | rfl
      · rw [isWord_of_isBlank hblank] at hword
        cases hword
      · cases hblank

/-- A path is no keyword: it has a dot. -/
theorem noFrom (h : IsPathText (lower (trim item))) : NoFrom item := by
  intro word hword hspells
  rw [← words_trim, words_of_isWordText h.isWordText, List.mem_singleton] at hword
  have hlower := lower_of_spells hspells (by decide)
  have hdot := h.dot
  rw [← hword, hlower] at hdot
  revert hdot
  decide

theorem trimStart_ne_nil (h : IsPathText (lower (trim item))) : trimStart item ≠ [] := by
  intro hnil
  refine h.isWordText.1 ?_
  rw [trim, hnil]
  rfl

end IsPathText

/-! ## What is sent and what is cleaned -/

/-- **A clause selects the columns of a query**: its items are the fields, in order, in
any case and with blanks around them; no alias, no customizer and no empty item is
among them; the first `FROM` names the resource. -/
structure SelectsColumns (q : CompiledQuery) (clause : SelectClause) : Prop where
  fields : (itemsFrom 0 clause.list).map (fun item => lower (trim item)) =
    q.fields.map String.toList
  plain : ∀ item ∈ itemsFrom 0 clause.list, trim item ≠ [] ∧ '~' ∉ item ∧ ':' ∉ item ∧
    splitLabel (lower (trim item)) = (lower (trim item), none)
  resource : resourceAt? clause.tail = some q.source.name.toList

/-- A compiled query whose text selects its columns. -/
def SendsColumns (q : CompiledQuery) : Prop :=
  ∃ clause, selectClause? q.text.toList = some clause ∧ SelectsColumns q clause

/-- **Each item of a clause leaves its field**: cleaned by itself, it is the field of its
column. No item is empty, but for one after the last comma, and the first `FROM` names
the resource. -/
structure CleansToFields (q : CompiledQuery) (clause : SelectClause) : Prop where
  fields : (items clause.list).map (fun item => lower (trim (plainList item))) =
    q.fields.map String.toList
  empty : itemsFrom 0 clause.list = items clause.list ∨
    itemsFrom 0 clause.list = items clause.list ++ [[]]
  resource : resourceAt? clause.tail = some q.source.name.toList

/-- A clause that the passes treat regularly: no placeholder and no `FROM` comes to stand
in the list, no customizer has a parenthesis in it, and a word follows the first `FROM`. -/
structure Regular (clause : SelectClause) : Prop where
  brace : '{' ∉ plainList clause.list
  noFrom : ∀ cell ∈ cells ',' (plainList clause.list), NoFrom cell
  parens : ∀ p, Part.piece p ∈
      parts (fun _ t => customizerLength t) (without aliasLength clause.list) → '(' ∉ p ∧ ')' ∉ p
  resource : (resourceAt? clause.tail).isSome = true

theorem splitLabel_of_not_mem (h : ' ' ∉ text) : splitLabel text = (text, none) := by
  rw [splitLabel, cut?_of_not_mem h]

/-! ## Clean items are sent -/

/-- Items that are paths in lower case are cut at every comma. -/
theorem itemsFrom_join_paths {items : List (List Char)} (hne : items ≠ [])
    (hpaths : ∀ item ∈ items, IsPathText (lower (trim item))) :
    itemsFrom 0 (join [','] items) = items := by
  refine itemsFrom_join hne fun item hitem => ?_
  have hpath := hpaths item hitem
  exact ⟨hpath.not_mem (by decide), hpath.not_mem (by decide), hpath.not_mem (by decide)⟩

/-- A list of items that are paths has no blank last item to lose. -/
theorem withoutBlankLast_paths {items : List (List Char)}
    (hpaths : ∀ item ∈ items, IsPathText (lower (trim item))) :
    withoutBlankLast items = items := by
  cases items with
  | nil => rfl
  | cons first rest =>
    rw [withoutBlankLast, if_neg]
    intro hblank
    obtain ⟨last, hlast, hnil⟩ := Option.map_eq_some_iff.1 hblank
    exact (hpaths last (by simp [List.mem_of_getLast? hlast])).trimStart_ne_nil hnil

theorem withoutBlankLast_concat_nil {items : List (List Char)} (hne : items ≠ []) :
    withoutBlankLast (items ++ [[]]) = items := by
  cases items with
  | nil => exact absurd rfl hne
  | cons first rest => simp [withoutBlankLast, trimStart]

/-- Items that are the fields, with commas between them, select the columns. -/
theorem selectsColumns_of_join {head tail : List Char} {items : List (List Char)} (hne : items ≠ [])
    (hpaths : ∀ item ∈ items, IsPathText (lower (trim item)))
    (hfields : items.map (fun item => lower (trim item)) = q.fields.map String.toList)
    (hresource : resourceAt? tail = some q.source.name.toList) :
    SelectsColumns q ⟨head, join [','] items, tail⟩ := by
  refine ⟨?_, ?_, hresource⟩
  · rw [itemsFrom_join_paths hne hpaths, hfields]
  · rw [itemsFrom_join_paths hne hpaths]
    intro item hitem
    have hpath := hpaths item hitem
    refine ⟨hpath.isWordText.1, hpath.not_mem (by decide), hpath.not_mem (by decide),
      splitLabel_of_not_mem fun hspace => ?_⟩
    rcases hpath.chars ' ' hspace with hword | hdot
    · exact absurd hword (by decide)
    · exact absurd hdot (by decide)

/-- A resource has a name without braces. -/
theorem not_mem_source (hs : s.hasNames = true) (h : compile s parameters text = .ok q) :
    '{' ∉ q.source.name.toList := by
  intro hbrace
  obtain ⟨hname, -⟩ := Schema.hasNames_of_resource hs (wellFormed_of_compile h).source.2
  exact absurd (List.all_eq_true.1 hname '{' hbrace) (by decide)

/-- **Items that leave their fields are sent as their fields.** -/
theorem sendsColumns_of_cleansToFields (hs : s.hasNames = true)
    (h : compile s parameters text = .ok q)
    (hclause : selectClause? (stripComments text) = some clause) (hclean : CleansToFields q clause) :
    SendsColumns q := by
  obtain ⟨sent, -, hsent, htext, -⟩ := compile_eq_ok h
  have hfieldPaths := isPathText_of_compile hs h
  set cleaned := (items clause.list).map plainList with hcleaned
  have hfields : cleaned.map (fun item => lower (trim item)) = q.fields.map String.toList := by
    rw [hcleaned, List.map_map]
    exact hclean.fields
  have hpaths : ∀ item ∈ cleaned, IsPathText (lower (trim item)) := fun item hitem =>
    hfieldPaths _ (hfields ▸ List.mem_map_of_mem hitem)
  have hne : cleaned ≠ [] := by
    intro hnil
    have hlength := congrArg List.length hfields
    rw [hnil, CompiledQuery.fields, List.map_map, List.length_map, List.length_map] at hlength
    exact (wellFormed_of_compile h).columns_ne_nil (List.length_eq_zero_iff.1 hlength.symm)
  -- the items of the list, cleaned one by one, are the cells of the cleaned list
  have hparts : (itemsFrom 0 clause.list).map plainList = cleaned ∨
      (itemsFrom 0 clause.list).map plainList = cleaned ++ [[]] := by
    rcases hclean.empty with hitems | hitems
    · exact .inl (by rw [hitems])
    · exact .inr (by rw [hitems, List.map_append]; rfl)
  have hplain : plainList clause.list = join [','] ((itemsFrom 0 clause.list).map plainList) := by
    rw [← plainList_join, join_itemsFrom]
  have hmem : ∀ cell ∈ (itemsFrom 0 clause.list).map plainList,
      cell = [] ∨ IsPathText (lower (trim cell)) := by
    intro cell hcell
    rcases hparts with hparts | hparts
    · exact .inr (hpaths cell (hparts ▸ hcell))
    · rw [hparts, List.mem_append, List.mem_singleton] at hcell
      exact hcell.symm.imp_right (hpaths cell)
  have hcells : cells ',' (plainList clause.list) = (itemsFrom 0 clause.list).map plainList := by
    rw [hplain, cells_join (by simp)]
    intro cell hcell
    rcases hmem cell hcell with rfl | hpath
    · simp
    · exact hpath.not_mem (by decide)
  have hkept : withoutBlankLast (cells ',' (plainList clause.list)) = cleaned := by
    rw [hcells]
    rcases hparts with hparts | hparts
    · rw [hparts, withoutBlankLast_paths hpaths]
    · rw [hparts, withoutBlankLast_concat_nil hne]
  have hbrace : '{' ∉ plainList clause.list := by
    rw [hplain]
    refine not_mem_join (by decide) fun cell hcell => ?_
    rcases hmem cell hcell with rfl | hpath
    · simp
    · exact hpath.not_mem (by decide)
  have hnoFrom : ∀ cell ∈ cells ',' (plainList clause.list), NoFrom cell := by
    rw [hcells]
    intro cell hcell
    rcases hmem cell hcell with rfl | hpath
    · intro word hword
      cases hword
    · exact hpath.noFrom
  obtain ⟨tail, hsentClause, hresource⟩ :=
    sent_clause hclause hclean.resource (not_mem_source hs h) hbrace hnoFrom hsent
  rw [hkept] at hsentClause
  exact ⟨_, by rw [htext, String.toList_ofList, hsentClause],
    selectsColumns_of_join hne hpaths hfields hresource⟩

/-! ## Only clean items are sent -/

/-- The cells of a list are those that are kept, or these and one blank cell. -/
theorem eq_withoutBlankLast (cells : List (List Char)) :
    cells = withoutBlankLast cells ∨
      ∃ last, trimStart last = [] ∧ cells = withoutBlankLast cells ++ [last] := by
  cases cells with
  | nil => exact .inl rfl
  | cons first rest =>
    rw [withoutBlankLast]
    split
    · next hblank =>
      obtain ⟨last, hlast, hnil⟩ := Option.map_eq_some_iff.1 hblank
      obtain ⟨init, rfl⟩ := List.getLast?_eq_some_iff.1 hlast
      exact .inr ⟨last, hnil, by rw [List.dropLast_concat, List.cons_append]⟩
    · exact .inl rfl

theorem mem_of_mem_withoutBlankLast {cell : List Char} {cells : List (List Char)}
    (h : cell ∈ withoutBlankLast cells) : cell ∈ cells := by
  rcases eq_withoutBlankLast cells with heq | ⟨last, -, heq⟩
  · rwa [heq]
  · rw [heq]
    exact List.mem_append_left _ h

/-- What the items of a list do not have, the list does not have either, unless it is a
comma. -/
theorem not_mem_of_itemsFrom {list : List Char} (hc : c ≠ ',')
    (h : ∀ item ∈ itemsFrom 0 list, c ∉ item) : c ∉ list := by
  rw [← join_itemsFrom 0 list]
  exact not_mem_join hc h

/-- An item that leaves a path has a character. -/
theorem filter_ne_nil_of_paths {items : List (List Char)}
    (h : ∀ cell ∈ items.map plainList, IsPathText (lower (trim cell))) :
    items.filter (fun item => item ≠ []) = items := by
  refine List.filter_eq_self.2 fun item hitem => decide_eq_true ?_
  rintro rfl
  exact (h _ (List.mem_map_of_mem hitem)).trimStart_ne_nil rfl

/-- A list whose items are paths is cut at every comma. -/
theorem itemsFrom_join_of_itemsFrom {parts : List (List Char)} (hne : parts ≠ [])
    (hcomma : ∀ part ∈ parts, ',' ∉ part)
    (hpaths : ∀ item ∈ itemsFrom 0 (join [','] parts), IsPathText (lower (trim item))) :
    itemsFrom 0 (join [','] parts) = parts := by
  have hnot (c : Char) (hc : c ∈ marks) (hother : c ≠ ',') : c ∉ join [','] parts :=
    not_mem_of_itemsFrom hother fun item hitem => (hpaths item hitem).not_mem hc
  rw [itemsFrom_eq_cells ⟨hnot '(' (by decide) (by decide), hnot ')' (by decide) (by decide)⟩,
    cells_join hne hcomma]

/-- A list whose cells are paths, but for a last one that is blank, has no marks but
commas. -/
theorem not_mem_of_paths {list : List Char}
    (hpaths : ∀ cell ∈ withoutBlankLast (cells ',' list), IsPathText (lower (trim cell)))
    (hc : c ∈ marks) (hcomma : c ≠ ',') : c ∉ list := by
  rw [← @join_cells ',' list]
  refine not_mem_join hcomma fun cell hcell => ?_
  rcases eq_withoutBlankLast (cells ',' list) with heq | ⟨last, hlast, heq⟩
  · exact (hpaths cell (heq ▸ hcell)).not_mem hc
  · rw [heq, List.mem_append, List.mem_singleton] at hcell
    rcases hcell with hcell | rfl
    · exact (hpaths cell hcell).not_mem hc
    · intro hmem
      have hblank := (isMark_of_mem hc).blank
      rw [isBlank_of_trimStart_eq_nil hlast c hmem] at hblank
      cases hblank

/-- The first `FROM` names the resource, if a word follows it. -/
theorem resourceAt?_of_compile (h : compile s parameters text = .ok q)
    (hclause : selectClause? (stripComments text) = some clause)
    (hword : (resourceAt? clause.tail).isSome = true) :
    resourceAt? clause.tail = some q.source.name.toList := by
  obtain ⟨hquery, hparts⟩ := selectClause?_eq_some.1 hclause
  obtain ⟨word, hword⟩ := Option.isSome_iff_exists.1 hword
  have hsource := (wellFormed_of_compile h).source.1
  rw [hquery, hparts.resourceWord?_eq, resourceWord?_of_resourceAt? hword] at hsource
  rw [hword, hsource]

/-- **Items that are sent as fields have left them**, on a regular clause. -/
theorem cleansToFields_of_sendsColumns (hs : s.hasNames = true)
    (h : compile s parameters text = .ok q)
    (hclause : selectClause? (stripComments text) = some clause) (hregular : Regular clause)
    (hsends : SendsColumns q) : CleansToFields q clause := by
  obtain ⟨sent, -, hsent, htext, -⟩ := compile_eq_ok h
  have hwell := wellFormed_of_compile h
  have hfieldPaths := isPathText_of_compile hs h
  have hresource := resourceAt?_of_compile h hclause hregular.resource
  obtain ⟨tail, hsentClause, -⟩ :=
    sent_clause hclause hresource (not_mem_source hs h) hregular.brace hregular.noFrom hsent
  obtain ⟨found, hfound, hselects⟩ := hsends
  rw [htext, String.toList_ofList, hsentClause] at hfound
  cases hfound
  set kept := withoutBlankLast (cells ',' (plainList clause.list)) with hkept
  have hfields := hselects.fields
  dsimp only at hfields
  have hpaths : ∀ item ∈ itemsFrom 0 (join [','] kept), IsPathText (lower (trim item)) :=
    fun item hitem => hfieldPaths _ (hfields ▸ List.mem_map_of_mem hitem)
  have hsplit : itemsFrom 0 (join [','] kept) = kept := by
    have hne : kept ≠ [] := by
      obtain ⟨first, rest, hcells⟩ :=
        List.exists_cons_of_ne_nil (cells_ne_nil ',' (plainList clause.list))
      obtain ⟨rest', hrest', -⟩ := exists_withoutBlankLast first rest
      rw [hkept, hcells, hrest']
      simp
    exact itemsFrom_join_of_itemsFrom hne
      (fun cell hcell => not_mem_of_mem_cells (mem_of_mem_withoutBlankLast hcell)) hpaths
  rw [hsplit] at hfields hpaths
  have hlength : kept.length = (items clause.list).length := by
    obtain ⟨clause', hclause', hitems, -⟩ := hwell.items
    rw [hclause] at hclause'
    cases hclause'
    rw [← hitems, ← List.length_map String.toList, ← hfields, List.length_map]
  -- without parentheses, the items of the cleaned list are its cells
  have hcells : (itemsFrom 0 clause.list).map plainList = cells ',' (plainList clause.list) := by
    rw [← itemsFrom_plainList hregular.parens, itemsFrom_eq_cells]
    exact ⟨not_mem_of_paths hpaths (by decide) (by decide),
      not_mem_of_paths hpaths (by decide) (by decide)⟩
  rcases eq_withoutBlankLast (cells ',' (plainList clause.list)) with heq | ⟨last, hlast, heq⟩
  · rw [heq, ← hkept] at hcells
    have hitems : items clause.list = itemsFrom 0 clause.list :=
      filter_ne_nil_of_paths (hcells ▸ hpaths)
    refine ⟨?_, .inl hitems.symm, hresource⟩
    rw [hitems, ← hfields, ← hcells, List.map_map]
    rfl
  · rw [heq, ← hkept] at hcells
    obtain ⟨init, ends, hlist, hinit, hends⟩ := List.map_eq_append_iff.1 hcells
    obtain ⟨item, rfl, -⟩ := List.map_eq_singleton_iff.1 hends
    have hfilter := filter_ne_nil_of_paths (hinit ▸ hpaths)
    have hitems : items clause.list = init ++ [item].filter (fun item => item ≠ []) := by
      rw [items, hlist, List.filter_append, hfilter]
    -- the columns are as many as the cells that are kept, so the last item is empty
    have hempty : item = [] := by
      by_contra hne
      rw [hitems, List.length_append, ← hinit, List.length_map] at hlength
      simp [hne] at hlength
    subst hempty
    rw [List.filter_cons_of_neg (by simp), List.filter_nil, List.append_nil] at hitems
    refine ⟨?_, .inr (by rw [hlist, hitems]), hresource⟩
    rw [hitems, ← hfields, ← hinit, List.map_map]
    rfl

/-- **When the sent text selects the columns.** It does whenever each item of the select
list, cleaned by itself, leaves the field of its column, for a schema whose names are
words. On a regular clause it does only then. -/
theorem compile_sendsColumns (hs : s.hasNames = true) (h : compile s parameters text = .ok q) :
    ∃ clause, selectClause? (stripComments text) = some clause ∧
      (CleansToFields q clause → SendsColumns q) ∧
      (Regular clause → SendsColumns q → CleansToFields q clause) := by
  obtain ⟨clause, hclause, -⟩ := (wellFormed_of_compile h).items
  exact ⟨clause, hclause, sendsColumns_of_cleansToFields hs h hclause,
    cleansToFields_of_sendsColumns hs h hclause⟩

/-- A query with an alias, a nested path and a comma before `FROM` sends its columns. -/
theorem compile_sendsColumns_sample :
    Schema.sample.hasNames = true ∧
    ∃ q, compile .sample [] "SELECT campaign.id AS n, campaign.caps:limit, FROM campaign".toList =
      .ok q ∧ SendsColumns q := by
  have hnames : Schema.sample.hasNames = true := rfl
  have hrun : (compile .sample []
      "SELECT campaign.id AS n, campaign.caps:limit, FROM campaign".toList).toOption.map
        (fun q => (q.fields, q.source.name)) = some (["campaign.id", "campaign.caps"], "campaign") := by
    decide +kernel
  obtain ⟨q, hq, hrun⟩ := Option.map_eq_some_iff.1 hrun
  rw [toOption_eq_some] at hq
  obtain ⟨hfields, hsource⟩ := Prod.mk.inj hrun
  refine ⟨hnames, q, hq, ?_⟩
  obtain ⟨clause, hclause, hclean, -⟩ := compile_sendsColumns hnames hq
  have hfound : selectClause? (stripComments
      "SELECT campaign.id AS n, campaign.caps:limit, FROM campaign".toList) =
        some ⟨"SELECT".toList, " campaign.id AS n, campaign.caps:limit,".toList,
          " FROM campaign".toList⟩ := by decide +kernel
  rw [hfound] at hclause
  cases hclause
  refine hclean ⟨?_, .inr rfl, ?_⟩
  · rw [hfields]
    rfl
  · rw [hsource]
    rfl

/-- **An alias that is not one word stays in part.** It is the label of the column, and
what follows its first word is sent as a part of the field. -/
theorem compile_sendsColumns_fails :
    ∃ q, compile .sample [] "SELECT campaign.id AS campaign-id FROM campaign".toList = .ok q ∧
      q.fields = ["campaign.id"] ∧ q.names = ["campaign-id"] ∧
      q.text = "SELECT campaign.id-id FROM campaign" ∧ ¬ SendsColumns q := by
  have hrun : (compile .sample []
      "SELECT campaign.id AS campaign-id FROM campaign".toList).toOption.map
        (fun q => (q.fields, q.names, q.text)) =
      some (["campaign.id"], ["campaign-id"], "SELECT campaign.id-id FROM campaign") := by
    decide +kernel
  obtain ⟨q, hq, hrun⟩ := Option.map_eq_some_iff.1 hrun
  rw [toOption_eq_some] at hq
  obtain ⟨hfields, hrun⟩ := Prod.mk.inj hrun
  obtain ⟨hnames, htext⟩ := Prod.mk.inj hrun
  refine ⟨q, hq, hfields, hnames, htext, ?_⟩
  rintro ⟨clause, hclause, hselects⟩
  have hfound : selectClause? "SELECT campaign.id-id FROM campaign".toList =
      some ⟨"SELECT".toList, " campaign.id-id".toList, " FROM campaign".toList⟩ := by
    decide +kernel
  rw [htext, hfound] at hclause
  cases hclause
  have hitems : (itemsFrom 0 " campaign.id-id".toList).map (fun item => lower (trim item)) =
      ["campaign.id-id".toList] := by decide +kernel
  have hsent := hselects.fields
  rw [hfields, hitems] at hsent
  revert hsent
  decide

end ReportQuery.Query
