import Mathlib.Data.List.Nodup
import ReportQuery.Proofs.Outcome
import ReportQuery.Proofs.Schema.Walk
import ReportQuery.Proofs.Text.Words
import ReportQuery.Query.Compiled
/-!
# The columns of a compiled query

A compiled query has one column for every item of the select list, in order, and
the names of its columns tell them apart (`WellFormed`). Where two items have one
name, no query is compiled, and the error names the first item whose name has been
taken (`FirstRepeat`). Both readings come from one scan of the names,
`firstRepeated?_spec`.
-/

namespace ReportQuery

open Text Outcome

namespace Query

/-! ## Names that occur again -/

variable {names seen : List String} {name : String} {index : Nat}

/-- The name at a place stands at an earlier place too. -/
def Repeats (names : List String) (index : Nat) : Prop :=
  ∃ name, names[index]? = some name ∧ name ∈ names.take index

/-- The first place whose name stands at an earlier place, with that name. -/
structure FirstRepeat (names : List String) (name : String) (index : Nat) : Prop where
  get : names[index]? = some name
  repeats : Repeats names index
  least : ∀ earlier < index, ¬ Repeats names earlier

/-- Names that differ do not repeat. -/
theorem not_repeats_of_nodup (h : names.Nodup) : ¬ Repeats names index := by
  rintro ⟨name, hget, hmem⟩
  obtain ⟨j, hj, hjname⟩ := List.mem_take_iff_getElem.1 hmem
  obtain ⟨hindex, hname⟩ := List.getElem?_eq_some_iff.1 hget
  have hlt : j < index := by omega
  have hsame : j = index := h.getElem_inj_iff.1 (by rw [hjname, hname])
  omega

/-- Places within a prefix repeat as they do in the prefix. -/
theorem repeats_append (h : index < seen.length) :
    Repeats (seen ++ names) index ↔ Repeats seen index := by
  rw [Repeats, Repeats, List.getElem?_append_left h, List.take_append_of_le_length (by omega)]

/-- **The scan finds the first repeated name.** The names seen so far differ, so
the first name that is among them is the first that repeats. -/
theorem firstRepeated?_spec (names : List String) (hseen : seen.Nodup) :
    match firstRepeated? seen names with
    | none => (seen ++ names).Nodup
    | some (name, index) => FirstRepeat (seen ++ names) name index := by
  induction names generalizing seen with
  | nil => simpa [firstRepeated?] using hseen
  | cons name rest ih =>
    rw [firstRepeated?]
    by_cases hmem : name ∈ seen
    · rw [if_pos hmem]
      have hget : (seen ++ name :: rest)[seen.length]? = some name := by simp
      exact ⟨hget, ⟨name, hget, by simpa using hmem⟩, fun earlier hlt =>
        mt (repeats_append hlt).1 (not_repeats_of_nodup hseen)⟩
    · rw [if_neg hmem]
      have hsnoc : (seen ++ [name]).Nodup := by
        rw [List.nodup_append]
        exact ⟨hseen, List.nodup_singleton name, fun a ha b hb => by
          rw [List.mem_singleton.1 hb]
          rintro rfl
          exact hmem ha⟩
      simpa [List.append_assoc] using ih hsnoc

theorem nodup_of_firstRepeated? (h : firstRepeated? [] names = none) : names.Nodup := by
  simpa [h] using firstRepeated?_spec names List.nodup_nil

/-- Names that do not all differ have a first repeated one. -/
theorem exists_firstRepeat (h : ¬ names.Nodup) :
    ∃ name index, firstRepeated? [] names = some (name, index) ∧ FirstRepeat names name index := by
  have hspec := firstRepeated?_spec names List.nodup_nil
  cases hscan : firstRepeated? [] names with
  | none => exact absurd (nodup_of_firstRepeated? hscan) h
  | some found =>
    rw [hscan] at hspec
    exact ⟨found.1, found.2, rfl, by simpa using hspec⟩

/-! ## Items -/

variable {item : List Char} {parsed : SelectItem}

/-- A label that is read is not blank. -/
theorem splitLabel_label {expression label : List Char}
    (h : splitLabel item = (expression, some label)) : ∃ c ∈ label, isBlank c = false := by
  rw [splitLabel] at h
  split at h
  · cases h
  · next rest _ =>
    simp only [Prod.mk.injEq, Option.ite_none_left_eq_some, Option.some.injEq] at h
    obtain ⟨-, hne, rfl⟩ := h
    exact exists_mem_of_trim_ne_nil hne

/-- **What an item that is read has passed.** -/
theorem read_eq_ok (h : SelectItem.read index item = .ok parsed) :
    ∃ expression label field, splitLabel (lower (trim item)) = (expression, label) ∧
      splitCustomizer expression = .ok (field, parsed.customizer) ∧ trim field ≠ [] ∧
      parsed.field = String.ofList (trim field) ∧ parsed.label = label.map String.ofList := by
  rw [SelectItem.read] at h
  cases hsplit : splitLabel (lower (trim item)) with
  | mk expression label =>
    rw [hsplit] at h
    obtain ⟨⟨field, customizer⟩, hcustomizer, h⟩ := bind_eq_ok.1 h
    by_cases hfield : trim field = []
    · simp [hfield] at h
    · simp only [hfield, if_false, Except.ok.injEq] at h
      subst h
      exact ⟨expression, label, field, rfl, hcustomizer, hfield, rfl, rfl⟩

/-- Neither the field of an item nor its label is blank. -/
theorem read_not_blank (h : SelectItem.read index item = .ok parsed) :
    (∃ c ∈ parsed.field.toList, isBlank c = false) ∧
      ∀ label ∈ parsed.label, ∃ c ∈ label.toList, isBlank c = false := by
  obtain ⟨expression, label, field, hsplit, -, hfield, hname, hlabel⟩ := read_eq_ok h
  rw [hname, hlabel]
  refine ⟨by simpa using exists_mem_of_trim_ne_nil hfield, fun text htext => ?_⟩
  obtain ⟨chars, rfl, rfl⟩ := Option.map_eq_some_iff.1 htext
  simpa using splitLabel_label hsplit

/-- **A column name is a name**: it has a character, and no space. -/
theorem columnName_of_read (h : SelectItem.read index item = .ok parsed) :
    parsed.columnName ≠ "" ∧ ' ' ∉ parsed.columnName.toList := by
  obtain ⟨hfield, hlabel⟩ := read_not_blank h
  have hname : ∃ c ∈ (parsed.label.getD parsed.field).toList, isBlank c = false := by
    cases hl : parsed.label with
    | none => exact hfield
    | some label => exact hlabel label hl
  obtain ⟨c, hc, hblank⟩ := hname
  refine ⟨fun hempty => ?_, by simp [SelectItem.columnName]⟩
  have hmem : c ∈ parsed.columnName.toList := by
    rw [SelectItem.columnName, String.toList_ofList, List.mem_filter]
    refine ⟨hc, decide_eq_true ?_⟩
    rintro rfl
    exact absurd hblank (by decide)
  rw [hempty] at hmem
  simp at hmem

/-- The items of a list are read one by one, each with its place. -/
theorem readItems_get {items : List (List Char)} {selected : List SelectItem}
    (h : readItems index items = .ok selected) :
    selected.length = items.length ∧ ∀ i item, items[i]? = some item →
      ∃ parsed, selected[i]? = some parsed ∧ SelectItem.read (index + i) item = .ok parsed := by
  induction items generalizing index selected with
  | nil =>
    cases h
    simp
  | cons first rest ih =>
    obtain ⟨parsed, hparsed, h⟩ := bind_eq_ok.1 h
    obtain ⟨others, hothers, h⟩ := bind_eq_ok.1 h
    cases h
    obtain ⟨hlength, hget⟩ := ih hothers
    refine ⟨by simp [hlength], fun i item hitem => ?_⟩
    cases i with
    | zero =>
      cases hitem
      exact ⟨parsed, rfl, hparsed⟩
    | succ i =>
      obtain ⟨found, hfound, hread⟩ := hget i item hitem
      exact ⟨found, hfound, by rwa [show index + (i + 1) = index + 1 + i by omega]⟩

/-- A select list that is read has a clause, and items in it. -/
theorem selectItems_eq_ok {query : List Char} {selected : List SelectItem}
    (h : selectItems query = .ok selected) :
    ∃ clause, selectClause? query = some clause ∧ items clause.list ≠ [] ∧
      readItems 0 (items clause.list) = .ok selected := by
  rw [selectItems] at h
  split at h
  · cases h
  · next clause hclause =>
    split at h
    · cases h
    · next hne => exact ⟨clause, hclause, hne, h⟩

/-! ## Compiling -/

variable {s : Schema} {parameters : Entries String} {query text : List Char} {q : CompiledQuery}
variable {selected : List SelectItem} {cols : List Column}

/-- A column is made of an item: it has the name, the field and the customizer of
the item and the type of these. -/
structure IsColumnOf (s : Schema) (item : SelectItem) (column : Column) : Prop where
  name : column.name = item.columnName
  field : column.field = item.field
  customizer : column.customizer = item.customizer
  type : columnType s item.field item.customizer = .ok column.type

/-- **Every item becomes a column**, in order. -/
theorem columns_eq_ok (h : columns s selected = .ok cols) :
    List.Forall₂ (IsColumnOf s) selected cols := by
  induction selected generalizing cols with
  | nil =>
    cases h
    exact .nil
  | cons item rest ih =>
    rw [columns, List.mapM_cons] at h
    obtain ⟨column, hcolumn, h⟩ := bind_eq_ok.1 h
    obtain ⟨others, hothers, h⟩ := bind_eq_ok.1 h
    obtain ⟨type, htype, hcolumn⟩ := bind_eq_ok.1 hcolumn
    cases hcolumn
    cases h
    exact .cons ⟨rfl, rfl, rfl, htype⟩ (ih hothers)

/-- The resource of a query is what the schema has under the word after `FROM`. -/
theorem source_eq_ok {source : Source} (h : Query.source s query = .ok source) :
    resourceWord? query = some source.name.toList ∧ s.resource source.name = .ok source.type := by
  rw [Query.source] at h
  split at h
  · cases h
  · next word hword =>
    obtain ⟨type, htype, h⟩ := bind_eq_ok.1 h
    cases h
    exact ⟨by simpa using hword, mapError_eq_ok.1 htype⟩

/-- **What a query that compiles has passed.** -/
theorem compile_eq_ok (h : compile s parameters text = .ok q) :
    ∃ sent selected, normalize parameters (stripComments text) = .ok sent ∧
      q.text = String.ofList sent ∧
      selectItems (stripComments text) = .ok selected ∧
      firstRepeated? [] (selected.map SelectItem.columnName) = none ∧
      Query.source s (stripComments text) = .ok q.source ∧
      columns s selected = .ok q.columns := by
  obtain ⟨sent, hsent, h⟩ := bind_eq_ok.1 h
  obtain ⟨selected, hselected, h⟩ := bind_eq_ok.1 h
  split at h
  · cases h
  · next hdistinct =>
    obtain ⟨source, hsource, h⟩ := bind_eq_ok.1 h
    obtain ⟨cols, hcols, h⟩ := bind_eq_ok.1 h
    cases h
    exact ⟨sent, selected, hsent, rfl, hselected, hdistinct, hsource, hcols⟩

/-- Placeholders that all have a value leave no name unknown. -/
theorem normalize_of_covered
    (h : ∀ p, Part.piece p ∈ parts Placeholder.anywhere (cleaned query) →
      parameters.has (Placeholder.name p) = true) :
    ∃ sent, normalize parameters query = .ok sent := by
  have hunknown : Placeholder.unknown Placeholder.anywhere parameters.has (cleaned query) = [] := by
    rw [Placeholder.unknown, List.filterMap_eq_nil_iff.2]
    · rfl
    · intro part hpart
      cases part with
      | kept c => rfl
      | piece p => simp [h p hpart]
  rw [normalize, fillIn, hunknown]
  exact ⟨_, rfl⟩

end Query

/-! ## The four lists of a compiled query -/

namespace CompiledQuery

variable (q : CompiledQuery)

/-- The field paths of the columns. -/
def fields : List String := q.columns.map Column.field

/-- The names of the columns. -/
def names : List String := q.columns.map Column.name

/-- The customizers of the columns. -/
def customizers : List (Option Query.Customizer) := q.columns.map Column.customizer

/-- The types of the columns. -/
def types : List FieldType := q.columns.map Column.type

variable {q} {name : String} {index : Nat}

theorem column?_get (h : q.column? name = some index) : q.names[index]? = some name := by
  obtain ⟨hlt, hname, -⟩ := List.findIdx?_eq_some_iff_getElem.1 h
  rw [names, List.getElem?_map, List.getElem?_eq_getElem hlt, Option.map_some, of_decide_eq_true hname]

/-- **Where names differ, the lookup by name inverts the list of names.** -/
theorem column?_eq_some (hnodup : q.names.Nodup) :
    q.column? name = some index ↔ q.names[index]? = some name := by
  refine ⟨column?_get, fun h => ?_⟩
  cases hfound : q.column? name with
  | none =>
    rw [column?, List.findIdx?_eq_none_iff] at hfound
    obtain ⟨column, hcolumn, rfl⟩ := List.mem_map.1 (List.mem_of_getElem? h)
    simpa using hfound column hcolumn
  | some found =>
    obtain ⟨hlt, hname⟩ := List.getElem?_eq_some_iff.1 (column?_get hfound)
    obtain ⟨hlt', hname'⟩ := List.getElem?_eq_some_iff.1 h
    rw [hnodup.getElem_inj_iff.1 (hname.trans hname'.symm)]

end CompiledQuery

namespace Query

variable {s : Schema} {parameters : Entries String} {query text : List Char} {q : CompiledQuery}

/-- **What a compiled query represents**, for the query without comments that it
was compiled from. -/
structure WellFormed (s : Schema) (query : List Char) (q : CompiledQuery) : Prop where
  columns_ne_nil : q.columns ≠ []
  /-- The four lists of the columns go together. -/
  lengths : q.names.length = q.fields.length ∧ q.customizers.length = q.fields.length ∧
    q.types.length = q.fields.length
  /-- Every item of the select list that has a character is a column. -/
  items : ∃ clause, selectClause? query = some clause ∧
    q.fields.length = (Query.items clause.list).length ∧
    ∀ (i : Nat) item, (Query.items clause.list)[i]? = some item → ∃ parsed,
      SelectItem.read i item = .ok parsed ∧ q.fields[i]? = some parsed.field ∧
      q.names[i]? = some parsed.columnName ∧ q.customizers[i]? = some parsed.customizer
  names_nodup : q.names.Nodup
  names_ne_empty : "" ∉ q.names
  names_no_space : ∀ name ∈ q.names, ' ' ∉ name.toList
  /-- A column has the type of its field and its customizer. -/
  types : ∀ (i : Nat) field customizer, q.fields[i]? = some field → q.customizers[i]? = some customizer →
    ∃ type, q.types[i]? = some type ∧ columnType s field customizer = .ok type
  /-- The resource is what the schema has under the word after `FROM`. -/
  source : resourceWord? query = some q.source.name.toList ∧
    s.resource q.source.name = .ok q.source.type
  /-- The lookup by name finds the column of that name and no other. -/
  lookup : ∀ name index, q.column? name = some index ↔ q.names[index]? = some name

/-- Items and columns that go together have the same names. -/
theorem names_of_columns {selected : List SelectItem} {cols : List Column}
    (h : List.Forall₂ (IsColumnOf s) selected cols) :
    cols.map Column.name = selected.map SelectItem.columnName := by
  induction h with
  | nil => rfl
  | cons hcolumn _ ih => rw [List.map_cons, List.map_cons, hcolumn.name, ih]

/-- Every column has the type of its field and its customizer. -/
theorem columnType_of_mem {selected : List SelectItem} {cols : List Column} {column : Column}
    (h : List.Forall₂ (IsColumnOf s) selected cols) (hmem : column ∈ cols) :
    columnType s column.field column.customizer = .ok column.type := by
  induction h with
  | nil => cases hmem
  | cons hof _ ih =>
    rcases List.mem_cons.1 hmem with rfl | hmem
    · rw [hof.field, hof.customizer, hof.type]
    · exact ih hmem

/-- The column of an item stands at the place of the item. -/
theorem column_get {selected : List SelectItem} {cols : List Column} {i : Nat} {parsed : SelectItem}
    (h : List.Forall₂ (IsColumnOf s) selected cols) (hget : selected[i]? = some parsed) :
    ∃ column, cols[i]? = some column ∧ IsColumnOf s parsed column := by
  obtain ⟨hlt, rfl⟩ := List.getElem?_eq_some_iff.1 hget
  have hlt' : i < cols.length := h.length_eq ▸ hlt
  exact ⟨cols[i], List.getElem?_eq_getElem hlt', h.get hlt hlt'⟩

/-- **A query that compiles is well formed.** -/
theorem wellFormed_of_compile (h : compile s parameters text = .ok q) :
    WellFormed s (stripComments text) q := by
  obtain ⟨sent, selected, -, -, hselected, hdistinct, hsource, hcols⟩ := compile_eq_ok h
  obtain ⟨clause, hclause, hne, hread⟩ := selectItems_eq_ok hselected
  obtain ⟨hlength, hget⟩ := readItems_get hread
  have hcolumns := columns_eq_ok hcols
  have hnames : q.names = selected.map SelectItem.columnName := names_of_columns hcolumns
  have hnodup : q.names.Nodup := hnames ▸ nodup_of_firstRepeated? hdistinct
  -- the name of a column is the name of an item that was read
  have hname : ∀ name ∈ q.names, name ≠ "" ∧ ' ' ∉ name.toList := by
    intro name hmem
    rw [hnames, List.mem_map] at hmem
    obtain ⟨parsed, hparsed, rfl⟩ := hmem
    obtain ⟨i, hi, rfl⟩ := List.mem_iff_getElem.1 hparsed
    have hitem := List.getElem?_eq_getElem (show i < (items clause.list).length by omega)
    obtain ⟨found, hfound, hread⟩ := hget i _ hitem
    rw [List.getElem?_eq_getElem hi, Option.some.injEq] at hfound
    exact columnName_of_read (hfound ▸ hread)
  refine ⟨?_, by simp [CompiledQuery.names, CompiledQuery.fields, CompiledQuery.customizers,
    CompiledQuery.types], ⟨clause, hclause, ?_, fun i item hitem => ?_⟩, hnodup,
    fun hempty => (hname _ hempty).1 rfl, fun name hmem => (hname name hmem).2,
    fun i field customizer hfield hcustomizer => ?_, source_eq_ok hsource,
    fun name index => CompiledQuery.column?_eq_some hnodup⟩
  · intro hnil
    rw [hnil, List.forall₂_nil_right_iff] at hcolumns
    rw [hcolumns, List.length_nil] at hlength
    exact hne (List.length_eq_zero_iff.1 hlength.symm)
  · rw [CompiledQuery.fields, List.length_map, ← hcolumns.length_eq, hlength]
  · obtain ⟨parsed, hparsed, hread⟩ := hget i item hitem
    obtain ⟨column, hcolumn, hof⟩ := column_get hcolumns hparsed
    rw [Nat.zero_add] at hread
    exact ⟨parsed, hread, by simp [CompiledQuery.fields, hcolumn, hof.field],
      by simp [CompiledQuery.names, hcolumn, hof.name],
      by simp [CompiledQuery.customizers, hcolumn, hof.customizer]⟩
  · rw [CompiledQuery.fields, List.getElem?_map] at hfield
    obtain ⟨column, hcolumn, rfl⟩ := Option.map_eq_some_iff.1 hfield
    rw [CompiledQuery.customizers, List.getElem?_map, hcolumn, Option.map_some,
      Option.some.injEq] at hcustomizer
    exact ⟨column.type, by simp [CompiledQuery.types, hcolumn],
      hcustomizer ▸ columnType_of_mem hcolumns (List.mem_of_getElem? hcolumn)⟩

/-- **Columns are told apart by their names, or nothing is compiled.** A query that
compiles is well formed. A query whose items are read, whose placeholders all have a
value and of whose items two have one name fails with the first repeated name. -/
theorem compile_columns (s : Schema) (parameters : Entries String) (text : List Char) :
    (∀ q, compile s parameters text = .ok q → WellFormed s (stripComments text) q) ∧
    ∀ selected, selectItems (stripComments text) = .ok selected →
      ¬ (selected.map SelectItem.columnName).Nodup →
      (∀ p, Part.piece p ∈ parts Placeholder.anywhere (cleaned (stripComments text)) →
        parameters.has (Placeholder.name p) = true) →
      ∃ name index, compile s parameters text = .error (.duplicateColumn name index) ∧
        FirstRepeat (selected.map SelectItem.columnName) name index := by
  refine ⟨fun q => wellFormed_of_compile, fun selected hselected hnodup hcovered => ?_⟩
  obtain ⟨sent, hsent⟩ := normalize_of_covered hcovered
  obtain ⟨name, index, hscan, hfirst⟩ := exists_firstRepeat hnodup
  refine ⟨name, index, ?_, hfirst⟩
  simp only [compile, hsent, hselected, bind, Except.bind, hscan]

/-- A query with two columns, and one that gives two columns one name in different
cases. -/
theorem compile_columns_sample :
    (∃ q, compile .sample [] "SELECT campaign.id AS n, campaign.caps:limit FROM campaign".toList =
        .ok q ∧ q.names = ["n", "campaign.caps"] ∧
      WellFormed .sample
        (stripComments "SELECT campaign.id AS n, campaign.caps:limit FROM campaign".toList) q) ∧
    ∃ name index, compile .sample [("n", "1")]
        "SELECT campaign.id AS x, campaign.name AS X FROM campaign WHERE campaign.id = {n}".toList =
        .error (.duplicateColumn name index) ∧ FirstRepeat ["x", "x"] name index := by
  have hrun : (compile .sample [] "SELECT campaign.id AS n, campaign.caps:limit FROM campaign".toList
      ).toOption.map CompiledQuery.names = some ["n", "campaign.caps"] := by decide +kernel
  have hselected : selectItems (stripComments
      "SELECT campaign.id AS x, campaign.name AS X FROM campaign WHERE campaign.id = {n}".toList) =
        .ok [⟨"campaign.id", some "x", none⟩, ⟨"campaign.name", some "x", none⟩] := by
    decide +kernel
  obtain ⟨q, hq, hnames⟩ := Option.map_eq_some_iff.1 hrun
  rw [toOption_eq_some] at hq
  refine ⟨⟨q, hq, hnames, (compile_columns _ _ _).1 q hq⟩,
    (compile_columns .sample [("n", "1")] _).2 _ hselected (by decide) fun p hp => ?_⟩
  have hparts : parts Placeholder.anywhere (cleaned (stripComments
      "SELECT campaign.id AS x, campaign.name AS X FROM campaign WHERE campaign.id = {n}".toList)) =
        "SELECT campaign.id, campaign.name FROM campaign WHERE campaign.id = ".toList.map .kept ++
          [.piece "{n}".toList] := by decide +kernel
  rw [hparts, List.mem_append, List.mem_map, List.mem_singleton] at hp
  rcases hp with ⟨c, -, hc⟩ | hp
  · cases hc
  · rw [Part.piece.inj hp]
    rfl

end Query
end ReportQuery
