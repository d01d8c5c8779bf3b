import ReportQuery.Proofs.Query.Columns
import ReportQuery.Proofs.Query.Sent
import ReportQuery.Proofs.Query.WrittenItem
/-!
# Queries are read as they are written

A query of the documented grammar, written with any case of the keywords and any blanks
between the words, is read back: its items, in order, and its resource; and what is sent
of it, without parameters, is the same query with the paths of the items only
(`WrittenQuery.read_of_relaid`). A query is one clause (`WrittenQuery.isClause`): every scan
stops where the writer put the keyword, since no item has a word that spells `FROM`.
-/

namespace ReportQuery.Query

open Text Outcome

/-- A query: its items, at least one, and its resource. -/
structure WrittenQuery where
  select : Keyword ['s', 'e', 'l', 'e', 'c', 't']
  first : WrittenItem
  rest : List WrittenItem
  source : Keyword ['f', 'r', 'o', 'm']
  resource : Segment

namespace WrittenQuery

variable (q : WrittenQuery)

/-- The items of a query. -/
def items : List WrittenItem := q.first :: q.rest

/-- What follows the select list: `FROM` and the resource. -/
def tail : List Char := ' ' :: (q.source.text ++ ' ' :: q.resource.text)

/-- The query with a text in the place of each item, with single spaces. -/
def withItems (print : WrittenItem → List Char) : List Char :=
  q.select.text ++ ' ' :: (join [',', ' '] (q.items.map print) ++ q.tail)

/-- A query as it is written, with single spaces. -/
def text : List Char := q.withItems WrittenItem.text

/-- The query with every item reduced to its path. -/
def plainText : List Char := q.withItems WrittenItem.field

/-! ## The clause of a written query -/

/-- The clause of the query with a text in the place of each item. -/
def clause (print : WrittenItem → List Char) : SelectClause where
  head := q.select.text
  list := join [','] (q.items.map fun item => ' ' :: print item)
  tail := q.tail

variable {q : WrittenQuery} {text : List Char}

theorem items_ne_nil : q.items ≠ [] := by simp [items]

/-- The space after a comma belongs to the next item. -/
theorem cons_join_spaces {texts : List (List Char)} (h : texts ≠ []) :
    ' ' :: join [',', ' '] texts = join [','] (texts.map fun text => ' ' :: text) := by
  induction texts with
  | nil => exact absurd rfl h
  | cons first rest ih =>
    by_cases hrest : rest = []
    · rw [hrest]
      rfl
    · rw [join_cons hrest, List.map_cons, join_cons (by simpa using hrest), ← ih hrest]
      simp

theorem withItems_eq (print : WrittenItem → List Char) :
    q.withItems print = (q.clause print).head ++ (q.clause print).list ++ (q.clause print).tail := by
  have hlist : ' ' :: join [',', ' '] (q.items.map print) = (q.clause print).list := by
    rw [cons_join_spaces (by simp [items_ne_nil]), List.map_map]
    rfl
  rw [withItems, ← hlist]
  simp [clause]

theorem resourceParts : ResourceParts q.tail q.resource.text ' ' q.source.text [' '] [] where
  eq := by simp [tail]
  blank := by decide
  spells := q.source.spells
  gap_ne := by simp
  gap_blank := List.forall_mem_singleton.2 (by decide)
  ne := q.resource.ne_nil
  chars := fun c hc => by
    have hblank := isBlank_of_isWord (q.resource.isWord c hc)
    have hother (d : Char) (hd : isWord d = false) : c ≠ d := fun hcd =>
      not_mem_of_forall q.resource.isWord hd (hcd ▸ hc)
    simp [isResourceChar, hblank, hother ',' (by decide), hother ';' (by decide)]
  stop := by simp

/-- **A written query is one clause.** -/
theorem isClause : IsClause (q.clause WrittenItem.text) where
  head := ⟨[], q.select.text, rfl, by simp, q.select.spells⟩
  startsWord := by
    simp only [clause, items, List.map_cons]
    refine startsWord_append ?_ resourceParts.fromAt.startsWord
    rw [startsWord_join]
    exact isWord_of_isBlank (by decide)
  tail := resourceParts.fromAt
  first := (untilFrom?_eq_some.1 <| untilFrom?_join _ (fun text htext => by
    obtain ⟨item, -, rfl⟩ := List.mem_map.1 htext
    exact item.noFrom) resourceParts.fromAt).2.2

theorem selectClause?_text : selectClause? q.text = some (q.clause WrittenItem.text) :=
  selectClause?_eq_some.2 ⟨withItems_eq _, isClause⟩

/-! ## What is read -/

theorem items_list : Query.items (q.clause WrittenItem.text).list =
    q.items.map fun item => ' ' :: item.text := by
  have hcells : itemsFrom 0 (q.clause WrittenItem.text).list =
      q.items.map fun item => ' ' :: item.text := by
    refine itemsFrom_join (by simp [items_ne_nil]) fun text htext => ?_
    obtain ⟨item, -, rfl⟩ := List.mem_map.1 htext
    have hcomma : ',' ∉ item.text := item.not_mem_text (by decide) (by decide) (by decide)
    have hopen : '(' ∉ item.text := item.not_mem_text (by decide) (by decide) (by decide)
    have hclose : ')' ∉ item.text := item.not_mem_text (by decide) (by decide) (by decide)
    simp [hcomma, hopen, hclose]
  rw [Query.items, hcells]
  exact List.filter_eq_self.2 fun text htext => by
    obtain ⟨item, -, rfl⟩ := List.mem_map.1 htext
    simp

theorem readItems_map (items : List WrittenItem) (index : Nat) :
    readItems index (items.map fun item => ' ' :: item.text) =
      .ok (items.map WrittenItem.parsed) := by
  induction items generalizing index with
  | nil => rfl
  | cons item items ih =>
    exact bind_eq_ok.2 ⟨_, item.read_text index, bind_eq_ok.2 ⟨_, ih (index + 1), rfl⟩⟩

theorem selectItems_text : selectItems q.text = .ok (q.items.map WrittenItem.parsed) := by
  rw [selectItems, selectClause?_text]
  simp only [items_list]
  exact readItems_map q.items 0

theorem resourceWord?_text : resourceWord? q.text = some q.resource.text := by
  rw [WrittenQuery.text, withItems_eq, isClause.resourceWord?_eq]
  exact resourceWord?_of_resourceAt? (resourceAt?_eq_some.2 ⟨_, _, _, _, resourceParts⟩)

/-! ## What is sent -/

/-- The passes over the select list leave the paths of the items. -/
theorem plainList_list :
    plainList (q.clause WrittenItem.text).list = (q.clause WrittenItem.field).list := by
  simp only [clause, plainList_join, List.map_map, Function.comp_def, WrittenItem.plainList_text]

theorem not_mem_select {c : Char} (hword : isWord c = false) : c ∉ q.select.text :=
  not_mem_of_forall (q.select.spells.isWord (by decide)) hword

theorem not_mem_tail {c : Char} (hword : isWord c = false) (hspace : c ≠ ' ') : c ∉ q.tail := by
  have hsource : c ∉ q.source.text := not_mem_of_forall (q.source.spells.isWord (by decide)) hword
  have hresource : c ∉ q.resource.text := not_mem_of_forall q.resource.isWord hword
  simp [tail, hspace, hsource, hresource]

/-- The commas between the paths stay. -/
theorem withoutLastComma_plainText : withoutLastComma q.plainText = q.plainText := by
  have hcomma : ∀ cell ∈ q.items.map (fun item => ' ' :: item.field), ',' ∉ cell := by
    intro cell hcell
    obtain ⟨item, -, rfl⟩ := List.mem_map.1 hcell
    simpa using not_mem_of_forall (c := ',') item.field_chars (by decide)
  have hlist : withoutLastComma ((q.clause WrittenItem.field).list ++ q.tail) =
      (q.clause WrittenItem.field).list ++ withoutLastComma q.tail := by
    -- no path spells `FROM`, and none is blank, so no comma stands in front of a `FROM`
    refine withoutLastComma_join _ _ hcomma (fun cell hcell => ?_)
      resourceParts.fromAt.startsWord fun last hlast hnil => ?_
    · obtain ⟨item, -, rfl⟩ := List.mem_map.1 hcell
      exact item.noFrom_field
    · obtain ⟨item, -, rfl⟩ := List.mem_map.1 (List.mem_of_getLast? hlast)
      have htrim : trimStart (' ' :: (item.field ++ [])) = item.field ++ [] :=
        trimStart_cons_append (by decide) item.field_isWordText
      rw [List.append_nil, hnil] at htrim
      exact absurd htrim.symm item.field_isWordText.1
  have htail := withoutLastComma_of_not_mem (not_mem_tail (q := q) (c := ',') (by decide) (by decide))
  rw [htail] at hlist
  rw [plainText, withItems_eq, List.append_assoc]
  exact (withoutLastComma_run (not_mem_select (by decide))).trans (congrArg _ hlist)

theorem cleaned_text : cleaned q.text = q.plainText := by
  have hcleaned : cleaned q.text = withoutLastComma ((q.clause WrittenItem.text).head ++
      plainList (q.clause WrittenItem.text).list ++ (q.clause WrittenItem.text).tail) := by
    rw [cleaned, selectClause?_text]
    rfl
  have hplain : q.plainText = (q.clause WrittenItem.text).head ++
      (q.clause WrittenItem.field).list ++ (q.clause WrittenItem.text).tail := withItems_eq _
  rw [hcleaned, plainList_list, ← hplain, withoutLastComma_plainText]

/-- **What is sent is the query with the paths of its items.** -/
theorem normalize_text (parameters : Entries String) :
    normalize parameters q.text = .ok q.plainText := by
  rw [normalize, cleaned_text]
  refine fillIn_of_not_mem ?_
  have hlist : '{' ∉ (q.clause WrittenItem.field).list := by
    refine not_mem_join (by decide) fun cell hcell => ?_
    obtain ⟨item, -, rfl⟩ := List.mem_map.1 hcell
    have hfield : '{' ∉ item.field := not_mem_of_forall item.field_chars (by decide)
    simpa using hfield
  rw [plainText, withItems_eq, List.mem_append, List.mem_append, not_or, not_or]
  exact ⟨⟨not_mem_select (by decide), hlist⟩, not_mem_tail (by decide) (by decide)⟩

/-! ## Layout -/

theorem isLaid_text : IsLaid q.text := by
  have hitems : IsLaid (join [',', ' '] (q.items.map WrittenItem.text)) :=
    IsLaid.join (by simp [items_ne_nil]) fun text htext => by
      obtain ⟨item, -, rfl⟩ := List.mem_map.1 htext
      exact item.isLaid_text
  have hselect : IsLaid q.select.text := (q.select.isPlainWord (by decide) (by simp)).isLaid
  have hsource : IsLaid q.source.text := (q.source.isPlainWord (by decide) (by simp)).isLaid
  exact hselect.append (hitems.append (hsource.append q.resource.isPlainWord.isLaid))

/-- **A query is read as it is written**, whichever blanks stand between its words: its
items in order, its resource, and the text that is sent, in which every item is its
path. -/
theorem read_of_relaid (q : WrittenQuery) {text : List Char} (h : Relaid q.text text) :
    selectItems (stripComments text) = .ok (q.items.map WrittenItem.parsed) ∧
      resourceWord? (stripComments text) = some q.resource.text ∧
      normalize [] (stripComments text) = .ok q.plainText := by
  rw [stripComments_of_relaid isLaid_text h]
  exact ⟨selectItems_text, resourceWord?_text, normalize_text []⟩

/-- A query of the resource `from`, whose first item is the field `from` of the row `as`. -/
def sample : WrittenQuery where
  select := ⟨"Select".toList, rfl⟩
  first :=
    { row := ⟨"as".toList, by decide, List.all_eq_true.1 rfl⟩
      path := ⟨⟨"from".toList, by decide, List.all_eq_true.1 rfl⟩, []⟩
      customizer := some (.index (-1))
      label := some ⟨⟨"AS".toList, rfl⟩, "From_1".toList, by decide,
        List.all_eq_true.1 rfl, by decide⟩ }
  rest :=
    [{ row := ⟨"campaign".toList, by decide, List.all_eq_true.1 rfl⟩
       path := ⟨⟨"caps".toList, by decide, List.all_eq_true.1 rfl⟩, []⟩
       customizer := some (.nested ⟨⟨"limit".toList, by decide, List.all_eq_true.1 rfl⟩, []⟩)
       label := none }]
  source := ⟨"FROM".toList, rfl⟩
  resource := ⟨"from".toList, by decide, List.all_eq_true.1 rfl⟩

/-- The sample with line ends and tabs for spaces. -/
def sampleText : List Char :=
  "Select\n  as.from~-1\tAS From_1,\r\n  campaign.caps:limit FROM\n\nfrom".toList

theorem read_of_relaid_sample :
    Relaid sample.text sampleText ∧
      selectItems (stripComments sampleText) =
        .ok [⟨"as.from", some "from_1", some (.resourceIndex (-1))⟩,
          ⟨"campaign.caps", none, some (.nestedField "limit")⟩] ∧
      resourceWord? (stripComments sampleText) = some "from".toList ∧
      normalize [] (stripComments sampleText) =
        .ok "Select as.from, campaign.caps FROM from".toList := by
  have hrelaid : Relaid sample.text sampleText := relaid_of_isRelaid rfl
  exact ⟨hrelaid, read_of_relaid sample hrelaid⟩

end WrittenQuery

end ReportQuery.Query
