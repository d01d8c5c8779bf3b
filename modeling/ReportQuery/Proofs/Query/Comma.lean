import ReportQuery.Proofs.Outcome
import ReportQuery.Proofs.Query.Comment
import ReportQuery.Proofs.Query.SecondRun
import ReportQuery.Proofs.Schema.Walk
/-!
# Spaces around the commas of a select list

A space in front of a comma of the select list, or behind it, goes into an item, where it is trimmed
away. So compiling sees no difference (`compile_insert_space`), unless the space makes something
else of the list: an item of blanks where no character stood between two commas, or a blank that a
`FROM` needs to count. An item of blanks names no field, so a query with such an item never
compiles.
-/

namespace ReportQuery.Query

open Text Outcome

variable {b c : Char} {depth index : Nat} {text left right tail gap word item : List Char}
variable {s : Schema} {parameters : Entries String} {query : List Char} {clause : SelectClause}

/-! ## Spaces in a bare text -/

/-- A text in one line without comments is left with the words it has. -/
theorem stripComments_eq_join_words (hfeed : '\n' ∉ text) (hdashes : ¬ ['-', '-'] <:+: text)
    (hcomment : isCommentLine text = false) : stripComments text = join [' '] (words text) := by
  rw [stripComments_eq_words, cells_of_not_mem hfeed, List.flatMap_singleton, keptWords, hcomment,
    beforeComment_of_not_dashes hdashes]
  rfl

/-- Dashes stand on one side of a character that is none. -/
theorem not_dashes_append_cons (hc : c ≠ '-') (hleft : ¬ ['-', '-'] <:+: left)
    (hright : ¬ ['-', '-'] <:+: right) : ¬ ['-', '-'] <:+: left ++ c :: right := by
  have hsep : c ∉ ['-', '-'] := by simpa using hc
  rw [← cut?_eq_none] at hright ⊢
  rw [cut?_append_cons hsep hleft, hright, Option.map_none]

/-- A space between characters that are none makes no pair of spaces. -/
theorem not_spaces_append_cons (hleft : ¬ [' ', ' '] <:+: left) (hright : ¬ [' ', ' '] <:+: right)
    (hlast : left.getLast? ≠ some ' ') (hfirst : right.head? ≠ some ' ') :
    ¬ [' ', ' '] <:+: left ++ ' ' :: right := by
  induction left with
  | nil =>
    rw [List.nil_append, List.infix_cons_iff, not_or, List.prefix_cons_inj]
    refine ⟨?_, hright⟩
    rintro ⟨rest, rfl⟩
    exact hfirst rfl
  | cons d ds ih =>
    rw [List.infix_cons_iff, not_or] at hleft
    rw [List.cons_append, List.infix_cons_iff, not_or, List.cons_prefix_cons]
    refine ⟨?_, ih hleft.2 ?_⟩
    · rintro ⟨rfl, rest, hrest⟩
      cases ds with
      | nil => exact hlast rfl
      | cons e ds =>
        obtain ⟨rfl, -⟩ := List.cons.inj hrest
        exact hleft.1 ⟨ds, rfl⟩
    · rintro hds
      exact hlast (by rw [List.getLast?_cons, hds, Option.getD_some])

namespace IsBare

theorem isCommentLine_eq (h : IsBare (left ++ right)) (hleft : left ≠ []) (text : List Char) :
    isCommentLine (left ++ text) = false := by
  obtain ⟨c, cs, rfl⟩ := List.exists_cons_of_ne_nil hleft
  rw [isCommentLine, List.cons_append, trimStart_of_head (h.isTrimmed.1 c rfl), List.head?_cons,
    decide_eq_false_iff_not, Option.some.injEq]
  exact (h.first c rfl).2

/-- **A space at a space does not count.** -/
theorem stripComments_insert_space (h : IsBare (left ++ right)) (hleft : left ≠ [])
    (hblank : left.getLast? = some ' ' ∨ right.head? = some ' ') :
    stripComments (left ++ ' ' :: right) = left ++ right := by
  have hspace : isBlank ' ' = true := by decide
  have hfeed : '\n' ∉ left ++ ' ' :: right := by simpa using h.lineFeed
  have hdashes : ¬ ['-', '-'] <:+: left ++ ' ' :: right :=
    not_dashes_append_cons (by decide)
      (fun hoccurs => h.dashes (hoccurs.trans (List.prefix_append left right).isInfix))
      fun hoccurs => h.dashes (hoccurs.trans (List.suffix_append left right).isInfix)
  have hwords : words (left ++ ' ' :: right) = words (left ++ right) := by
    rcases hblank with hlast | hfirst
    · obtain ⟨init, rfl⟩ := List.getLast?_eq_some_iff.1 hlast
      rw [words_append hspace, List.append_assoc, List.singleton_append, words_append hspace,
        words_append hspace, words_nil, List.append_nil]
    · obtain ⟨rest, rfl⟩ := List.head?_eq_some_iff.1 hfirst
      rw [words_append hspace, words_cons hspace, words_append hspace]
  rw [stripComments_eq_join_words hfeed hdashes (h.isCommentLine_eq hleft _), hwords, h.join_words]

/-- A space between characters that are none leaves a bare text bare. -/
theorem insert_space (h : IsBare (left ++ right)) (hleft : left ≠ []) (hright : right ≠ [])
    (hlast : left.getLast? ≠ some ' ') (hfirst : right.head? ≠ some ' ') :
    IsBare (left ++ ' ' :: right) := by
  obtain ⟨c, cs, rfl⟩ := List.exists_cons_of_ne_nil hleft
  refine ⟨by simpa using h.lineFeed, ?_, fun d hd hblank => ?_, ?_, h.first, fun d hd => ?_⟩
  · exact not_dashes_append_cons (by decide)
      (fun hoccurs => h.dashes (hoccurs.trans (List.prefix_append _ right).isInfix))
      fun hoccurs => h.dashes (hoccurs.trans (List.suffix_append _ right).isInfix)
  · rcases List.mem_append.1 hd with hd | hd
    · exact h.blank d (List.mem_append_left _ hd) hblank
    · rcases List.mem_cons.1 hd with hd | hd
      · exact hd
      · exact h.blank d (List.mem_append_right _ hd) hblank
  · exact not_spaces_append_cons
      (fun hoccurs => h.single (hoccurs.trans (List.prefix_append _ right).isInfix))
      (fun hoccurs => h.single (hoccurs.trans (List.suffix_append _ right).isInfix)) hlast hfirst
  · refine h.last d ?_
    rw [List.getLast?_append_of_ne_nil _ (List.cons_ne_nil _ _)] at hd
    rw [List.getLast?_append_of_ne_nil _ hright]
    obtain ⟨e, es, rfl⟩ := List.exists_cons_of_ne_nil hright
    rwa [List.getLast?_cons_cons] at hd

end IsBare

/-! ## The items at a comma -/

/-- The parentheses that are open behind a text. -/
def depthBehind (depth : Nat) (text : List Char) : Nat := text.foldl depthAfter depth

theorem depthBehind_append :
    depthBehind depth (left ++ right) = depthBehind (depthBehind depth left) right :=
  List.foldl_append

theorem depthBehind_of_not_mem (hopen : '(' ∉ text) (hclose : ')' ∉ text) :
    depthBehind depth text = depth := by
  induction text with
  | nil => rfl
  | cons c cs ih =>
    obtain ⟨hc, hopen⟩ := List.ne_and_not_mem_of_not_mem_cons hopen
    obtain ⟨hc', hclose⟩ := List.ne_and_not_mem_of_not_mem_cons hclose
    rw [depthBehind, List.foldl_cons, depthAfter, if_neg hc.symm, if_neg hc'.symm]
    exact ih hopen hclose

/-- A text in front of a list adds items, and starts the first item of the list. -/
theorem exists_itemsFrom_append (depth : Nat) (left : List Char) :
    ∃ init last, ∀ right item items, itemsFrom (depthBehind depth left) right = item :: items →
      itemsFrom depth (left ++ right) = init ++ (last ++ item) :: items := by
  induction left generalizing depth with
  | nil => exact ⟨[], [], fun right item items h => h⟩
  | cons c cs ih =>
    by_cases hc : c = ',' ∧ depth = 0
    · obtain ⟨rfl, rfl⟩ := hc
      obtain ⟨init, last, h⟩ := ih 0
      exact ⟨[] :: init, last, fun right item items hitems => by
        rw [List.cons_append, itemsFrom_comma, h right item items hitems, List.cons_append]⟩
    · obtain ⟨init, last, h⟩ := ih (depthAfter depth c)
      have hcons (right item items)
          (hitems : itemsFrom (depthBehind depth (c :: cs)) right = item :: items) :
          itemsFrom depth (c :: cs ++ right) =
            (init ++ (last ++ item) :: items).modifyHead (c :: ·) := by
        obtain ⟨first, rest, hrest, heq⟩ := itemsFrom_cons (cs ++ right) hc
        rw [h right item items hitems] at hrest
        rw [List.cons_append, heq, hrest, List.modifyHead_cons]
      cases init with
      | nil => exact ⟨[], c :: last, hcons⟩
      | cons first init => exact ⟨(c :: first) :: init, last, hcons⟩

/-- **A comma outside parentheses cuts the list.** -/
theorem itemsFrom_append_comma (h : depthBehind depth left = 0) :
    itemsFrom depth (left ++ ',' :: right) = itemsFrom depth left ++ itemsFrom 0 right := by
  obtain ⟨init, last, happend⟩ := exists_itemsFrom_append depth left
  have hleft := happend [] [] [] rfl
  have hcomma := happend (',' :: right) [] (itemsFrom 0 right) (by rw [h, itemsFrom_comma])
  rw [List.append_nil] at hleft
  rw [hleft, hcomma, List.append_assoc, List.singleton_append]

theorem items_append_comma (h : depthBehind 0 left = 0) :
    items (left ++ ',' :: right) = items left ++ items right := by
  rw [items, itemsFrom_append_comma h, List.filter_append, items, items]

/-- Blanks between two commas are an item. -/
theorem items_append_gap (hdepth : depthBehind 0 left = 0) (hne : gap ≠ [])
    (hgap : ∀ c ∈ gap, isBlank c = true) :
    items (left ++ ',' :: (gap ++ ',' :: right)) = items left ++ gap :: items right := by
  have hno {c : Char} (hc : isBlank c = false) : c ∉ gap := fun hmem => by
    rw [hgap c hmem] at hc
    cases hc
  have hopen : '(' ∉ gap := hno (by decide)
  have hclose : ')' ∉ gap := hno (by decide)
  have hitem : items gap = [gap] := by
    rw [items, itemsFrom_eq_cells ⟨hopen, hclose⟩, cells_of_not_mem (hno (by decide))]
    simp [hne]
  rw [items_append_comma hdepth, items_append_comma (depthBehind_of_not_mem hopen hclose), hitem,
    List.singleton_append]

/-- A comma outside parentheses, in front of the place or directly behind it. -/
structure AtComma (left right : List Char) : Prop where
  depth : depthBehind 0 left = 0
  comma : left.getLast? = some ',' ∨ right.head? = some ','

theorem isBlank_space : isBlank ' ' = true := by decide

theorem trim_space_cons (text : List Char) : trim (' ' :: text) = trim text := by
  rw [trim, trimStart, List.dropWhile_cons_of_pos isBlank_space, ← trimStart, trim]

theorem trim_append_space (text : List Char) : trim (text ++ [' ']) = trim text := by
  rw [trim, trim]
  by_cases htext : trimStart text = []
  · rw [trimStart_append_of_eq_nil htext, htext]
    decide
  · rw [trimStart_append htext, trimEnd, trimEnd, List.reverse_append, List.reverse_singleton,
      List.singleton_append, List.dropWhile_cons_of_pos isBlank_space]

/-- A list that ends with a character other than a comma has a last item, and a space behind the
list belongs to it. -/
theorem exists_last_item (hdepth : depthBehind 0 left = 0) (hlast : left.getLast? = some c)
    (hc : c ≠ ',') :
    ∃ init last, items left = init ++ [last] ∧ items (left ++ [' ']) = init ++ [last ++ [' ']] := by
  obtain ⟨init, last, happend⟩ := exists_itemsFrom_append 0 left
  have hleft := happend [] [] [] rfl
  have hspace := happend [' '] [' '] [] (by rw [hdepth]; rfl)
  rw [List.append_nil, List.append_nil] at hleft
  have hne : last ≠ [] := by
    rintro rfl
    have hjoin := join_itemsFrom 0 left
    rw [hleft] at hjoin
    by_cases hinit : init = []
    · rw [← hjoin, hinit] at hlast
      cases hlast
    · rw [join_append hinit (by simp), join, List.append_nil] at hjoin
      rw [← hjoin, List.getLast?_concat, Option.some.injEq] at hlast
      exact hc hlast.symm
  refine ⟨init.filter fun item => item ≠ [], last, ?_, ?_⟩
  · simp [items, hleft, hne]
  · simp [items, hspace]

/-- **A space at a comma** goes into an item that has a character, at its start or at its end. -/
theorem map_trim_items_insert (h : AtComma left right)
    (hitem : right.head? = some ',' → ∃ c ∈ left.getLast?, c ≠ ',') (hright : right ≠ []) :
    (items (left ++ ' ' :: right)).map trim = (items (left ++ right)).map trim := by
  by_cases hfirst : right.head? = some ','
  · obtain ⟨rest, rfl⟩ := List.head?_eq_some_iff.1 hfirst
    obtain ⟨c, hlast, hc⟩ := hitem hfirst
    obtain ⟨init, last, hleft, hspace⟩ := exists_last_item h.depth hlast hc
    have hdepth : depthBehind 0 (left ++ [' ']) = 0 := by
      rw [depthBehind_append, h.depth]
      rfl
    have hsplit : left ++ ' ' :: ',' :: rest = left ++ [' '] ++ ',' :: rest := by simp
    rw [hsplit, items_append_comma hdepth, items_append_comma h.depth, hleft, hspace]
    simp [trim_append_space]
  · obtain ⟨init, rfl⟩ := List.getLast?_eq_some_iff.1 (h.comma.resolve_right hfirst)
    have hdepth : depthBehind 0 init = 0 := by
      have hdepth := h.depth
      rwa [depthBehind_append] at hdepth
    obtain ⟨c, cs, rfl⟩ := List.exists_cons_of_ne_nil hright
    have hc : ¬ (c = ',' ∧ 0 = 0) := fun heq => hfirst (by rw [heq.1]; rfl)
    obtain ⟨item, rest, -, hitems⟩ := itemsFrom_cons cs hc
    have hspace : itemsFrom 0 (' ' :: c :: cs) = (' ' :: c :: item) :: rest := by
      rw [itemsFrom, if_neg (by decide)]
      simp only [hitems, if_neg (show ¬ ' ' = '(' by decide), if_neg (show ¬ ' ' = ')' by decide)]
    rw [List.append_assoc, List.singleton_append, List.append_assoc, List.singleton_append,
      items_append_comma hdepth, items_append_comma hdepth, items, items, items, hitems, hspace]
    simp [trim_space_cons]

/-! ## Reading the items -/

/-- An item is read without the blanks around it. -/
theorem readItems_eq_of_trim {list other : List (List Char)} (h : list.map trim = other.map trim) :
    readItems index list = readItems index other := by
  induction list generalizing index other with
  | nil =>
    rw [List.map_nil, eq_comm, List.map_eq_nil_iff] at h
    rw [h]
  | cons item rest ih =>
    obtain ⟨item', rest', rfl, hitem, hrest⟩ := List.map_eq_cons_iff.1 h.symm
    have hread : SelectItem.read index item = SelectItem.read index item' := by
      rw [SelectItem.read, SelectItem.read, hitem]
    rw [readItems, readItems, hread, ih hrest.symm]

/-- An item of blanks names no field. -/
theorem read_of_blank (hblank : ∀ c ∈ item, isBlank c = true) :
    SelectItem.read index item = .error (.emptyItem index) := by
  have htrim : trim item = [] := by
    rw [trim, trimStart, List.dropWhile_eq_nil_iff.2 hblank]
    rfl
  rw [SelectItem.read, htrim]
  rfl

/-- The items in front of an item of blanks are read, and then that item fails. -/
theorem readItems_of_blank (hblank : ∀ c ∈ item, isBlank c = true) (list rest : List (List Char)) :
    readItems index (list ++ item :: rest) =
      readItems index list >>= fun _ => .error (.emptyItem (index + list.length)) := by
  induction list generalizing index with
  | nil =>
    rw [List.nil_append, readItems, readItems, read_of_blank hblank]
    rfl
  | cons first list ih =>
    rw [List.cons_append, readItems, readItems, ih, List.length_cons, Nat.add_assoc, Nat.add_comm 1]
    cases SelectItem.read index first with
    | error e => rfl
    | ok item => cases readItems (index + 1) list <;> rfl

/-! ## The clause with the space -/

/-- The space makes no `FROM` that counts of the words around it. -/
structure MakesNoFrom (left right : List Char) : Prop where
  before : ∀ init b word, left = init ++ b :: word → isBlank b = true → ¬ SpellsFrom word
  behind : afterFrom? right = none

/-- A `FROM` in front of the space would be a word of the text. -/
theorem NoFrom.makesNoFrom (h : NoFrom left) (hright : afterFrom? right = none) :
    MakesNoFrom left right := by
  refine ⟨fun init b word hsplit hblank hspells => h word ?_ hspells, hright⟩
  rw [hsplit, words_append hblank,
    words_of_isWordText (hspells.isWordText isAsciiLetter_from (by simp))]
  simp

/-- With the space, the list still ends at the same `FROM`. -/
theorem not_fromAt_insert (h : ∀ init c rest, left ++ right = init ++ c :: rest →
      ¬ FromAt (c :: rest ++ tail)) (hfrom : MakesNoFrom left (right ++ tail)) :
    ∀ init c rest, left ++ ' ' :: right = init ++ c :: rest → ¬ FromAt (c :: rest ++ tail) := by
  have hself : ¬ FromAt (' ' :: right ++ tail) := by
    rw [List.cons_append, fromAt_cons, hfrom.behind]
    exact fun hat => absurd hat.2 (by decide)
  intro init c rest hsplit hat
  rcases List.append_eq_append_iff.1 hsplit with ⟨between, rfl, hrest⟩ | ⟨between, rfl, hrest⟩
  · cases between with
    | nil =>
      obtain ⟨rfl, rfl⟩ := List.cons.inj hrest
      exact hself hat
    | cons d between =>
      obtain ⟨rfl, rfl⟩ := List.cons.inj hrest
      exact h (left ++ between) c rest (by simp) hat
  · cases between with
    | nil =>
      obtain ⟨rfl, rfl⟩ := List.cons.inj hrest
      exact hself hat
    | cons d between =>
      rw [List.cons_append, List.cons.injEq] at hrest
      obtain ⟨rfl, rfl⟩ := hrest
      rw [List.cons_append, fromAt_cons, List.append_assoc] at hat
      obtain ⟨hblank, hat⟩ := hat
      obtain ⟨word, e, after, htext, hspells, he⟩ := isSome_afterFrom?_iff.1 hat
      -- the keyword ends in front of the space: it is not cut there, and it has no space in it
      rcases List.append_eq_append_iff.1 htext with ⟨more, rfl, hmore⟩ | ⟨more, rfl, hmore⟩
      · cases more with
        | nil =>
          rw [List.append_nil] at hspells
          exact hfrom.before init c between rfl hblank hspells
        | cons f more =>
          obtain ⟨rfl, -⟩ := List.cons.inj hmore
          have hletter := hspells.isWord isAsciiLetter_from ' ' (by simp)
          rw [isWord_of_isBlank isBlank_space] at hletter
          cases hletter
      · cases more with
        | nil =>
          rw [List.append_nil] at hfrom
          exact hfrom.before init c word rfl hblank hspells
        | cons f more =>
          obtain ⟨rfl, -⟩ := List.cons.inj hmore
          refine h init c (word ++ e :: (more ++ right)) (by simp) (fromAt_cons.2 ⟨hblank, ?_⟩)
          exact isSome_afterFrom?_iff.2 ⟨word, e, more ++ right ++ tail, by simp, hspells, he⟩

/-- The clause with a space in its list. -/
def SelectClause.insertSpace (clause : SelectClause) (left right : List Char) : SelectClause :=
  { clause with list := left ++ ' ' :: right }

theorem IsClause.insertSpace (h : IsClause clause) (hlist : clause.list = left ++ right)
    (hleft : left ≠ []) (hfrom : MakesNoFrom left (right ++ clause.tail)) :
    IsClause (clause.insertSpace left right) := by
  obtain ⟨c, cs, rfl⟩ := List.exists_cons_of_ne_nil hleft
  have hstart := h.startsWord
  rw [hlist] at hstart
  exact ⟨h.head, hstart, h.tail, not_fromAt_insert (hlist ▸ h.first) hfrom⟩

/-! ## Compiling with the space -/

/-- What compiling finds, apart from the text to send. -/
def CompiledQuery.found (q : CompiledQuery) : Source × List Column := (q.source, q.columns)

/-- Compiling a query without placeholders reads the select list, and then the resource. -/
theorem map_found_compile (hbrace : '{' ∉ stripComments text) :
    (compile s parameters text).map CompiledQuery.found =
      selectItems (stripComments text) >>= fun selected =>
        match firstRepeated? [] (selected.map SelectItem.columnName) with
        | some (name, index) => .error (.duplicateColumn name index)
        | none => source s (stripComments text) >>= fun source =>
          columns s selected >>= fun columns => .ok (source, columns) := by
  simp only [compile, normalize_of_not_mem hbrace]
  cases selectItems (stripComments text) with
  | error e => rfl
  | ok selected =>
    dsimp only [bind, Except.bind]
    cases firstRepeated? [] (selected.map SelectItem.columnName) with
    | some found => rfl
    | none =>
      cases source s (stripComments text) with
      | error e => rfl
      | ok source => cases columns s selected <;> rfl

theorem selectItems_of_clause (h : selectClause? query = some clause)
    (hne : items clause.list ≠ []) : selectItems query = readItems 0 (items clause.list) := by
  rw [selectItems, h]
  dsimp only
  split
  · next hnil => exact absurd hnil hne
  · rfl

/-- Lists with the same items but for the blanks around them are read alike. -/
theorem selectItems_eq_of_trim {other : List Char} {clause' : SelectClause}
    (h : selectClause? query = some clause) (h' : selectClause? other = some clause')
    (htrim : (items clause.list).map trim = (items clause'.list).map trim) :
    selectItems query = selectItems other := by
  by_cases hnil : items clause.list = []
  · rw [hnil, List.map_nil, eq_comm, List.map_eq_nil_iff] at htrim
    rw [selectItems, selectItems, h, h']
    simp only [hnil, htrim]
  · have hne : items clause'.list ≠ [] := by
      rintro hnil'
      rw [hnil', List.map_nil, List.map_eq_nil_iff] at htrim
      exact hnil htrim
    rw [selectItems_of_clause h hnil, selectItems_of_clause h' hne, readItems_eq_of_trim htrim]

/-- The query of a clause, with the space. -/
theorem selectClause?_insertSpace (h : IsClause clause) (hlist : clause.list = left ++ right)
    (hleft : left ≠ []) (hfrom : MakesNoFrom left (right ++ clause.tail)) :
    selectClause? (clause.head ++ left ++ ' ' :: (right ++ clause.tail)) =
      some (clause.insertSpace left right) :=
  selectClause?_eq_some.2 ⟨by simp [SelectClause.insertSpace], h.insertSpace hlist hleft hfrom⟩

theorem resourceWord?_of_clause (h : selectClause? query = some clause) :
    resourceWord? query = resourceWord? clause.tail := by
  obtain ⟨hquery, hisClause⟩ := selectClause?_eq_some.1 h
  rw [hquery, hisClause.resourceWord?_eq]

/-- **A space at a comma** does not count. Next to another space it goes with the comments; else it
stays, and belongs to an item. -/
theorem map_found_insert_space (hbare : stripComments query = query) (hbrace : '{' ∉ query)
    (hclause : selectClause? query = some clause) (hlist : clause.list = left ++ right)
    (hcomma : AtComma left right) (hitem : right.head? = some ',' → ∃ c ∈ left.getLast?, c ≠ ',')
    (hfrom : MakesNoFrom left (right ++ clause.tail)) :
    (compile s parameters (clause.head ++ left ++ ' ' :: (right ++ clause.tail))).map
      CompiledQuery.found = (compile s parameters query).map CompiledQuery.found := by
  obtain ⟨hquery, hisClause⟩ := selectClause?_eq_some.1 hclause
  have hsplit : query = clause.head ++ left ++ (right ++ clause.tail) := by
    rw [hquery, hlist]
    simp
  have hisBare : IsBare (clause.head ++ left ++ (right ++ clause.tail)) :=
    hsplit ▸ stripComments_eq_self_iff.1 hbare
  have hleft : left ≠ [] := by
    rintro rfl
    obtain ⟨c, hc, -⟩ := hitem (hcomma.comma.resolve_left (by simp))
    cases hc
  have hfront : clause.head ++ left ≠ [] := List.append_ne_nil_of_right_ne_nil _ hleft
  by_cases hblank : (clause.head ++ left).getLast? = some ' ' ∨
      (right ++ clause.tail).head? = some ' '
  · have hstrip := hisBare.stripComments_insert_space hfront hblank
    rw [← hsplit] at hstrip
    rw [map_found_compile (by rwa [hstrip]), map_found_compile (by rwa [hbare]), hstrip, hbare]
  · rw [not_or] at hblank
    have hright : right ≠ [] := by
      rintro rfl
      obtain ⟨b, rest, htail, hb, -⟩ := hisClause.tail
      have hspace := hisBare.blank b (by simp [htail]) hb
      exact hblank.2 (by simp [htail, hspace])
    have hstrip := stripComments_of_isBare (hisBare.insert_space hfront
      (List.append_ne_nil_of_left_ne_nil hright _) hblank.1 hblank.2)
    have hbrace' : '{' ∉ clause.head ++ left ++ ' ' :: (right ++ clause.tail) := by
      rw [hsplit] at hbrace
      simpa using hbrace
    have hnew := selectClause?_insertSpace hisClause hlist hleft hfrom
    have hselected := selectItems_eq_of_trim hnew hclause
      (hlist ▸ map_trim_items_insert hcomma hitem hright)
    rw [map_found_compile (by rwa [hstrip]), map_found_compile (by rwa [hbare]), hstrip, hbare,
      hselected, source, source, resourceWord?_of_clause hnew, resourceWord?_of_clause hclause]
    rfl

/-- **An item of blanks** is an error, once the items in front of it are read. -/
theorem compile_of_gap (hbare : stripComments query = query) (hbrace : '{' ∉ query)
    (hclause : selectClause? query = some clause)
    (hlist : clause.list = left ++ ',' :: (gap ++ ',' :: right)) (hdepth : depthBehind 0 left = 0)
    (hne : gap ≠ []) (hgap : ∀ c ∈ gap, isBlank c = true) :
    compile s parameters query =
      readItems 0 (items left) >>= fun _ => .error (.emptyItem (items left).length) := by
  have hitems : items clause.list = items left ++ gap :: items right := by
    rw [hlist, items_append_gap hdepth hne hgap]
  have hselected := selectItems_of_clause hclause (by simp [hitems])
  rw [hitems, readItems_of_blank hgap, Nat.zero_add] at hselected
  simp only [compile, hbare, normalize_of_not_mem hbrace, hselected]
  cases readItems 0 (items left) <;> rfl

/-- **Spaces around commas do not count.** Into a query without comments and placeholders, a space
may be put in front of a comma of the select list, or behind it, if the item that it goes into has a
character and the space makes no `FROM` that counts. Compiling finds the same resource and the same
columns then, or has the same error. An item of blanks between two commas is an error, unless an
item in front of it is one. -/
theorem compile_insert_space (s : Schema) (parameters : Entries String) (query : List Char)
    (clause : SelectClause) (hbare : stripComments query = query) (hbrace : '{' ∉ query)
    (hclause : selectClause? query = some clause) :
    (∀ left right, clause.list = left ++ right → AtComma left right →
      (right.head? = some ',' → ∃ c ∈ left.getLast?, c ≠ ',') →
      MakesNoFrom left (right ++ clause.tail) →
      (compile s parameters (clause.head ++ left ++ ' ' :: (right ++ clause.tail))).map
        CompiledQuery.found = (compile s parameters query).map CompiledQuery.found) ∧
    ∀ left gap right, clause.list = left ++ ',' :: (gap ++ ',' :: right) →
      depthBehind 0 left = 0 → gap ≠ [] → (∀ c ∈ gap, isBlank c = true) →
      compile s parameters query =
        readItems 0 (items left) >>= fun _ => .error (.emptyItem (items left).length) :=
  ⟨fun _ _ hlist hcomma hitem hfrom =>
      map_found_insert_space hbare hbrace hclause hlist hcomma hitem hfrom,
    fun _ _ _ hlist hdepth hne hgap => compile_of_gap hbare hbrace hclause hlist hdepth hne hgap⟩

/-- A space in front of the comma between two fields, and an item of blanks between them. -/
theorem compile_insert_space_sample :
    (compile .sample [] "SELECT campaign.id ,campaign.name FROM campaign".toList).map
        CompiledQuery.found =
      (compile .sample [] "SELECT campaign.id,campaign.name FROM campaign".toList).map
        CompiledQuery.found ∧
      compile .sample [] "SELECT campaign.id, ,campaign.name FROM campaign".toList =
        .error (.emptyItem 1) := by
  obtain ⟨hspace, -⟩ := compile_insert_space .sample []
    "SELECT campaign.id,campaign.name FROM campaign".toList
    ⟨"SELECT".toList, " campaign.id,campaign.name".toList, " FROM campaign".toList⟩
    (by decide +kernel) (by decide +kernel) (by decide +kernel)
  obtain ⟨-, hgap⟩ := compile_insert_space .sample []
    "SELECT campaign.id, ,campaign.name FROM campaign".toList
    ⟨"SELECT".toList, " campaign.id, ,campaign.name".toList, " FROM campaign".toList⟩
    (by decide +kernel) (by decide +kernel) (by decide +kernel)
  have hplace : AtComma " campaign.id".toList ",campaign.name".toList :=
    ⟨by decide +kernel, .inr (by decide +kernel)⟩
  have hnoFrom : NoFrom " campaign.id".toList := by
    have hwords : words " campaign.id".toList = ["campaign.id".toList] := by decide +kernel
    intro word hword hspells
    rw [hwords, List.mem_singleton] at hword
    have hlength := hspells.length_eq
    rw [hword] at hlength
    revert hlength
    decide +kernel
  have hread : readItems 0 (items " campaign.id".toList) = .ok [⟨"campaign.id", none, none⟩] := by
    decide +kernel
  have hcount : (items " campaign.id".toList).length = 1 := by decide +kernel
  refine ⟨hspace " campaign.id".toList ",campaign.name".toList (by decide +kernel) hplace
    (fun _ => ⟨'d', by decide +kernel, by decide⟩) (hnoFrom.makesNoFrom (by decide +kernel)), ?_⟩
  have h := hgap " campaign.id".toList [' '] "campaign.name".toList (by decide +kernel)
    (by decide +kernel) (by simp) (List.forall_mem_singleton.2 isBlank_space)
  rw [h, hread, hcount]
  rfl

/-- The first space makes a `FROM` of the label of a column, and the list ends there. The second one
makes an item of what was no item. -/
theorem compile_insert_space_fails :
    (stripComments "SELECT campaign.id AS from, campaign.name FROM campaign".toList =
        "SELECT campaign.id AS from, campaign.name FROM campaign".toList ∧
      selectClause? "SELECT campaign.id AS from, campaign.name FROM campaign".toList =
        some ⟨"SELECT".toList, " campaign.id AS from".toList ++ ", campaign.name".toList,
          " FROM campaign".toList⟩ ∧
      AtComma " campaign.id AS from".toList ", campaign.name".toList ∧
      (compile .sample []
        "SELECT campaign.id AS from, campaign.name FROM campaign".toList).toOption.map
          (fun q => q.columns.map Column.name) = some ["from", "campaign.name"] ∧
      (compile .sample []
        "SELECT campaign.id AS from , campaign.name FROM campaign".toList).toOption.isNone) ∧
    (stripComments "SELECT campaign.id,, campaign.name FROM campaign".toList =
        "SELECT campaign.id,, campaign.name FROM campaign".toList ∧
      selectClause? "SELECT campaign.id,, campaign.name FROM campaign".toList =
        some ⟨"SELECT".toList, " campaign.id,".toList ++ ", campaign.name".toList,
          " FROM campaign".toList⟩ ∧
      AtComma " campaign.id,".toList ", campaign.name".toList ∧
      (compile .sample []
        "SELECT campaign.id,, campaign.name FROM campaign".toList).toOption.map
          (fun q => q.columns.map Column.name) = some ["campaign.id", "campaign.name"] ∧
      (compile .sample []
        "SELECT campaign.id, , campaign.name FROM campaign".toList).toOption.isNone) := by
  refine ⟨⟨by decide +kernel, by decide +kernel, ⟨by decide +kernel, .inr (by decide +kernel)⟩,
      by decide +kernel, by decide +kernel⟩,
    ⟨by decide +kernel, by decide +kernel, ⟨by decide +kernel, .inr (by decide +kernel)⟩,
      by decide +kernel, by decide +kernel⟩⟩

end ReportQuery.Query
