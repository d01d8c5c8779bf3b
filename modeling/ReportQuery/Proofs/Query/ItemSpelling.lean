import ReportQuery.Proofs.Query.Columns
import ReportQuery.Proofs.Text.Integer
import ReportQuery.Proofs.Text.Lower
import ReportQuery.Proofs.Text.Split
import ReportQuery.Proofs.Text.Words
/-!
# What an item is spelled with

An item that is read gives a field, a customizer and a label. Its own characters, blanks aside,
are those of the three in this order, with whatever follows a mark that has been met before
passed over (`exists_further_of_read`). So an item spells what is read from it just if no mark is
met twice (`read_spelled_iff`): a second `~`, a second `:` or a second ` as ` is no error, and
what it leads is lost (`read_spelled_fails`).
-/

namespace ReportQuery.Query

open Text Outcome

variable {c : Char} {text left right item expression field further : List Char}
variable {customizer : Option Customizer} {parsed : SelectItem} {index : Nat}

/-! ## Texts without blanks -/

/-- A text without its blanks. -/
def unspaced (text : List Char) : List Char := text.filter fun c => !isBlank c

theorem unspaced_append (left right : List Char) :
    unspaced (left ++ right) = unspaced left ++ unspaced right := List.filter_append ..

theorem unspaced_cons (hc : isBlank c = false) : unspaced (c :: text) = c :: unspaced text := by
  unfold unspaced
  rw [List.filter_cons, hc]
  rfl

theorem unspaced_of_blank (h : ∀ c ∈ text, isBlank c = true) : unspaced text = [] :=
  List.filter_eq_nil_iff.2 fun c hc => by simp [h c hc]

/-- Only blanks are trimmed. -/
theorem unspaced_trim (text : List Char) : unspaced (trim text) = unspaced text := by
  obtain ⟨start, hstart, hleft⟩ := exists_gap_trimStart text
  obtain ⟨stop, hstop, hright⟩ := exists_gap_trimEnd (trimStart text)
  have htrim : text = start ++ (trim text ++ stop) := hleft.trans (congrArg _ hright)
  conv_rhs => rw [htrim]
  rw [unspaced_append, unspaced_append, unspaced_of_blank hstart, unspaced_of_blank hstop,
    List.nil_append, List.append_nil]

theorem isBlank_of_trim_eq_nil (h : trim text = []) : ∀ c ∈ text, isBlank c = true := by
  intro c hc
  by_contra hblank
  have hmem := mem_trim hc (by simpa using hblank)
  rw [h] at hmem
  cases hmem

/-- A literal has no blank in it. -/
theorem unspaced_of_isLiteral {i : Int} (h : IsLiteral text i) : unspaced text = text := by
  refine List.filter_eq_self.2 fun c hc => ?_
  have hchar := h.chars c hc
  unfold isLiteralChar at hchar
  cases hblank : isBlank c with
  | false => rfl
  | true =>
    -- digits are word characters, and the signs are no blanks
    have hword := isWord_of_isBlank hblank
    simp only [Bool.or_eq_true, decide_eq_true_eq] at hchar
    rcases hchar with (hdigit | rfl) | rfl
    · have hascii := of_decide_eq_true (isAscii_of_isDigit hdigit)
      rw [isWord, if_pos hascii, hdigit] at hword
      simp at hword
    · exact absurd hblank (by decide)
    · exact absurd hblank (by decide)

/-! ## Spellings -/

/-- How a customizer is spelled, without blanks. -/
inductive SpellsCustomizer : Option Customizer → List Char → Prop
  | none : SpellsCustomizer none []
  | index {i : Int64} {literal : List Char} (h : IsLiteral literal i.toInt) :
      SpellsCustomizer (some (.resourceIndex i)) ('~' :: literal)
  | path (path : String) :
      SpellsCustomizer (some (.nestedField path)) (':' :: unspaced path.toList)

/-- How a label is spelled, without blanks. -/
def labelSpelling : Option String → List Char
  | none => []
  | some label => 'a' :: 's' :: unspaced label.toList

/-- A text spells what is read from an item: the field, the customizer and the label, and nothing
more. -/
def SpellsItem (parsed : SelectItem) (text : List Char) : Prop :=
  ∃ customizer, SpellsCustomizer parsed.customizer customizer ∧
    text = unspaced parsed.field.toList ++ customizer ++ labelSpelling parsed.label

/-- What leads a label. -/
abbrev labelMark : List Char := [' ', 'a', 's', ' ']

/-- No mark of an item is met a second time: no ` as ` after the first, no `~` after a `~` in the
expression before the label, and no `:` after a `:` in an expression without `~`. -/
structure OnceMarked (item : List Char) : Prop where
  label : ∀ before after, cut? labelMark item = some (before, after) → ¬ labelMark <:+: after
  index : (splitLabel item).1.count '~' ≤ 1
  path : '~' ∉ (splitLabel item).1 → (splitLabel item).1.count ':' ≤ 1

/-! ## Customizers -/

/-- How an expression is cut into a field, a customizer, and what follows a second mark. -/
inductive IsCut (expression : List Char) :
    (field : List Char) → (customizer : Option Customizer) → (further : List Char) → Prop
  | index {field argument further : List Char} {i : Int64}
      (text : expression = field ++ '~' :: (argument ++ further))
      (field_plain : '~' ∉ field) (argument_plain : '~' ∉ argument)
      (literal : IsLiteral (trim argument) i.toInt)
      (mark : further = [] ∨ ∃ rest, further = '~' :: rest) :
      IsCut expression field (some (.resourceIndex i)) further
  | path {field argument further : List Char} (plain : '~' ∉ expression)
      (text : expression = field ++ ':' :: (argument ++ further))
      (field_plain : ':' ∉ field) (argument_plain : ':' ∉ argument)
      (mark : further = [] ∨ ∃ rest, further = ':' :: rest) :
      IsCut expression field (some (.nestedField (String.ofList (trim argument)))) further
  | plain (index : '~' ∉ expression) (path : ':' ∉ expression) :
      IsCut expression expression none []

/-- **Every expression that is read is cut so.** -/
theorem exists_isCut (h : splitCustomizer expression = .ok (field, customizer)) :
    ∃ further, IsCut expression field customizer further := by
  unfold splitCustomizer at h
  split at h
  · next first argument rest hcells =>
    obtain ⟨hfirst, hargument, further, htext, hmark⟩ := eq_of_cells hcells
    split at h
    · next i hread =>
      cases h
      exact ⟨further, .index htext hfirst hargument (readInt64?_eq_some.1 hread) hmark⟩
    · cases h
  · next htilde =>
    -- an expression with a single cell has no mark
    have hsingle (sep : Char) (hcells : ∀ first second rest,
        cells sep expression = first :: second :: rest → False) : sep ∉ expression := by
      obtain ⟨first, rest, hcons⟩ := List.exists_cons_of_ne_nil (cells_ne_nil sep expression)
      cases rest with
      | nil => exact not_mem_of_cells hcons
      | cons second rest => exact absurd hcons (hcells first second rest)
    have hplain := hsingle '~' htilde
    split at h
    · next first argument rest hcells =>
      obtain ⟨hfirst, hargument, further, htext, hmark⟩ := eq_of_cells hcells
      dsimp only at h
      split at h
      · cases h
      · cases h
        exact ⟨further, .path hplain htext hfirst hargument hmark⟩
    · next hcolon =>
      cases h
      exact ⟨[], .plain hplain (hsingle ':' hcolon)⟩

namespace IsCut

/-- What an expression is spelled with. -/
theorem exists_spelling (h : IsCut expression field customizer further) :
    ∃ spelling, SpellsCustomizer customizer spelling ∧
      unspaced expression = unspaced field ++ spelling ++ unspaced further := by
  cases h with
  | index htext _ _ hliteral _ =>
    refine ⟨_, .index hliteral, ?_⟩
    have hargument := unspaced_of_isLiteral hliteral
    rw [unspaced_trim] at hargument
    rw [htext, unspaced_append, unspaced_cons (by decide), unspaced_append, hargument]
    simp
  | path _ htext _ _ _ =>
    refine ⟨_, .path _, ?_⟩
    rw [htext, unspaced_append, unspaced_cons (by decide), unspaced_append, String.toList_ofList,
      unspaced_trim]
    simp
  | plain _ _ => exact ⟨[], .none, by simp [unspaced]⟩

/-- What follows a second mark starts with it. -/
theorem head_further (h : IsCut expression field customizer further) :
    ∀ c ∈ further.head?, c = '~' ∨ c = ':' := by
  have hmark (mark : Char) (h : further = [] ∨ ∃ rest, further = mark :: rest) :
      ∀ c ∈ further.head?, c = mark := by
    rcases h with rfl | ⟨rest, rfl⟩
    · simp
    · simp
  intro c hc
  cases h with
  | index _ _ _ _ hfurther => exact .inl (hmark '~' hfurther c hc)
  | path _ _ _ _ hfurther => exact .inr (hmark ':' hfurther c hc)
  | plain _ _ => cases hc

/-- **Nothing follows a second mark just if there is none.** -/
theorem further_eq_nil_iff (h : IsCut expression field customizer further) :
    further = [] ↔ expression.count '~' ≤ 1 ∧ ('~' ∉ expression → expression.count ':' ≤ 1) := by
  have hcount (mark : Char) {argument : List Char}
      (htext : expression = field ++ mark :: (argument ++ further)) (hfield : mark ∉ field)
      (hargument : mark ∉ argument) (hmark : further = [] ∨ ∃ rest, further = mark :: rest) :
      further = [] ↔ expression.count mark ≤ 1 := by
    have hfieldCount := List.count_eq_zero_of_not_mem hfield
    have hargumentCount := List.count_eq_zero_of_not_mem hargument
    rw [htext, List.count_append, List.count_cons_self, List.count_append]
    rcases hmark with rfl | ⟨rest, rfl⟩
    · rw [List.count_nil]
      exact ⟨fun _ => by omega, fun _ => rfl⟩
    · rw [List.count_cons_self]
      exact ⟨fun hnil => absurd hnil (List.cons_ne_nil _ _), fun hle => by omega⟩
  cases h with
  | index htext hfield hargument _ hmark =>
    have hmem : '~' ∈ expression := by rw [htext]; simp
    rw [hcount '~' htext hfield hargument hmark]
    exact ⟨fun hle => ⟨hle, fun hplain => absurd hmem hplain⟩, fun hle => hle.1⟩
  | path hplain htext hfield hargument hmark =>
    have hzero := List.count_eq_zero_of_not_mem hplain
    rw [hcount ':' htext hfield hargument hmark]
    exact ⟨fun hle => ⟨by omega, fun _ => hle⟩, fun hle => hle.2 hplain⟩
  | plain hindex hpath =>
    have hindexCount := List.count_eq_zero_of_not_mem hindex
    have hpathCount := List.count_eq_zero_of_not_mem hpath
    exact ⟨fun _ => ⟨by omega, fun _ => by omega⟩, fun _ => rfl⟩

end IsCut

/-! ## Labels -/

/-- A text that does not end with a blank has more than blanks behind a mark. -/
theorem trim_ne_nil_of_labelMark {rest : List Char}
    (hlast : ∀ c ∈ (left ++ (labelMark ++ rest)).getLast?, isBlank c = false) : trim rest ≠ [] := by
  intro hnil
  have hblank := isBlank_of_trim_eq_nil hnil
  rcases rest.eq_nil_or_concat' with rfl | ⟨init, last, rfl⟩
  · have hspace := hlast ' ' (by simp [List.getLast?_append])
    exact absurd hspace (by decide)
  · have hend : (left ++ (labelMark ++ (init ++ [last]))).getLast? = some last := by
      rw [← List.append_assoc, ← List.append_assoc, List.getLast?_concat]
    have hplain := hlast last hend
    rw [hblank last (by simp)] at hplain
    cases hplain

/-- What an item is spelled with: the expression, the label, and what a second ` as ` leads. -/
theorem exists_further_label (hlast : ∀ c ∈ item.getLast?, isBlank c = false) :
    ∃ further, unspaced item = unspaced (splitLabel item).1 ++
        labelSpelling ((splitLabel item).2.map String.ofList) ++ further ∧
      (further = [] ↔ ∀ before after, cut? labelMark item = some (before, after) →
        ¬ labelMark <:+: after) ∧
      ∀ c ∈ further.head?, c = 'a' := by
  have hmark (rest : List Char) :
      unspaced (labelMark ++ rest) = 'a' :: 's' :: unspaced rest := by
    rw [unspaced_append]
    rfl
  unfold splitLabel
  cases hcut : cut? labelMark item with
  | none => exact ⟨[], by simp [labelSpelling], by simp, by simp⟩
  | some parts =>
    obtain ⟨expression, rest⟩ := parts
    have htext : item = expression ++ (labelMark ++ rest) := eq_of_cut? hcut
    have hexpression : unspaced item = unspaced expression ++ 'a' :: 's' :: unspaced rest := by
      rw [htext, unspaced_append, hmark]
    have honce : (∀ before after, some (expression, rest) = some (before, after) →
        ¬ labelMark <:+: after) ↔ ¬ labelMark <:+: rest := by simp
    rw [honce]
    dsimp only
    cases hagain : cut? labelMark rest with
    | none =>
      have hne : trim rest ≠ [] := trim_ne_nil_of_labelMark (htext ▸ hlast)
      refine ⟨[], ?_, iff_of_true rfl (cut?_eq_none.1 hagain), by simp⟩
      simp only [if_neg hne, Option.map_some, labelSpelling, String.toList_ofList, unspaced_trim]
      rw [hexpression, List.append_nil]
    | some parts =>
      obtain ⟨name, after⟩ := parts
      have hrest : rest = name ++ (labelMark ++ after) := eq_of_cut? hagain
      have hoccurs : labelMark <:+: rest := ⟨name, after, by rw [hrest, List.append_assoc]⟩
      have hname : unspaced rest = unspaced name ++ 'a' :: 's' :: unspaced after := by
        rw [hrest, unspaced_append, hmark]
      dsimp only
      by_cases hblank : trim name = []
      · -- a blank label is none, and all that follows the expression is passed over
        refine ⟨'a' :: 's' :: unspaced rest, ?_,
          iff_of_false (List.cons_ne_nil _ _) (not_not_intro hoccurs), by simp⟩
        simp only [if_pos hblank, Option.map_none, labelSpelling]
        rw [hexpression, List.append_nil]
      · refine ⟨'a' :: 's' :: unspaced after, ?_,
          iff_of_false (List.cons_ne_nil _ _) (not_not_intro hoccurs), by simp⟩
        simp only [if_neg hblank, Option.map_some, labelSpelling, String.toList_ofList, unspaced_trim]
        rw [hexpression, hname]
        simp

/-! ## Items -/

/-- A run of literal characters in front of what does not go on with one ends there. -/
theorem eq_of_literals {left' right' : List Char} (hleft : ∀ c ∈ left, isLiteralChar c = true)
    (hright : ∀ c ∈ right.head?, isLiteralChar c = false)
    (hleft' : ∀ c ∈ left', isLiteralChar c = true)
    (hright' : ∀ c ∈ right'.head?, isLiteralChar c = false) (h : left ++ right = left' ++ right') :
    right = right' := by
  have hdrop (rest : List Char) (hrest : ∀ c ∈ rest.head?, isLiteralChar c = false) :
      rest.dropWhile isLiteralChar = rest := by
    cases rest with
    | nil => rfl
    | cons c cs => exact List.dropWhile_cons_of_neg (by simp [hrest c rfl])
  have hboth := congrArg (List.dropWhile isLiteralChar) h
  rwa [List.dropWhile_append_of_pos hleft, List.dropWhile_append_of_pos hleft', hdrop right hright,
    hdrop right' hright'] at hboth

namespace IsCut

/-- What follows a second mark is not lost with the blanks, and does not go on with a literal. -/
theorem head_unspaced (h : IsCut expression field customizer further) :
    (unspaced further = [] ↔ further = []) ∧
      ∀ c ∈ (unspaced further).head?, isLiteralChar c = false := by
  cases further with
  | nil => exact ⟨by simp [unspaced], by simp [unspaced]⟩
  | cons c cs =>
    have hmark : c = '~' ∨ c = ':' := h.head_further c rfl
    have hchar : isBlank c = false ∧ isLiteralChar c = false := by
      rcases hmark with rfl | rfl <;> decide
    rw [unspaced_cons hchar.1]
    refine ⟨by simp, fun d hd => ?_⟩
    cases hd
    exact hchar.2

end IsCut

/-- **What an item is spelled with**: the field, the customizer and the label that are read from
it, with what follows a second mark after the customizer and after the label. -/
theorem exists_further_of_read (h : SelectItem.read index item = .ok parsed) :
    ∃ customizer further more, SpellsCustomizer parsed.customizer customizer ∧
      unspaced (lower (trim item)) = unspaced parsed.field.toList ++ (customizer ++ (further ++
        (labelSpelling parsed.label ++ more))) ∧
      (further = [] ∧ more = [] ↔ OnceMarked (lower (trim item))) ∧
      ∀ c ∈ (further ++ (labelSpelling parsed.label ++ more)).head?, isLiteralChar c = false := by
  obtain ⟨expression, label, field, hsplit, hcustomizer, -, hfield, hlabel⟩ := read_eq_ok h
  have hlast : ∀ c ∈ (lower (trim item)).getLast?, isBlank c = false :=
    getLast?_lower (isTrimmed_trim item).2
  obtain ⟨more, hspelled, hmore, hhead⟩ := exists_further_label hlast
  obtain ⟨further, hcut⟩ := exists_isCut hcustomizer
  obtain ⟨spelling, hspelling, hexpression⟩ := hcut.exists_spelling
  obtain ⟨hnil, hfurther⟩ := hcut.head_unspaced
  have hmarks := hcut.further_eq_nil_iff
  rw [hsplit, ← hlabel] at hspelled
  have honce : unspaced further = [] ∧ more = [] ↔ OnceMarked (lower (trim item)) := by
    rw [hnil, hmarks, hmore]
    constructor
    · rintro ⟨⟨hindex, hpath⟩, hsecond⟩
      exact ⟨hsecond, by rw [hsplit]; exact hindex, by rw [hsplit]; exact hpath⟩
    · rintro ⟨hsecond, hindex, hpath⟩
      rw [hsplit] at hindex hpath
      exact ⟨⟨hindex, hpath⟩, hsecond⟩
  refine ⟨spelling, unspaced further, more, hspelling, ?_, honce, ?_⟩
  · rw [hspelled, hexpression, hfield, String.toList_ofList, unspaced_trim]
    simp only [List.append_assoc]
  · -- a second mark, the mark of a label and a second one of these are no literal characters
    intro c hc
    cases hcons : unspaced further with
    | cons d ds =>
      rw [hcons] at hc hfurther
      cases hc
      exact hfurther c rfl
    | nil =>
      rw [hcons, List.nil_append] at hc
      have ha : c = 'a' := by
        cases hparsed : parsed.label with
        | none =>
          rw [hparsed] at hc
          exact hhead c hc
        | some name =>
          rw [hparsed] at hc
          cases hc
          rfl
      rw [ha]
      decide

/-- **An item spells what is read from it just if no mark is met twice.** -/
theorem spellsItem_iff (h : SelectItem.read index item = .ok parsed) :
    SpellsItem parsed (unspaced (lower (trim item))) ↔ OnceMarked (lower (trim item)) := by
  obtain ⟨customizer, further, more, hcustomizer, htext, honce, hhead⟩ := exists_further_of_read h
  rw [← honce]
  constructor
  · rintro ⟨customizer', hcustomizer', htext'⟩
    rw [htext, List.append_assoc] at htext'
    have htail := List.append_cancel_left htext'
    have hlabelHead : ∀ c ∈ (labelSpelling parsed.label).head?, isLiteralChar c = false := by
      cases parsed.label with
      | none => simp [labelSpelling]
      | some name => simp [labelSpelling]; decide
    have hrest : further ++ (labelSpelling parsed.label ++ more) = labelSpelling parsed.label := by
      generalize parsed.customizer = found at hcustomizer hcustomizer'
      cases hcustomizer with
      | none =>
        cases hcustomizer'
        exact htail
      | path path =>
        cases hcustomizer'
        exact List.append_cancel_left htail
      | index hliteral =>
        -- another literal of the index could be as long as what is passed over only by its digits
        cases hcustomizer' with
        | index hliteral' =>
          exact eq_of_literals hliteral.chars hhead hliteral'.chars hlabelHead (List.cons.inj htail).2
    have hlength := congrArg List.length hrest
    rw [List.length_append, List.length_append] at hlength
    exact ⟨List.length_eq_zero_iff.1 (by omega), List.length_eq_zero_iff.1 (by omega)⟩
  · rintro ⟨rfl, rfl⟩
    refine ⟨customizer, hcustomizer, ?_⟩
    rw [htext, List.nil_append, List.append_nil, List.append_assoc]

/-- **What is read and what is passed over.** The characters of an item that is read, blanks aside,
are those of its field, its customizer and its label, with what a second mark leads after
the customizer and after the label. Nothing is passed over just if no mark is met twice, and
just then the item spells what is read. -/
theorem read_spelled_iff (h : SelectItem.read index item = .ok parsed) :
    (∃ customizer further more, SpellsCustomizer parsed.customizer customizer ∧
      unspaced (lower (trim item)) = unspaced parsed.field.toList ++ (customizer ++ (further ++
        (labelSpelling parsed.label ++ more))) ∧
      (further = [] ∧ more = [] ↔ OnceMarked (lower (trim item)))) ∧
    (SpellsItem parsed (unspaced (lower (trim item))) ↔ OnceMarked (lower (trim item))) := by
  obtain ⟨customizer, further, more, hcustomizer, htext, honce, -⟩ := exists_further_of_read h
  exact ⟨⟨customizer, further, more, hcustomizer, htext, honce⟩, spellsItem_iff h⟩

/-- An item with a customizer, a label, and blanks around its marks spells what is read from it. -/
theorem read_spelled_iff_sample :
    let item := " Campaign.Label ~ -1 AS Last".toList
    let parsed : SelectItem := ⟨"campaign.label", some "last", some (.resourceIndex (-1))⟩
    SelectItem.read 0 item = .ok parsed ∧ SpellsItem parsed (unspaced (lower (trim item))) := by
  intro item parsed
  have hread : SelectItem.read 0 item = .ok parsed :=
    toOption_eq_some.1 (by decide +kernel)
  have hlower : lower (trim item) = "campaign.label ~ -1 as last".toList := by decide +kernel
  have hcut : cut? labelMark "campaign.label ~ -1 as last".toList =
      some ("campaign.label ~ -1".toList, "last".toList) := by decide
  have honce : OnceMarked (lower (trim item)) := by
    rw [hlower]
    refine ⟨fun before after h => ?_, by decide, by decide⟩
    rw [hcut] at h
    cases h
    decide
  exact ⟨hread, (read_spelled_iff hread).2.2 honce⟩

/-- **What a second mark leads is lost.** A second index and a second label are passed over, and
the item is read as if they did not stand in it. -/
theorem read_spelled_fails :
    let twice := "a.b~1~2".toList
    let renamed := "a.b as c as d".toList
    (SelectItem.read 0 twice = .ok ⟨"a.b", none, some (.resourceIndex 1)⟩ ∧
      ¬ SpellsItem ⟨"a.b", none, some (.resourceIndex 1)⟩ (unspaced (lower (trim twice)))) ∧
    SelectItem.read 0 renamed = .ok ⟨"a.b", some "c", none⟩ ∧
      ¬ SpellsItem ⟨"a.b", some "c", none⟩ (unspaced (lower (trim renamed))) := by
  intro twice renamed
  have htwice : SelectItem.read 0 twice = .ok ⟨"a.b", none, some (.resourceIndex 1)⟩ :=
    toOption_eq_some.1 (by decide +kernel)
  have hrenamed : SelectItem.read 0 renamed = .ok ⟨"a.b", some "c", none⟩ :=
    toOption_eq_some.1 (by decide +kernel)
  have hlowerTwice : lower (trim twice) = twice := by decide +kernel
  have hlowerRenamed : lower (trim renamed) = renamed := by decide +kernel
  refine ⟨⟨htwice, fun hspells => ?_⟩, hrenamed, fun hspells => ?_⟩
  · have hindex := ((spellsItem_iff htwice).1 hspells).index
    rw [hlowerTwice] at hindex
    exact absurd hindex (by decide)
  · have hlabel := ((spellsItem_iff hrenamed).1 hspells).label "a.b".toList "c as d".toList
    rw [hlowerRenamed] at hlabel
    exact hlabel (by decide) (by decide)

end ReportQuery.Query
