import ReportQuery.Proofs.Outcome
import ReportQuery.Proofs.Query.Written
/-!
# Written select items

A select item of the documented grammar is a dotted path of at least two segments, a
customizer and an alias. It is read back as it was written (`WrittenItem.read_text`), and
the passes over the select list leave its path (`WrittenItem.plainList_text`). The dot of
the path is what tells an expression from the keywords: no scan takes one for an `AS` or
a `FROM`.
-/

namespace ReportQuery.Query

open Text Outcome

variable {c : Char}

/-- A select item: the row and the path of its field, a customizer and an alias. -/
structure WrittenItem where
  row : Segment
  path : DottedPath
  customizer : Option WrittenCustomizer
  label : Option WrittenLabel

namespace WrittenItem

/-- The path of the field, with the row: it has at least two segments. -/
def field (item : WrittenItem) : List Char := item.row.text ++ '.' :: item.path.text

/-- The path and the customizer, without the alias. -/
def expression (item : WrittenItem) : List Char :=
  item.field ++ item.customizer.elim [] WrittenCustomizer.text

/-- An item as it is written. -/
def text (item : WrittenItem) : List Char :=
  item.expression ++ item.label.elim [] WrittenLabel.text

/-- What is read for an item. -/
def parsed (item : WrittenItem) : SelectItem where
  field := String.ofList item.field
  label := item.label.map fun l => String.ofList l.parsed
  customizer := item.customizer.map WrittenCustomizer.parsed

theorem field_chars (item : WrittenItem) : ∀ c ∈ item.field, isPathChar c = true := by
  intro c hc
  rw [field, List.mem_append, List.mem_cons] at hc
  rcases hc with hc | rfl | hc
  · exact isPathChar_of_isSegmentChar (item.row.chars c hc)
  · decide
  · exact item.path.chars c hc

/-- What an optional part is made of. -/
theorem mem_optional {α : Type} {part : Option α} {f : α → List Char} :
    c ∈ part.elim [] f ↔ ∃ a, part = some a ∧ c ∈ f a := by
  cases part <;> simp

theorem expression_chars (item : WrittenItem) : ∀ c ∈ item.expression, isExpressionChar c = true := by
  intro c hc
  rcases List.mem_append.1 hc with hc | hc
  · exact isExpressionChar_of_isPathChar (item.field_chars c hc)
  · obtain ⟨z, -, hc⟩ := mem_optional.1 hc
    exact z.chars c hc

theorem dot_mem_field (item : WrittenItem) : '.' ∈ item.field := by simp [field]

theorem dot_mem_expression (item : WrittenItem) : '.' ∈ item.expression :=
  List.mem_append_left _ item.dot_mem_field

theorem field_isWordText (item : WrittenItem) : IsWordText item.field :=
  isWordText_of_isExpressionChar (by simp [field]) fun c hc =>
    isExpressionChar_of_isPathChar (item.field_chars c hc)

/-- An expression is a word without comment marks. -/
theorem expression_isPlainWord (item : WrittenItem) : IsPlainWord item.expression := by
  have hchars := item.expression_chars
  have hfield : item.field.count '-' = 0 := List.count_eq_zero.2 <|
    not_mem_of_forall item.field_chars (by decide)
  refine ⟨isWordText_of_isExpressionChar (List.ne_nil_of_mem item.dot_mem_expression) hchars,
    not_mem_of_forall hchars (by decide), ?_⟩
  rw [expression, List.count_append, hfield, Nat.zero_add]
  cases item.customizer with
  | none => exact Nat.zero_le 1
  | some z => exact z.count_dash_le

/-- **An item is laid out**: its words have single spaces between them. -/
theorem isLaid_text (item : WrittenItem) : IsLaid item.text := by
  have hexpression := item.expression_isPlainWord.isLaid
  rw [text]
  cases item.label with
  | none => simpa using hexpression
  | some l => exact hexpression.append (l.isPlainWord_keyword.isLaid.append l.isPlainWord_name.isLaid)

/-- What expressions, words and spaces have not, an item has not. -/
theorem not_mem_text (item : WrittenItem) (hexpression : isExpressionChar c = false)
    (hword : isWord c = false) (hspace : c ≠ ' ') : c ∉ item.text := by
  rw [text, List.mem_append, not_or]
  refine ⟨not_mem_of_forall item.expression_chars hexpression, fun hc => ?_⟩
  obtain ⟨l, -, hc⟩ := mem_optional.1 hc
  have hkeyword : c ∉ l.keyword.text := not_mem_of_forall (l.keyword.spells.isWord (by decide)) hword
  have hname : c ∉ l.name := not_mem_of_forall l.isWord_name hword
  simp [WrittenLabel.text, hspace, hkeyword, hname] at hc

/-- **No word of an item is a `FROM`.** -/
theorem noFrom (item : WrittenItem) : NoFrom (' ' :: item.text) := by
  have hhead : ∀ c ∈ (item.label.elim [] WrittenLabel.text).head?, isBlank c = true := by
    intro c hc
    cases hl : item.label with
    | none =>
      rw [hl] at hc
      cases hc
    | some l =>
      rw [hl] at hc
      cases hc
      decide
  intro word hword hspells
  rw [words_cons (by decide), text,
    words_append_of_head item.expression_isPlainWord.isWordText hhead] at hword
  rcases List.mem_cons.1 hword with rfl | hword
  · exact Spells.not_of_dot item.dot_mem_expression isAsciiLetter_from hspells
  · cases hl : item.label with
    | none =>
      rw [hl] at hword
      cases hword
    | some l =>
      rw [hl] at hword
      exact l.noFrom word hword hspells

theorem noFrom_field (item : WrittenItem) : NoFrom (' ' :: item.field) := by
  intro word hword hspells
  rw [words_cons (by decide), words_of_isWordText item.field_isWordText, List.mem_singleton] at hword
  exact Spells.not_of_dot (hword ▸ item.dot_mem_field) isAsciiLetter_from hspells

/-! ## Reading an item -/

theorem isAscii_text (item : WrittenItem) : ∀ c ∈ item.text, isAscii c = true := by
  intro c hc
  rcases List.mem_append.1 hc with hc | hc
  · exact isAscii_of_isExpressionChar (item.expression_chars c hc)
  · obtain ⟨l, -, hc⟩ := mem_optional.1 hc
    exact l.isAscii_text c hc

/-- In lower case, only the alias changes. -/
theorem lower_text (item : WrittenItem) :
    lower item.text =
      item.expression ++ item.label.elim [] fun l => [' ', 'a', 's', ' '] ++ l.parsed := by
  have hexpression : item.expression.map Char.toLower = item.expression := by
    conv_rhs => rw [← List.map_id item.expression]
    exact List.map_congr_left fun c hc =>
      (isBlank_toLower_of_isExpressionChar (item.expression_chars c hc)).2
  rw [lower_of_isAscii item.isAscii_text, text, List.map_append, hexpression]
  cases item.label with
  | none => rfl
  | some l => simp [WrittenLabel.text, l.keyword.lower, WrittenLabel.parsed]

/-- An item is split into its expression and its alias. -/
theorem splitLabel_lower_text (item : WrittenItem) :
    splitLabel (lower item.text) = (item.expression, item.label.map WrittenLabel.parsed) := by
  have hspace : ' ' ∉ item.expression := not_mem_of_forall item.expression_chars (by decide)
  rw [lower_text]
  cases item.label with
  | none =>
    rw [Option.elim_none, List.append_nil, splitLabel, cut?_of_not_mem hspace]
    rfl
  | some l =>
    have hword := l.isWordText_parsed
    have hcut : cut? [' ', 'a', 's', ' '] (item.expression ++ ([' ', 'a', 's', ' '] ++ l.parsed)) =
        some (item.expression, l.parsed) := cut?_append hspace
    have hname : cut? [' ', 'a', 's', ' '] l.parsed = none :=
      cut?_of_not_mem fun hmem => absurd (hword.2 ' ' hmem) (by decide)
    rw [Option.elim_some, splitLabel, hcut]
    simp only [hname, trim_of_isWordText hword, hword.1, if_false, Option.map_some]

/-- An expression is split into its path and its customizer. -/
theorem splitCustomizer_expression (item : WrittenItem) :
    splitCustomizer item.expression =
      .ok (item.field, item.customizer.map WrittenCustomizer.parsed) := by
  have htilde : '~' ∉ item.field := not_mem_of_forall item.field_chars (by decide)
  have hcolon : ':' ∉ item.field := not_mem_of_forall item.field_chars (by decide)
  rw [expression]
  cases item.customizer with
  | none =>
    rw [Option.elim_none, List.append_nil, splitCustomizer, cells_of_not_mem htilde,
      cells_of_not_mem hcolon]
    rfl
  | some z =>
    rw [Option.elim_some]
    cases z with
    | index i =>
      have hargument : IsWordText (intDigits i.toInt) :=
        isWordText_of_isExpressionChar (intDigits_ne_nil _) fun c hc =>
          WrittenCustomizer.isExpressionChar_of_mem_intDigits hc
      have hdigits : '~' ∉ intDigits i.toInt := fun hmem =>
        absurd (isDigit_or_eq_of_mem_intDigits hmem) (by decide)
      rw [WrittenCustomizer.text, splitCustomizer, cells_append, cells_of_not_mem htilde,
        cells_of_not_mem hdigits]
      simp only [List.singleton_append, trim_of_isWordText hargument, readInt64?_intDigits]
      rfl
    | nested path =>
      have hargument : IsWordText path.text :=
        isWordText_of_isExpressionChar path.ne_nil fun c hc =>
          isExpressionChar_of_isPathChar (path.chars c hc)
      -- without a `~`, the item is read for a `:`
      have hwhole : '~' ∉ item.field ++ ':' :: path.text := by
        have hpath : '~' ∉ path.text := not_mem_of_forall path.chars (by decide)
        simp [htilde, hpath]
      have hpath : ':' ∉ path.text := not_mem_of_forall path.chars (by decide)
      rw [WrittenCustomizer.text, splitCustomizer, cells_of_not_mem hwhole, cells_append,
        cells_of_not_mem hcolon, cells_of_not_mem hpath]
      simp only [List.singleton_append, trim_of_isWordText hargument, path.ne_nil, if_false]
      rfl

/-- **An item is read back as it was written**, whatever its place. -/
theorem read_text (item : WrittenItem) (index : Nat) :
    SelectItem.read index (' ' :: item.text) = .ok item.parsed := by
  have htrim : trim (' ' :: item.text) = item.text := trim_of_isTrimmed item.isLaid_text.isTrimmed
  have hfield := item.field_isWordText
  rw [SelectItem.read, htrim, splitLabel_lower_text]
  refine bind_eq_ok.2 ⟨_, item.splitCustomizer_expression, ?_⟩
  simp only [trim_of_isWordText hfield, hfield.1, if_false, Option.map_map]
  rfl

/-! ## Cleaning an item -/

/-- An expression with a blank before it starts no alias, whatever follows that does not
go on with a word. -/
theorem aliasLength_expression (item : WrittenItem) {rest : List Char}
    (hrest : startsWord rest = false) : aliasLength (' ' :: (item.expression ++ rest)) = 0 := by
  have hexpression := item.expression_isPlainWord.isWordText
  have hblank : startsBlank (' ' :: (item.expression ++ rest)) = true := rfl
  rw [aliasLength, if_pos hblank, trimStart_cons_append (by decide) hexpression]
  split
  · next after hafter =>
    -- an `AS` with a blank after it would be the whole expression
    rw [if_neg]
    rintro hstarts
    rw [Bool.and_eq_true] at hstarts
    obtain ⟨word, hword, hspells⟩ :=
      mem_words_of_afterKeyword? (by simp) (by decide) hrest hafter hstarts.1
    rw [words_of_isWordText hexpression, List.mem_singleton] at hword
    exact Spells.not_of_dot item.dot_mem_expression (by decide) (hword ▸ hspells)
  · rfl

theorem without_aliasLength_text (item : WrittenItem) :
    without aliasLength (' ' :: item.text) = ' ' :: item.expression := by
  have hrun (rest : List Char) (hrest : startsWord rest = false) :
      without aliasLength (' ' :: item.expression ++ rest) =
        ' ' :: item.expression ++ without aliasLength rest := by
    refine replace_run fun left c right hleft => ?_
    cases left with
    | nil =>
      cases hleft
      exact item.aliasLength_expression hrest
    | cons d left =>
      -- inside the expression there is no blank, and an alias starts with one
      rw [List.cons_append, List.cons.injEq] at hleft
      have hc : c ∈ item.expression := by simp [hleft.2]
      exact aliasLength_of_not_startsBlank (item.expression_isPlainWord.isWordText.2 c hc)
  rw [text, ← List.cons_append]
  cases item.label with
  | none => simpa [without] using hrun [] rfl
  | some l =>
    have hpiece : without aliasLength (l.text ++ []) = without aliasLength [] :=
      without_piece (by simp [WrittenLabel.text]) (by rw [List.append_nil, l.aliasLength_text])
    rw [Option.elim_some, hrun l.text rfl, ← List.append_nil l.text, hpiece]
    simp [without]

theorem without_customizerLength_expression (item : WrittenItem) :
    without customizerLength (' ' :: item.expression) = ' ' :: item.field := by
  have hrun (rest : List Char) : without customizerLength (' ' :: item.field ++ rest) =
      ' ' :: item.field ++ without customizerLength rest := by
    refine replace_run_of_forall fun c hc text => ?_
    rcases List.mem_cons.1 hc with rfl | hc
    · rfl
    · have hother (d : Char) (hd : isPathChar d = false) : c ≠ d := fun hcd =>
        not_mem_of_forall item.field_chars hd (hcd ▸ hc)
      exact customizerLength_other (hother '-' (by decide)) (hother '~' (by decide))
        (hother ':' (by decide))
  rw [expression, ← List.cons_append, hrun]
  cases item.customizer with
  | none => simp [without]
  | some z =>
    have hpiece : without customizerLength (z.text ++ []) = without customizerLength [] :=
      without_piece z.ne_nil (by rw [List.append_nil, z.customizerLength_text])
    rw [Option.elim_some, ← List.append_nil z.text, hpiece]
    simp [without]

/-- **The passes leave the path of an item.** -/
theorem plainList_text (item : WrittenItem) : plainList (' ' :: item.text) = ' ' :: item.field := by
  rw [plainList, without_aliasLength_text, without_customizerLength_expression]

end WrittenItem

end ReportQuery.Query
