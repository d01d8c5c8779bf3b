import ReportQuery.Proofs.Query.Clause
import ReportQuery.Proofs.Text.Piece
import ReportQuery.Query.Normal
/-!
# Items without aliases and customizers

The two passes over the select list do their work between the commas, so what they
leave of the list is what they leave of its items (`plainList_join`). The same holds of
the items at top level, as long as no customizer has a parenthesis in it
(`itemsFrom_plainList`). A list that does not start inside a word does not do so when it
is cleaned (`startsWord_plainList`).
-/

namespace ReportQuery.Query

open Text

variable {c sep : Char} {left right text : List Char}

/-! ## Scans that stop -/

theorem takeWhile_append_stop {p : Char → Bool} (h : p sep = false) :
    (left ++ sep :: right).takeWhile p = left.takeWhile p := by
  induction left with
  | nil => simp [h]
  | cons c cs ih => simp only [List.cons_append, List.takeWhile_cons, ih]

theorem dropWhile_append_stop {p : Char → Bool} (h : p sep = false) :
    (left ++ sep :: right).dropWhile p = left.dropWhile p ++ sep :: right :=
  dropWhile_append_of_head fun _ hc => Option.some.inj hc ▸ h

theorem afterKeyword?_append_stop {keyword : List Char} (h : ∀ k ∈ keyword, foldsTo k sep = false) :
    afterKeyword? keyword (left ++ sep :: right) =
      (afterKeyword? keyword left).map fun rest => rest ++ sep :: right := by
  induction keyword generalizing left with
  | nil => rfl
  | cons k ks ih =>
    cases left with
    | nil => simp [afterKeyword?, h k (by simp)]
    | cons c cs =>
      rw [List.cons_append, afterKeyword?, afterKeyword?, ih fun k hk => h k (by simp [hk])]
      split <;> rfl

theorem startsBlank_append_stop (h : isBlank sep = false) :
    startsBlank (left ++ sep :: right) = startsBlank left := by
  cases left with
  | nil => exact h
  | cons c cs => rfl

theorem startsWord_append_stop (h : isWord sep = false) :
    startsWord (left ++ sep :: right) = startsWord left := by
  cases left with
  | nil => exact h
  | cons c cs => rfl

/-! ## Aliases -/

theorem isAsciiLetter_as : ['a', 's'].all isAsciiLetter = true := by decide

theorem aliasLength_le (text : List Char) : aliasLength text ≤ text.length := by
  rw [aliasLength]
  split
  · split
    · split
      · exact Nat.sub_le _ _
      · exact Nat.zero_le _
    · exact Nat.zero_le _
  · exact Nat.zero_le _

/-- An alias starts with a blank. -/
theorem aliasLength_of_not_startsBlank (h : startsBlank text = false) : aliasLength text = 0 := by
  rw [aliasLength, h]
  rfl

/-- An alias reaches over blanks and word characters only. -/
theorem stopsAt_aliasLength (hblank : isBlank sep = false) (hword : isWord sep = false) :
    StopsAt sep aliasLength := by
  refine ⟨aliasLength_le, fun left right => ?_⟩
  have hfold : ∀ k ∈ ['a', 's'], foldsTo k sep = false := fun k hk =>
    foldsTo_of_not_isWord (List.all_eq_true.1 isAsciiLetter_as k hk) hword
  simp only [aliasLength, trimStart, startsBlank_append_stop hblank, dropWhile_append_stop hblank,
    afterKeyword?_append_stop hfold]
  cases afterKeyword? ['a', 's'] (left.dropWhile isBlank) with
  | none => rfl
  | some rest =>
    simp only [Option.map_some, startsBlank_append_stop hblank, dropWhile_append_stop hblank,
      startsWord_append_stop hword, dropWhile_append_stop hword, List.length_append]
    simp only [Nat.add_sub_add_right]
    rfl

/-! ## Customizers -/

theorem length_takeWhile_le (p : Char → Bool) (text : List Char) :
    (text.takeWhile p).length ≤ text.length :=
  (List.takeWhile_prefix p).length_le

theorem customizerLength_arrow :
    customizerLength ('-' :: '>' :: text) = 2 + (text.takeWhile isWord).length := rfl

theorem customizerLength_colon :
    customizerLength (':' :: text) = 1 + (text.takeWhile fun c => !isBlank c && c ≠ ',').length :=
  rfl

theorem customizerLength_minus :
    customizerLength ('~' :: '-' :: text) =
      if text.takeWhile isWord = [] then 0 else 2 + (text.takeWhile isWord).length := rfl

theorem customizerLength_tilde (h : text.head? ≠ some '-') :
    customizerLength ('~' :: text) =
      if text.takeWhile isWord = [] then 0 else 1 + (text.takeWhile isWord).length := by
  cases text with
  | nil => rfl
  | cons c cs => rw [customizerLength]; rintro rest ⟨⟩; exact h rfl

/-- A dash that is no arrow starts no customizer. -/
theorem customizerLength_dash (h : text.head? ≠ some '>') : customizerLength ('-' :: text) = 0 := by
  cases text with
  | nil => rfl
  | cons c cs =>
    rw [customizerLength]
    · rintro rest ⟨⟩
      exact h rfl
    all_goals simp

/-- No other character starts a customizer. -/
theorem customizerLength_other (hdash : c ≠ '-') (htilde : c ≠ '~') (hcolon : c ≠ ':') :
    customizerLength (c :: text) = 0 := by
  rw [customizerLength] <;> simp_all

theorem customizerLength_le (text : List Char) : customizerLength text ≤ text.length := by
  have hword := length_takeWhile_le isWord
  have hpath := length_takeWhile_le fun c => !isBlank c && c ≠ ','
  unfold customizerLength
  split
  · next rest => simp only [List.length_cons]; have := hword rest; omega
  · next rest => simp only [List.length_cons]; have := hword rest; split <;> omega
  · next rest _ => simp only [List.length_cons]; have := hword rest; split <;> omega
  · next rest => simp only [List.length_cons]; have := hpath rest; omega
  · exact Nat.zero_le _

/-- A customizer does not reach over a comma. -/
theorem stopsAt_customizerLength : StopsAt ',' customizerLength := by
  refine ⟨customizerLength_le, fun left right => ?_⟩
  have hword : isWord ',' = false := by decide
  cases left with
  | nil => exact customizerLength_other (by decide) (by decide) (by decide)
  | cons c cs =>
    have hhead (d : Char) (hd : ',' ≠ d) (h : cs.head? ≠ some d) :
        (cs ++ ',' :: right).head? ≠ some d := by cases cs <;> simp_all
    rw [List.cons_append]
    by_cases hdash : c = '-'
    · subst hdash
      by_cases harrow : cs.head? = some '>'
      · obtain ⟨rest, rfl⟩ := List.head?_eq_some_iff.1 harrow
        rw [List.cons_append, customizerLength_arrow, customizerLength_arrow,
          takeWhile_append_stop hword]
      · rw [customizerLength_dash harrow, customizerLength_dash (hhead '>' (by decide) harrow)]
    by_cases htilde : c = '~'
    · subst htilde
      by_cases hminus : cs.head? = some '-'
      · obtain ⟨rest, rfl⟩ := List.head?_eq_some_iff.1 hminus
        rw [List.cons_append, customizerLength_minus, customizerLength_minus,
          takeWhile_append_stop hword]
      · rw [customizerLength_tilde hminus, customizerLength_tilde (hhead '-' (by decide) hminus),
          takeWhile_append_stop hword]
    by_cases hcolon : c = ':'
    · subst hcolon
      rw [customizerLength_colon, customizerLength_colon, takeWhile_append_stop (by simp)]
    · rw [customizerLength_other hdash htilde hcolon, customizerLength_other hdash htilde hcolon]

/-! ## Removing pieces -/

variable {length : List Char → Nat} {depth : Nat} {list : List Char}

theorem without_kept (h : length (c :: text) = 0) :
    without length (c :: text) = c :: without length text := replace_kept h

theorem without_piece {p : List Char} (hp : p ≠ []) (h : length (p ++ text) = p.length) :
    without length (p ++ text) = without length text := replace_piece hp h

/-- A pass that removes pieces keeps the other characters in their order. -/
theorem without_sublist (hbound : ∀ t, length t ≤ t.length) (text : List Char) :
    (without length text).Sublist text := by
  induction text using parts_induction hbound with
  | nil => exact .slnil
  | kept c cs hzero ih =>
    rw [without_kept hzero]
    exact ih.cons_cons c
  | piece p t hp hlength ih =>
    rw [without_piece hp hlength]
    exact ih.trans (List.sublist_append_right p t)

theorem without_join (h : StopsAt sep length) (texts : List (List Char)) :
    without length (join [sep] texts) = join [sep] (texts.map (without length)) :=
  h.replace_join texts

/-- The first item of a list is what it starts with, up to a comma or the end. -/
theorem exists_append_of_itemsFrom {item : List Char} {items : List (List Char)}
    (h : itemsFrom depth text = item :: items) :
    text = item ∧ items = [] ∨ ∃ rest, text = item ++ ',' :: rest := by
  have hjoin := join_itemsFrom depth text
  rw [h] at hjoin
  by_cases hitems : items = []
  · rw [hitems, join] at hjoin
    exact .inl ⟨hjoin.symm, hitems⟩
  · rw [join_cons hitems, List.append_assoc] at hjoin
    exact .inr ⟨_, hjoin.symm⟩

/-- What starts before the end of an item starts in the item. -/
theorem length_of_itemsFrom (hstops : StopsAt ',' length) {item : List Char}
    {items : List (List Char)} (h : itemsFrom depth text = item :: items) :
    length (left ++ text) = length (left ++ item) := by
  rcases exists_append_of_itemsFrom h with ⟨rfl, -⟩ | ⟨rest, rfl⟩
  · rfl
  · rw [← List.append_assoc, hstops.append]

/-- A piece without commas and parentheses belongs to the first item. -/
theorem itemsFrom_append {p item : List Char} {items : List (List Char)}
    (hp : ∀ c ∈ p, c ≠ ',' ∧ c ≠ '(' ∧ c ≠ ')') (h : itemsFrom depth text = item :: items) :
    itemsFrom depth (p ++ text) = (p ++ item) :: items := by
  induction p with
  | nil => exact h
  | cons c cs ih =>
    obtain ⟨hcomma, hopen, hclose⟩ := hp c (by simp)
    have hends : ¬ (c = ',' ∧ depth = 0) := fun h => hcomma h.1
    obtain ⟨item', items', hitems, hcons⟩ := itemsFrom_cons (cs ++ text) hends
    rw [depthAfter, if_neg hopen, if_neg hclose, ih fun d hd => hp d (by simp [hd])] at hitems
    cases hitems
    exact hcons

/-- **Pieces are removed item by item**, if none has a parenthesis in it. -/
theorem itemsFrom_without (hstops : StopsAt ',' length)
    (hparens : ∀ p, Part.piece p ∈ parts (fun _ t => length t) text → '(' ∉ p ∧ ')' ∉ p) :
    itemsFrom depth (without length text) = (itemsFrom depth text).map (without length) := by
  induction text using parts_induction hstops.le generalizing depth with
  | nil => rfl
  | kept c cs hzero ih =>
    have ih' (depth : Nat) :
        itemsFrom depth (without length cs) = (itemsFrom depth cs).map (without length) :=
      ih fun p hp => hparens p (by rw [parts_kept hzero]; simp [hp])
    rw [without_kept hzero]
    by_cases hc : c = ',' ∧ depth = 0
    · obtain ⟨rfl, rfl⟩ := hc
      rw [itemsFrom_comma, itemsFrom_comma, ih', List.map_cons]
      rfl
    · obtain ⟨item, items, hitems, hcons⟩ := itemsFrom_cons cs hc
      obtain ⟨item', items', hitems', hcons'⟩ := itemsFrom_cons (without length cs) hc
      rw [ih', hitems, List.map_cons] at hitems'
      cases hitems'
      have hitem : length (c :: item) = 0 :=
        (length_of_itemsFrom hstops hitems : length ([c] ++ cs) = length ([c] ++ item)) ▸ hzero
      rw [hcons, hcons', List.map_cons, without_kept hitem]
  | piece p t hp hlength ih =>
    have hpiece : Part.piece p ∈ parts (fun _ t => length t) (p ++ t) := by
      rw [parts_piece hp hlength]
      simp
    have hclean : ∀ c ∈ p, c ≠ ',' ∧ c ≠ '(' ∧ c ≠ ')' := by
      intro c hc
      obtain ⟨hopen, hclose⟩ := hparens p hpiece
      refine ⟨?_, fun h => hopen (h ▸ hc), fun h => hclose (h ▸ hc)⟩
      rintro rfl
      exact hstops.not_mem_piece hlength hc
    have ih' : itemsFrom depth (without length t) = (itemsFrom depth t).map (without length) :=
      ih fun p' hp' => hparens p' (by rw [parts_piece hp hlength]; simp [hp'])
    obtain ⟨item, items, hitems⟩ :=
      List.exists_cons_of_ne_nil (itemsFrom_ne_nil depth t)
    have hitem : length (p ++ item) = p.length := by
      rw [← hlength, length_of_itemsFrom hstops hitems]
    rw [without_piece hp hlength, ih', itemsFrom_append hclean hitems, hitems, List.map_cons,
      List.map_cons, without_piece hp hitem]

/-! ## The list without aliases and customizers -/

variable {items : List (List Char)}

/-- **The passes work cell by cell.** -/
theorem plainList_join (items : List (List Char)) :
    plainList (join [','] items) = join [','] (items.map plainList) := by
  have halias : StopsAt ',' aliasLength := stopsAt_aliasLength (by decide) (by decide)
  rw [plainList, without_join halias, without_join stopsAt_customizerLength, List.map_map]
  rfl

theorem plainList_sublist (list : List Char) : (plainList list).Sublist list :=
  (without_sublist customizerLength_le _).trans (without_sublist aliasLength_le list)

/-- **The passes work item by item**, if no customizer has a parenthesis in it. -/
theorem itemsFrom_plainList
    (hparens : ∀ p, Part.piece p ∈ parts (fun _ t => customizerLength t) (without aliasLength list) →
      '(' ∉ p ∧ ')' ∉ p) :
    itemsFrom 0 (plainList list) = (itemsFrom 0 list).map plainList := by
  have halias (sep : Char) (hblank : isBlank sep = false) (hword : isWord sep = false) :
      StopsAt sep aliasLength := stopsAt_aliasLength hblank hword
  rw [plainList, itemsFrom_without stopsAt_customizerLength hparens,
    itemsFrom_without (halias ',' (by decide) (by decide)) fun p hp =>
      ⟨(halias '(' (by decide) (by decide)).not_mem_of_piece hp,
        (halias ')' (by decide) (by decide)).not_mem_of_piece hp⟩,
    List.map_map]
  rfl

/-! ## What the list starts with

A piece that is removed reaches to the end of its last word. -/

theorem startsWord_dropWhile : startsWord (text.dropWhile isWord) = false := by
  have hhead := List.head?_dropWhile_not isWord text
  cases h : text.dropWhile isWord with
  | nil => rfl
  | cons c cs =>
    rw [h] at hhead
    exact hhead

theorem drop_length_takeWhile (p : Char → Bool) :
    text.drop (text.takeWhile p).length = text.dropWhile p := by
  have hdrop : (text.takeWhile p ++ text.dropWhile p).drop (text.takeWhile p).length =
      text.dropWhile p := List.drop_left
  rwa [List.takeWhile_append_dropWhile] at hdrop

theorem startsWord_drop_aliasLength (h : startsWord text = false) :
    startsWord (text.drop (aliasLength text)) = false := by
  rw [aliasLength]
  split
  · split
    · next rest hrest =>
      split
      · obtain ⟨key, -, hkey⟩ := afterKeyword?_eq_some.1 hrest
        have hsuffix : (trimStart rest).dropWhile isWord <:+ text :=
          (List.dropWhile_suffix _).trans <| (List.dropWhile_suffix _).trans <|
            List.IsSuffix.trans ⟨key, hkey.symm⟩ (List.dropWhile_suffix _)
        rw [← List.suffix_iff_eq_drop.1 hsuffix]
        exact startsWord_dropWhile
      · exact h
    · exact h
  · exact h

theorem startsWord_drop_customizerLength (h : startsWord text = false) :
    startsWord (text.drop (customizerLength text)) = false := by
  unfold customizerLength
  split
  · next rest =>
    rw [Nat.add_comm]
    change startsWord (rest.drop (rest.takeWhile isWord).length) = false
    rw [drop_length_takeWhile]
    exact startsWord_dropWhile
  · next rest =>
    dsimp only
    split
    · exact h
    · rw [Nat.add_comm]
      change startsWord (rest.drop (rest.takeWhile isWord).length) = false
      rw [drop_length_takeWhile]
      exact startsWord_dropWhile
  · next rest _ =>
    dsimp only
    split
    · exact h
    · rw [Nat.add_comm, List.drop_succ_cons, drop_length_takeWhile]
      exact startsWord_dropWhile
  · next rest =>
    rw [Nat.add_comm, List.drop_succ_cons, drop_length_takeWhile]
    -- a nested path ends before a blank or a comma
    have hhead := List.head?_dropWhile_not (fun c => !isBlank c && c ≠ ',') rest
    cases hrest : rest.dropWhile fun c => !isBlank c && c ≠ ',' with
    | nil => rfl
    | cons c cs =>
      rw [hrest] at hhead
      simp only [List.head?_cons, Bool.and_eq_false_iff, Bool.not_eq_eq_eq_not, Bool.not_false,
        decide_eq_false_iff_not, ne_eq, not_not] at hhead
      rcases hhead with hblank | rfl
      · exact isWord_of_isBlank hblank
      · rfl
  · exact h

theorem startsWord_without (hbound : ∀ t, length t ≤ t.length)
    (hdrop : ∀ t, startsWord t = false → startsWord (t.drop (length t)) = false)
    (h : startsWord text = false) : startsWord (without length text) = false := by
  induction text using parts_induction hbound with
  | nil => rfl
  | kept c cs hzero ih =>
    rw [without_kept hzero]
    exact h
  | piece p t hp hlength ih =>
    have ht := hdrop (p ++ t) h
    rw [hlength, List.drop_left] at ht
    rw [without_piece hp hlength]
    exact ih ht

/-- A list that does not go on with a word does not do so without aliases and
customizers. -/
theorem startsWord_plainList (h : startsWord text = false) : startsWord (plainList text) = false :=
  startsWord_without customizerLength_le (fun _ => startsWord_drop_customizerLength)
    (startsWord_without aliasLength_le (fun _ => startsWord_drop_aliasLength) h)

end ReportQuery.Query
