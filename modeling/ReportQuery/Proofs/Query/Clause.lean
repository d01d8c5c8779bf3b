import ReportQuery.Proofs.Text.Keyword
import ReportQuery.Query.Clause
/-!
# Finding the clauses

What the scans for the select list and for the resource find, as properties of the
text. A `FROM` counts where a blank stands before it and after it (`FromAt`), and the
first that counts ends the select list (`selectClause?_eq_some`). None counts in a text
no word of which is a `FROM` (`NoFrom`), whatever follows that does not go on with a
word.
-/

namespace ReportQuery.Query

open Text

variable {b c : Char} {text list tail left right run rest word : List Char}

/-! ## Starts -/

theorem startsWord_of_startsBlank (h : startsBlank text = true) : startsWord text = false := by
  cases text with
  | nil => rfl
  | cons c cs => exact isWord_of_isBlank h

theorem startsBlank_gap_append {gap : List Char} (hne : gap ≠ [])
    (hgap : ∀ c ∈ gap, isBlank c = true) : startsBlank (gap ++ text) = true := by
  obtain ⟨d, ds, rfl⟩ := List.exists_cons_of_ne_nil hne
  exact hgap d (by simp)

theorem startsWord_append (hleft : startsWord left = false) (hright : startsWord right = false) :
    startsWord (left ++ right) = false := by
  cases left with
  | nil => exact hright
  | cons c cs => exact hleft

theorem startsWord_of_append (h : startsWord (left ++ right) = false) : startsWord left = false := by
  cases left with
  | nil => rfl
  | cons c cs => exact h

theorem startsWord_join (first : List Char) (rest : List (List Char)) :
    startsWord (join [','] (first :: rest)) = startsWord first := by
  cases first <;> cases rest <;> rfl

/-- **A keyword before a blank is a word.** Where a keyword and a blank are found in
front of a text that is not inside a word, the keyword is a word of what stands
before that text. -/
theorem mem_words_of_afterKeyword? {keyword : List Char} (hne : keyword ≠ [])
    (hletters : keyword.all isAsciiLetter = true) (htext : startsWord text = false)
    (h : afterKeyword? keyword (left ++ text) = some rest) (hrest : startsBlank rest = true) :
    ∃ word ∈ words left, Spells keyword word := by
  obtain ⟨word, hword, happend⟩ := afterKeyword?_eq_some.1 h
  have hwordText := hword.isWordText hletters hne
  refine ⟨word, ?_, hword⟩
  rcases List.append_eq_append_iff.1 happend with ⟨between, rfl, rfl⟩ | ⟨between, rfl, rfl⟩
  · cases between with
    | nil => simp [words_of_isWordText (by simpa using hwordText)]
    | cons d ds =>
      have hd : isWord d = true := hword.isWord hletters d (by simp)
      rw [List.cons_append, startsWord, hd] at htext
      cases htext
  · cases between with
    | nil => simp [words_of_isWordText hwordText]
    | cons d ds =>
      rw [words_append (show isBlank d = true from hrest), words_of_isWordText hwordText]
      simp

/-! ## The keyword of the resource -/

/-- The spellings of `FROM`. -/
abbrev SpellsFrom (word : List Char) : Prop := Spells ['f', 'r', 'o', 'm'] word

theorem isAsciiLetter_from : ['f', 'r', 'o', 'm'].all isAsciiLetter = true := by decide

/-- What stands behind a `FROM` that a blank follows. -/
theorem afterFrom?_eq_some :
    afterFrom? text = some rest ↔
      ∃ word, SpellsFrom word ∧ text = word ++ rest ∧ startsBlank rest = true := by
  rw [afterFrom?, Option.filter_eq_some_iff, afterKeyword?_eq_some]
  exact ⟨fun ⟨⟨word, hword, h⟩, hrest⟩ => ⟨word, hword, h, hrest⟩,
    fun ⟨word, hword, h, hrest⟩ => ⟨⟨word, hword, h⟩, hrest⟩⟩

/-- A `FROM` that counts has a blank behind it. -/
theorem isSome_afterFrom?_iff : (afterFrom? text).isSome = true ↔
    ∃ word c rest, text = word ++ c :: rest ∧ SpellsFrom word ∧ isBlank c = true := by
  rw [Option.isSome_iff_exists]
  constructor
  · rintro ⟨after, hafter⟩
    obtain ⟨word, hword, rfl, hblank⟩ := afterFrom?_eq_some.1 hafter
    cases after with
    | nil => cases hblank
    | cons c rest => exact ⟨word, c, rest, rfl, hword, hblank⟩
  · rintro ⟨word, c, rest, rfl, hword, hc⟩
    exact ⟨c :: rest, afterFrom?_eq_some.2 ⟨word, hword, rfl, hc⟩⟩

/-- A text of which no word is a `FROM`. -/
def NoFrom (text : List Char) : Prop := ∀ word ∈ words text, ¬ SpellsFrom word

theorem NoFrom.of_append (hb : isBlank b = true) (h : NoFrom (left ++ b :: right)) : NoFrom right :=
  fun word hword => h word (by rw [words_append hb]; simp [hword])

/-- No `FROM` stands in front of a text that is not inside a word, if none is a word of
what stands before that text. -/
theorem NoFrom.afterFrom?_eq_none (h : NoFrom left) (htext : startsWord text = false) :
    afterFrom? (left ++ text) = none := by
  rw [Option.eq_none_iff_forall_ne_some]
  intro rest hrest
  rw [afterFrom?, Option.filter_eq_some_iff] at hrest
  obtain ⟨word, hmem, hword⟩ :=
    mem_words_of_afterKeyword? (by simp) isAsciiLetter_from htext hrest.1 hrest.2
  exact h word hmem hword

/-- A blank with a `FROM` and a blank after it. -/
def FromAt (text : List Char) : Prop :=
  ∃ b rest, text = b :: rest ∧ isBlank b = true ∧ (afterFrom? rest).isSome = true

theorem fromAt_cons : FromAt (c :: text) ↔ isBlank c = true ∧ (afterFrom? text).isSome = true := by
  constructor
  · rintro ⟨b, rest, h, hblank, hfrom⟩
    cases h
    exact ⟨hblank, hfrom⟩
  · rintro ⟨hblank, hfrom⟩
    exact ⟨c, text, rfl, hblank, hfrom⟩

theorem FromAt.startsBlank (h : FromAt text) : startsBlank text = true := by
  obtain ⟨b, rest, rfl, hb, -⟩ := h
  exact hb

theorem FromAt.startsWord (h : FromAt text) : startsWord text = false :=
  startsWord_of_startsBlank h.startsBlank

/-- No `FROM` counts within a text that has none as a word. -/
theorem NoFrom.not_fromAt (h : NoFrom (left ++ c :: right)) (htext : Query.startsWord text = false) :
    ¬ FromAt (c :: right ++ text) := by
  rw [List.cons_append, fromAt_cons]
  rintro ⟨hc, hfrom⟩
  rw [(h.of_append hc).afterFrom?_eq_none htext] at hfrom
  cases hfrom

/-- The parts of a tail: a blank, a `FROM`, a blank, and the rest of the query. -/
structure FromParts (tail : List Char) (b : Char) (word : List Char) (c : Char) (rest : List Char) :
    Prop where
  eq : tail = b :: (word ++ c :: rest)
  before : isBlank b = true
  spells : SpellsFrom word
  after : isBlank c = true

theorem FromParts.afterFrom?_eq (h : FromParts tail b word c rest) :
    afterFrom? (word ++ c :: rest) = some (c :: rest) :=
  afterFrom?_eq_some.2 ⟨word, h.spells, rfl, h.after⟩

theorem fromAt_iff : FromAt tail ↔ ∃ b word c rest, FromParts tail b word c rest := by
  constructor
  · rintro ⟨b, text, rfl, hb, hfrom⟩
    obtain ⟨word, c, rest, rfl, hword, hblank⟩ := isSome_afterFrom?_iff.1 hfrom
    exact ⟨b, word, c, rest, rfl, hb, hword, hblank⟩
  · rintro ⟨b, word, c, rest, h⟩
    rw [h.eq, fromAt_cons, h.afterFrom?_eq]
    exact ⟨h.before, rfl⟩

/-! ## The select list -/

/-- The scan passes over what shows no `FROM`. -/
theorem untilFrom?_append
    (h : ∀ left c right, run = left ++ c :: right → ¬ FromAt (c :: right ++ text)) :
    untilFrom? (run ++ text) =
      (untilFrom? text).map fun (before, rest) => (run ++ before, rest) := by
  induction run with
  | nil => simp
  | cons c cs ih =>
    have hc : ¬ FromAt (c :: (cs ++ text)) := h [] c cs rfl
    rw [fromAt_cons, ← Bool.and_eq_true] at hc
    rw [List.cons_append, untilFrom?, if_neg hc,
      ih fun left d right hcs => h (c :: left) d right (by rw [hcs, List.cons_append])]
    cases untilFrom? text <;> rfl

/-- The scan stops at the first `FROM` that counts. -/
theorem untilFrom?_eq_some :
    untilFrom? text = some (list, tail) ↔ text = list ++ tail ∧ FromAt tail ∧
      ∀ left c right, list = left ++ c :: right → ¬ FromAt (c :: right ++ tail) := by
  constructor
  · intro h
    induction text generalizing list with
    | nil => cases h
    | cons c cs ih =>
      rw [untilFrom?] at h
      split at h
      · next hfrom =>
        cases h
        rw [Bool.and_eq_true] at hfrom
        exact ⟨rfl, fromAt_cons.2 hfrom, fun left d right hnil => by simp at hnil⟩
      · next hfrom =>
        obtain ⟨⟨list', tail'⟩, hcut, h⟩ := Option.map_eq_some_iff.1 h
        cases h
        obtain ⟨rfl, htail, hfirst⟩ := ih hcut
        refine ⟨rfl, htail, fun left d right hlist => ?_⟩
        cases left with
        | nil =>
          rw [List.nil_append] at hlist
          cases hlist
          rwa [List.cons_append, fromAt_cons, ← Bool.and_eq_true]
        | cons e left =>
          cases hlist
          exact hfirst left d right rfl
  · rintro ⟨rfl, htail, hfirst⟩
    obtain ⟨b, rest, rfl, hb⟩ := htail
    rw [untilFrom?_append hfirst, untilFrom?, if_pos (by simpa using hb)]
    simp

/-- The scan passes over items of which no word is a `FROM`. -/
theorem untilFrom?_join (items : List (List Char)) (hitems : ∀ item ∈ items, NoFrom item)
    (htext : FromAt text) :
    untilFrom? (join [','] items ++ text) = some (join [','] items, text) := by
  induction items with
  | nil => exact untilFrom?_eq_some.2 ⟨rfl, htext, fun left c right h => by simp [join] at h⟩
  | cons item rest ih =>
    have hitem := hitems item (by simp)
    have hrest := ih fun cell hcell => hitems cell (by simp [hcell])
    by_cases hnil : rest = []
    · subst hnil
      refine untilFrom?_eq_some.2 ⟨rfl, htext, fun left c right h => ?_⟩
      rw [join] at h
      exact (h ▸ hitem).not_fromAt htext.startsWord
    · rw [join_cons hnil, List.append_assoc, List.append_assoc,
        untilFrom?_append fun left c right h => (h ▸ hitem).not_fromAt rfl,
        untilFrom?_append fun left c right h => ?_, hrest]
      · simp
      · -- a comma is no blank
        cases left with
        | nil =>
          cases h
          rw [List.cons_append, fromAt_cons]
          rintro ⟨hcomma, -⟩
          exact absurd hcomma (by decide)
        | cons d left => simp at h

/-- A query cut at its select list: `SELECT` as the first word, and the first `FROM`
that counts at the start of the tail. -/
structure IsClause (clause : SelectClause) : Prop where
  head : ∃ gap word, clause.head = gap ++ word ∧ (∀ c ∈ gap, isBlank c = true) ∧
    Spells ['s', 'e', 'l', 'e', 'c', 't'] word
  startsWord : startsWord (clause.list ++ clause.tail) = false
  tail : FromAt clause.tail
  first : ∀ left c right, clause.list = left ++ c :: right →
    ¬ FromAt (c :: right ++ clause.tail)

/-- Blanks, and a `SELECT`. -/
def IsHead (head : List Char) : Prop :=
  ∃ gap word, head = gap ++ word ∧ (∀ c ∈ gap, isBlank c = true) ∧
    Spells ['s', 'e', 'l', 'e', 'c', 't'] word

namespace IsHead

variable {head other : List Char}

/-- A head is made of blanks and word characters. -/
theorem not_mem (h : IsHead head) (hblank : isBlank c = false) (hword : isWord c = false) :
    c ∉ head := by
  obtain ⟨gap, word, rfl, hgap, hspells⟩ := h
  rw [List.mem_append, not_or]
  refine ⟨fun hmem => ?_, fun hmem => ?_⟩
  · rw [hgap c hmem] at hblank
    cases hblank
  · rw [hspells.isWord (by decide) c hmem] at hword
    cases hword

/-- No `FROM` is the word of a head. -/
theorem noFrom (h : IsHead head) : NoFrom head := by
  obtain ⟨gap, word, rfl, hgap, hspells⟩ := h
  intro w hw hfrom
  rw [words_gap hgap, words_of_isWordText (hspells.isWordText (by decide) (by simp)),
    List.mem_singleton] at hw
  -- the two keywords differ in length
  have hlength := hfrom.length_eq
  rw [hw, hspells.length_eq] at hlength
  cases hlength

/-- A text starts with one head at most. -/
theorem append_inj (h : IsHead head) (hother : IsHead other) (heq : head ++ left = other ++ right) :
    head = other ∧ left = right := by
  obtain ⟨gap, word, rfl, hgap, hspells⟩ := h
  obtain ⟨gap', word', rfl, hgap', hspells'⟩ := hother
  have htrim := congrArg trimStart heq
  rw [List.append_assoc, List.append_assoc,
    trimStart_gap_append hgap (hspells.isWordText (by decide) (by simp)),
    trimStart_gap_append hgap' (hspells'.isWordText (by decide) (by simp))] at htrim
  obtain ⟨rfl, rfl⟩ := List.append_inj htrim (by rw [hspells.length_eq, hspells'.length_eq])
  exact ⟨List.append_cancel_right heq, rfl⟩

end IsHead

/-- The head of a clause is made of blanks and word characters. -/
theorem IsClause.not_mem_head {clause : SelectClause} (h : IsClause clause)
    (hblank : isBlank c = false) (hword : isWord c = false) : c ∉ clause.head :=
  IsHead.not_mem h.head hblank hword

/-- No `FROM` counts before the end of the select list. -/
theorem IsClause.not_fromAt {clause : SelectClause} (h : IsClause clause)
    (hsplit : clause.head ++ clause.list = left ++ c :: right) :
    ¬ FromAt (c :: right ++ clause.tail) := by
  rcases List.append_eq_append_iff.1 hsplit with ⟨between, -, hlist⟩ | ⟨between, hhead, hright⟩
  · exact h.first between c right hlist
  · cases between with
    | nil => exact h.first [] c right hright.symm
    | cons d between =>
      obtain ⟨rfl, -⟩ := List.cons.inj hright
      have hnoFrom : NoFrom (left ++ c :: between) := hhead ▸ IsHead.noFrom h.head
      rw [hright, List.append_assoc]
      exact hnoFrom.not_fromAt h.startsWord

/-- **The clause of a query is the query, cut.** -/
theorem selectClause?_eq_some {query : List Char} {clause : SelectClause} :
    selectClause? query = some clause ↔
      query = clause.head ++ clause.list ++ clause.tail ∧ IsClause clause := by
  constructor
  · intro h
    obtain ⟨gap, hgap, hquery⟩ := exists_gap_trimStart query
    rw [selectClause?] at h
    split at h
    · cases h
    · next rest hkeyword =>
      obtain ⟨word, hword, htrim⟩ := afterKeyword?_eq_some.1 hkeyword
      split at h
      · cases h
      · next hstart =>
        obtain ⟨⟨list, tail⟩, hcut, h⟩ := Option.map_eq_some_iff.1 h
        obtain ⟨rfl, htail, hfirst⟩ := untilFrom?_eq_some.1 hcut
        rw [htrim, ← List.append_assoc] at hquery
        have htake : query.take (query.length - (list ++ tail).length) = gap ++ word := by
          rw [hquery, List.length_append, Nat.add_sub_cancel, List.take_left]
        rw [htake] at h
        cases h
        exact ⟨by rw [hquery, List.append_assoc _ list tail],
          ⟨gap, word, rfl, hgap, hword⟩, by simpa using hstart, htail, hfirst⟩
  · rintro ⟨rfl, ⟨gap, word, hhead, hgap, hword⟩, hstart, htail, hfirst⟩
    obtain ⟨head, list, tail⟩ := clause
    subst hhead
    have htrim : trimStart (gap ++ word ++ list ++ tail) = word ++ (list ++ tail) := by
      rw [List.append_assoc, List.append_assoc]
      exact trimStart_gap_append hgap (hword.isWordText (by decide) (by simp))
    rw [selectClause?, htrim, afterKeyword?_append hword]
    simp only [hstart, Bool.false_eq_true, if_false, untilFrom?_eq_some.2 ⟨rfl, htail, hfirst⟩,
      Option.map_some]
    rw [List.append_assoc _ list tail, List.length_append, Nat.add_sub_cancel, List.take_left]

/-! ## The resource -/

theorem resourceAt?_of_not_fromAt (h : ¬ FromAt text) : resourceAt? text = none := by
  cases text with
  | nil => rfl
  | cons c cs =>
    rw [fromAt_cons, not_and] at h
    by_cases hc : isBlank c = true
    · rw [resourceAt?, if_pos hc, Option.not_isSome_iff_eq_none.1 (h hc)]
    · rw [resourceAt?, if_neg hc]

/-- The search for the resource passes over what shows no `FROM`. -/
theorem resourceWord?_append
    (h : ∀ left c right, run = left ++ c :: right → ¬ FromAt (c :: right ++ text)) :
    resourceWord? (run ++ text) = resourceWord? text := by
  induction run with
  | nil => rfl
  | cons c cs ih =>
    have hc : ¬ FromAt (c :: (cs ++ text)) := h [] c cs rfl
    rw [List.cons_append, resourceWord?, resourceAt?_of_not_fromAt hc, Option.none_or]
    exact ih fun left d right hcs => h (c :: left) d right (by rw [hcs, List.cons_append])

/-- The parts of a tail that names a resource: a blank, a `FROM`, blanks, the resource,
and a rest that does not go on with it. -/
structure ResourceParts (text resource : List Char) (b : Char) (word gap rest : List Char) :
    Prop where
  eq : text = b :: (word ++ (gap ++ (resource ++ rest)))
  blank : isBlank b = true
  spells : SpellsFrom word
  gap_ne : gap ≠ []
  gap_blank : ∀ c ∈ gap, isBlank c = true
  ne : resource ≠ []
  chars : ∀ c ∈ resource, isResourceChar c = true
  stop : ∀ c ∈ rest.head?, isResourceChar c = false

theorem not_isResourceChar_of_isBlank (h : isBlank c = true) : isResourceChar c = false := by
  simp [isResourceChar, h]

theorem isBlank_of_isResourceChar (h : isResourceChar c = true) : isBlank c = false := by
  cases hb : isBlank c with
  | false => rfl
  | true => rw [not_isResourceChar_of_isBlank hb] at h; cases h

namespace ResourceParts

variable {resource gap : List Char}

theorem startsBlank_gap (h : ResourceParts text resource b word gap rest) :
    startsBlank (gap ++ (resource ++ rest)) = true :=
  startsBlank_gap_append h.gap_ne h.gap_blank

theorem afterFrom?_eq (h : ResourceParts text resource b word gap rest) :
    afterFrom? (word ++ (gap ++ (resource ++ rest))) = some (gap ++ (resource ++ rest)) :=
  afterFrom?_eq_some.2 ⟨word, h.spells, rfl, h.startsBlank_gap⟩

theorem eq_append (h : ResourceParts text resource b word gap rest) :
    text = b :: (word ++ (gap ++ resource)) ++ rest := by
  rw [h.eq]
  simp

/-- What stands up to the resource is made of blanks and word characters. -/
theorem not_mem (h : ResourceParts text resource b word gap rest) (hblank : isBlank c = false)
    (hword : isWord c = false) (hresource : c ∉ resource) :
    c ∉ b :: (word ++ (gap ++ resource)) := by
  simp only [List.mem_cons, List.mem_append, not_or]
  refine ⟨?_, fun hmem => ?_, fun hmem => ?_, hresource⟩
  · rintro rfl
    rw [h.blank] at hblank
    cases hblank
  · rw [h.spells.isWord isAsciiLetter_from c hmem] at hword
    cases hword
  · rw [h.gap_blank c hmem] at hblank
    cases hblank

theorem fromAt (h : ResourceParts text resource b word gap rest) : FromAt text := by
  rw [h.eq, fromAt_cons, h.afterFrom?_eq]
  exact ⟨h.blank, rfl⟩

end ResourceParts

/-- **The resource is the word after the `FROM`.** -/
theorem resourceAt?_eq_some {resource : List Char} :
    resourceAt? text = some resource ↔
      ∃ b word gap rest, ResourceParts text resource b word gap rest := by
  constructor
  · intro h
    cases text with
    | nil => cases h
    | cons b text =>
      rw [resourceAt?] at h
      split at h
      · next hb =>
        split at h
        · cases h
        · next rest hfrom =>
          obtain ⟨word, hword, rfl, hrest⟩ := afterFrom?_eq_some.1 hfrom
          obtain ⟨hne, h⟩ := Option.ite_none_left_eq_some.1 h
          cases h
          obtain ⟨d, ds, rfl⟩ : ∃ d ds, rest = d :: ds := by
            cases rest with
            | nil => cases hrest
            | cons d ds => exact ⟨d, ds, rfl⟩
          have hgap : isBlank d = true := hrest
          refine ⟨b, word, (d :: ds).takeWhile isBlank,
            (trimStart (d :: ds)).dropWhile isResourceChar, ?_, hb, hword,
            by simp [hgap], fun c hc => List.mem_takeWhile_imp hc, hne,
            fun c hc => List.mem_takeWhile_imp hc, fun c hc => ?_⟩
          · rw [List.takeWhile_append_dropWhile, trimStart, List.takeWhile_append_dropWhile]
          · have hhead := List.head?_dropWhile_not isResourceChar (trimStart (d :: ds))
            rw [hc] at hhead
            simpa using hhead
      · cases h
  · rintro ⟨b, word, gap, rest, h⟩
    have hword : IsWordText resource :=
      ⟨h.ne, fun c hc => isBlank_of_isResourceChar (h.chars c hc)⟩
    have htrim : trimStart (gap ++ (resource ++ rest)) = resource ++ rest :=
      trimStart_gap_append h.gap_blank hword
    have htake : (resource ++ rest).takeWhile isResourceChar = resource := by
      rw [List.takeWhile_append_of_pos h.chars]
      cases rest with
      | nil => simp
      | cons c cs => simp [h.stop c rfl]
    rw [h.eq, resourceAt?, if_pos h.blank, h.afterFrom?_eq]
    simp only [htrim, htake]
    exact if_neg h.ne

/-- The word after a `FROM` reaches up to a blank, a comma or a semicolon. -/
theorem FromParts.resourceAt?_eq (h : FromParts tail b word c rest) :
    resourceAt? tail = if (trimStart rest).takeWhile isResourceChar = [] then none
      else some ((trimStart rest).takeWhile isResourceChar) := by
  have htrim : trimStart (c :: rest) = trimStart rest := List.dropWhile_cons_of_pos h.after
  rw [h.eq, resourceAt?, if_pos h.before, h.afterFrom?_eq]
  simp only [htrim]

/-- The search for the resource stops at the first `FROM` that names one. -/
theorem resourceWord?_of_resourceAt? {resource : List Char} (h : resourceAt? text = some resource) :
    resourceWord? text = some resource := by
  cases text with
  | nil => cases h
  | cons c cs => rw [resourceWord?, h, Option.some_or]

/-- A resource that is found is named by a `FROM`, and by none before. -/
theorem exists_of_resourceWord? {resource : List Char} (h : resourceWord? text = some resource) :
    ∃ left right, text = left ++ right ∧ resourceAt? right = some resource ∧
      ∀ before c between, left = before ++ c :: between →
        resourceAt? (c :: between ++ right) = none := by
  induction text with
  | nil => cases h
  | cons d ds ih =>
    unfold resourceWord? at h
    cases hhere : resourceAt? (d :: ds) with
    | some found =>
      rw [hhere] at h
      cases h
      exact ⟨[], d :: ds, rfl, hhere, fun before c between hnil => by simp at hnil⟩
    | none =>
      rw [hhere, Option.none_or] at h
      obtain ⟨left, right, rfl, hright, hbefore⟩ := ih h
      refine ⟨d :: left, right, rfl, hright, fun before c between hleft => ?_⟩
      cases before with
      | nil =>
        obtain ⟨rfl, rfl⟩ := List.cons.inj hleft
        exact hhere
      | cons e before => exact hbefore before c between (List.cons.inj hleft).2

/-- Up to the `FROM` that ends the select list, no resource is named. -/
theorem IsClause.resourceWord?_eq {clause : SelectClause} (h : IsClause clause) :
    resourceWord? (clause.head ++ clause.list ++ clause.tail) = resourceWord? clause.tail := by
  exact resourceWord?_append fun left c right => h.not_fromAt

/-! ## The items -/

/-- The depth of parentheses after a character. -/
def depthAfter (depth : Nat) (c : Char) : Nat :=
  if c = '(' then depth + 1 else if c = ')' then depth - 1 else depth

variable {depth : Nat}

@[simp] theorem itemsFrom_ne_nil (depth : Nat) (text : List Char) : itemsFrom depth text ≠ [] := by
  cases text with
  | nil => simp [itemsFrom]
  | cons c cs =>
    rw [itemsFrom]
    split
    · simp
    · dsimp only
      split <;> simp

/-- A comma outside parentheses ends an item. -/
theorem itemsFrom_comma : itemsFrom 0 (',' :: text) = [] :: itemsFrom 0 text := rfl

/-- A character that ends no item belongs to the first. -/
theorem itemsFrom_cons (text : List Char) (hc : ¬ (c = ',' ∧ depth = 0)) :
    ∃ item items, itemsFrom (depthAfter depth c) text = item :: items ∧
      itemsFrom depth (c :: text) = (c :: item) :: items := by
  obtain ⟨item, items, h⟩ :=
    List.exists_cons_of_ne_nil (itemsFrom_ne_nil (depthAfter depth c) text)
  refine ⟨item, items, h, ?_⟩
  rw [itemsFrom, if_neg hc]
  rw [depthAfter] at h
  simp only [h]

/-- **The items of a list, joined, are the list.** -/
theorem join_itemsFrom (depth : Nat) (text : List Char) : join [','] (itemsFrom depth text) = text := by
  induction text generalizing depth with
  | nil => rfl
  | cons c cs ih =>
    by_cases hc : c = ',' ∧ depth = 0
    · obtain ⟨rfl, rfl⟩ := hc
      rw [itemsFrom_comma, join_cons (itemsFrom_ne_nil 0 cs), ih]
      rfl
    · obtain ⟨item, items, hitems, hcons⟩ := itemsFrom_cons cs hc
      rw [hcons, ← cons_join, ← hitems, ih]

/-- Without parentheses, every comma ends an item. -/
theorem itemsFrom_eq_cells (h : '(' ∉ text ∧ ')' ∉ text) : itemsFrom 0 text = cells ',' text := by
  induction text with
  | nil => rfl
  | cons c cs ih =>
    simp only [List.mem_cons, not_or] at h
    have hcs := ih ⟨h.1.2, h.2.2⟩
    by_cases hc : c = ','
    · subst hc
      rw [itemsFrom_comma, cells, if_pos rfl, hcs]
    · have hends : ¬ (c = ',' ∧ 0 = 0) := fun h => hc h.1
      obtain ⟨item, items, hitems, hcons⟩ := itemsFrom_cons cs hends
      rw [depthAfter, if_neg (Ne.symm h.1.1), if_neg (Ne.symm h.2.1), hcs] at hitems
      rw [hcons, cells, if_neg hc, hitems]

/-- **Joined items are cut where they were joined.** -/
theorem itemsFrom_join {parts : List (List Char)} (hne : parts ≠ [])
    (h : ∀ part ∈ parts, ',' ∉ part ∧ '(' ∉ part ∧ ')' ∉ part) :
    itemsFrom 0 (join [','] parts) = parts := by
  have hparens : '(' ∉ join [','] parts ∧ ')' ∉ join [','] parts :=
    ⟨not_mem_join (by decide) fun part hpart => (h part hpart).2.1,
      not_mem_join (by decide) fun part hpart => (h part hpart).2.2⟩
  rw [itemsFrom_eq_cells hparens, cells_join hne fun part hpart => (h part hpart).1]

end ReportQuery.Query
