import ReportQuery.Proofs.Query.Clause
import ReportQuery.Proofs.Query.Columns
/-!
# Which `FROM` names the resource

The first `FROM` that counts ends the select list, and the search for the resource comes to the
same one first. It passes on to a later `FROM` just if a comma or a semicolon stands where
the resource should (`IsUnnamed`), and then the select list and the resource are those of two
different ones (`compile_named_fails`).
-/

namespace ReportQuery.Query

open Text Outcome

variable {b c : Char} {text tail word gap right rest resource : List Char} {clause : SelectClause}
variable {s : Schema} {parameters : Entries String} {q : CompiledQuery}

/-- The `FROM` in front of a text names a resource: the word that follows it. -/
def Names (tail resource : List Char) : Prop :=
  ∃ b word gap rest, ResourceParts tail resource b word gap rest

/-- A comma or a semicolon follows the `FROM` in front of a text, and so no word does. -/
def IsUnnamed (tail : List Char) : Prop :=
  ∃ b word c rest, FromParts tail b word c rest ∧
    ((trimStart rest).head? = some ',' ∨ (trimStart rest).head? = some ';')

theorem names_iff : Names tail resource ↔ resourceAt? tail = some resource :=
  resourceAt?_eq_some.symm

theorem resourceAt?_of_isUnnamed (h : IsUnnamed tail) : resourceAt? tail = none := by
  obtain ⟨b, word, c, rest, hparts, hmark⟩ := h
  obtain ⟨mark, hhead, hstop⟩ : ∃ mark, (trimStart rest).head? = some mark ∧
      isResourceChar mark = false := by
    rcases hmark with hmark | hmark
    · exact ⟨_, hmark, by decide⟩
    · exact ⟨_, hmark, by decide⟩
  obtain ⟨after, hafter⟩ := List.head?_eq_some_iff.1 hhead
  have hnone : (trimStart rest).takeWhile isResourceChar = [] := by
    rw [hafter, List.takeWhile_cons_of_neg (by simp [hstop])]
  rw [hparts.resourceAt?_eq, if_pos hnone]

/-- Blanks after a `FROM`, and nothing else, name no resource. -/
theorem FromParts.resourceWord?_of_blank (h : FromParts tail b word c rest)
    (hrest : ∀ d ∈ rest, isBlank d = true) : resourceWord? tail = none := by
  have hblank : ∀ d ∈ c :: rest, isBlank d = true := by
    intro d hd
    rcases List.mem_cons.1 hd with rfl | hd
    · exact h.after
    · exact hrest d hd
  have hnil : trimStart rest = [] := List.dropWhile_eq_nil_iff.2 hrest
  have hhere : resourceAt? tail = none := by
    rw [h.resourceAt?_eq, hnil]
    rfl
  have hnoFrom : NoFrom (c :: rest) := by
    intro found hfound
    have hwords : words (c :: rest ++ []) = words [] := words_gap hblank
    rw [List.append_nil] at hwords
    rw [hwords] at hfound
    cases hfound
  -- neither a letter of the keyword nor a blank of the gap has a `FROM` behind it
  have hword : resourceWord? (word ++ (c :: rest)) = resourceWord? (c :: rest) := by
    refine resourceWord?_append fun left d between hleft => ?_
    rw [List.cons_append, fromAt_cons]
    rintro ⟨hd, -⟩
    have hletter := h.spells.isWord isAsciiLetter_from d (by rw [hleft]; simp)
    rw [isBlank_of_isWord hletter] at hd
    cases hd
  have hgap : resourceWord? (c :: rest ++ []) = resourceWord? [] :=
    resourceWord?_append fun left d between hleft => (hleft ▸ hnoFrom).not_fromAt rfl
  rw [List.append_nil] at hgap
  rw [h.eq] at hhere ⊢
  rw [resourceWord?, hhere, Option.none_or, hword, hgap]
  rfl

/-- **The first `FROM` names the resource**, unless a comma or a semicolon follows it. -/
theorem FromAt.names_iff (h : FromAt tail) (hresource : resourceWord? tail = some resource) :
    Names tail resource ↔ ¬ IsUnnamed tail := by
  rw [Query.names_iff]
  constructor
  · intro hnames hunnamed
    rw [resourceAt?_of_isUnnamed hunnamed] at hnames
    cases hnames
  · intro hunnamed
    obtain ⟨b, word, c, rest, hparts⟩ := fromAt_iff.1 h
    have hat := hparts.resourceAt?_eq
    by_cases hnil : (trimStart rest).takeWhile isResourceChar = []
    · exfalso
      cases hrest : trimStart rest with
      | nil =>
        have hblank := isBlank_of_trimStart_eq_nil hrest
        rw [hparts.resourceWord?_of_blank hblank] at hresource
        cases hresource
      | cons d ds =>
        -- what is neither a blank nor a part of a resource is a comma or a semicolon
        have hd : isBlank d = false := isBlank_head_trimStart hrest
        have hchar : isResourceChar d = false := by
          by_contra hchar
          rw [Bool.not_eq_false] at hchar
          rw [hrest, List.takeWhile_cons_of_pos hchar] at hnil
          cases hnil
        have hmark : d = ',' ∨ d = ';' := by
          simp only [isResourceChar, hd, Bool.not_false, Bool.true_and, Bool.and_eq_false_iff,
            decide_eq_false_iff_not, not_not] at hchar
          exact hchar
        refine hunnamed ⟨b, word, c, rest, hparts, ?_⟩
        rw [hrest, List.head?_cons, Option.some.injEq, Option.some.injEq]
        exact hmark
    · rw [if_neg hnil] at hat
      have hfound := resourceWord?_of_resourceAt? hat
      rw [hresource] at hfound
      rw [hat, Option.some.inj hfound]

/-- Otherwise a later one does. -/
theorem IsUnnamed.exists_later (h : IsUnnamed tail) (hresource : resourceWord? tail = some resource) :
    ∃ passed later, tail = passed ++ later ∧ passed ≠ [] ∧ Names later resource := by
  obtain ⟨passed, later, htail, hlater, -⟩ := exists_of_resourceWord? hresource
  refine ⟨passed, later, htail, ?_, names_iff.2 hlater⟩
  rintro rfl
  rw [List.nil_append] at htail
  rw [← htail, resourceAt?_of_isUnnamed h] at hlater
  cases hlater

/-- **Which `FROM` names the resource** of a query that compiles. It is the one that ends the
select list just if neither a comma nor a semicolon follows that one, and a later one
otherwise. -/
theorem compile_named_iff (h : compile s parameters text = .ok q) :
    ∃ clause, selectClause? (stripComments text) = some clause ∧
      (Names clause.tail q.source.name.toList ↔ ¬ IsUnnamed clause.tail) ∧
      (IsUnnamed clause.tail → ∃ passed later, clause.tail = passed ++ later ∧ passed ≠ [] ∧
        Names later q.source.name.toList) := by
  obtain ⟨sent, selected, -, -, hselected, -, hsource, -⟩ := compile_eq_ok h
  obtain ⟨clause, hclause, -, -⟩ := selectItems_eq_ok hselected
  obtain ⟨hquery, hparts⟩ := selectClause?_eq_some.1 hclause
  obtain ⟨hword, -⟩ := source_eq_ok hsource
  rw [hquery, hparts.resourceWord?_eq] at hword
  exact ⟨clause, hclause, hparts.tail.names_iff hword, fun hunnamed => hunnamed.exists_later hword⟩

/-- A resource that another `FROM` follows later on is named by the first. -/
theorem compile_named_iff_sample :
    ∃ q, compile .sample [] "SELECT campaign.id FROM campaign WHERE x = ' from y'".toList = .ok q ∧
      ∃ clause, selectClause? (stripComments
        "SELECT campaign.id FROM campaign WHERE x = ' from y'".toList) = some clause ∧
        ¬ IsUnnamed clause.tail ∧ Names clause.tail q.source.name.toList := by
  have hrun : (compile .sample []
      "SELECT campaign.id FROM campaign WHERE x = ' from y'".toList).toOption.map
        (fun q => q.source.name) = some "campaign" := by
    decide +kernel
  obtain ⟨q, hq, hname⟩ := Option.map_eq_some_iff.1 hrun
  rw [toOption_eq_some] at hq
  obtain ⟨clause, hclause, hiff, -⟩ := compile_named_iff hq
  have hfound : selectClause? (stripComments
      "SELECT campaign.id FROM campaign WHERE x = ' from y'".toList) =
        some ⟨"SELECT".toList, " campaign.id".toList,
          " FROM campaign WHERE x = ' from y'".toList⟩ := by decide +kernel
  have hsame := hclause.symm.trans hfound
  cases hsame
  have hnames : Names " FROM campaign WHERE x = ' from y'".toList q.source.name.toList := by
    rw [hname]
    exact names_iff.2 (by decide +kernel)
  exact ⟨q, hq, _, hclause, hiff.1 hnames, hnames⟩

/-- **A `FROM` without a word after it is passed over.** The list ends at the first `FROM`, and the
resource is that of the second. -/
theorem compile_named_fails :
    ∃ q, compile .sample [] "SELECT campaign.id FROM , x FROM campaign".toList = .ok q ∧
      q.source.name = "campaign" ∧
      ∃ clause, selectClause? (stripComments "SELECT campaign.id FROM , x FROM campaign".toList) =
          some clause ∧ clause.tail = " FROM , x FROM campaign".toList ∧
        ¬ Names clause.tail q.source.name.toList := by
  have hrun : (compile .sample []
      "SELECT campaign.id FROM , x FROM campaign".toList).toOption.map (fun q => q.source.name) =
        some "campaign" := by
    decide +kernel
  obtain ⟨q, hq, hname⟩ := Option.map_eq_some_iff.1 hrun
  rw [toOption_eq_some] at hq
  have hfound : selectClause? (stripComments "SELECT campaign.id FROM , x FROM campaign".toList) =
      some ⟨"SELECT".toList, " campaign.id".toList, " FROM , x FROM campaign".toList⟩ := by
    decide +kernel
  refine ⟨q, hq, hname, _, hfound, rfl, fun hnames => ?_⟩
  have hnone : resourceAt? " FROM , x FROM campaign".toList = none := by decide +kernel
  have hsome := names_iff.1 hnames
  rw [hnone] at hsome
  cases hsome

end ReportQuery.Query
