import ReportQuery.Preparation
import ReportQuery.Proofs.Macro.Substitution
import ReportQuery.Proofs.Query.Faults
import ReportQuery.Proofs.Query.Unfilled
import ReportQuery.Proofs.Schema.Walk
/-!
# Names that no macro has

A placeholder that expansion leaves alone is looked for again when the query is compiled, in
the text without comments, aliases, customizers and the last comma. A name that expansion
reports makes the preparation fail just if its placeholder still stands in that text
(`prepareQuery_unresolved`); an alias or a customizer may have taken it away.
-/

namespace ReportQuery

open Text Placeholder Outcome

variable {s : Schema} {now : Instant} {template : Option (Entries Json)} {macros after : Macros}
variable {text : List Char} {ex : Expansion} {name : String}

theorem has_of_mem_expand (h : (expand now macros text).2 = .ok ex)
    (hname : name ∈ ex.unresolved) : (expand now macros text).1.has name = false := by
  unfold expand at h ⊢
  split at h
  · cases h
  · obtain ⟨evaluated, -, h⟩ := bind_eq_ok.1 h
    cases h
    dsimp only at hname
    exact (mem_unknown.1 hname).1

/-- A name that is reported has no macro. -/
theorem has_of_mem_unresolved (h : expandQuery now template macros text = (after, .ok ex))
    (hname : name ∈ ex.unresolved) : after.has name = false := by
  rw [expandQuery] at h
  split at h
  · cases h
  · obtain ⟨rfl, hex⟩ := Prod.mk.inj h
    exact has_of_mem_expand (mapError_eq_ok.1 hex) hname

theorem prepareQuery_of_expandQuery (h : expandQuery now template macros text = (after, .ok ex)) :
    (prepareQuery s now template macros text).2 = compileExpansion s after ex := by
  simp only [prepareQuery, h, Except.bind]

theorem compileExpansion_eq_error {cause : QueryError} :
    compileExpansion s after ex = .error (.compilation cause) ↔
      Query.compile s after.texts ex.text.toList = .error cause := by
  rw [compileExpansion]
  split <;> simp_all

/-- **When a name without a macro is refused.** A name that expansion reports is among those
that preparation fails with just if its placeholder stands in the cleaned text. The placeholder of
an unbroken name that stands in the text without comments does so, as long as no customizer
has a brace in it. -/
theorem prepareQuery_unresolved (s : Schema) (now : Instant) (template : Option (Entries Json))
    (macros after : Macros) (text : List Char) (ex : Expansion)
    (h : expandQuery now template macros text = (after, .ok ex)) :
    ∀ name ∈ ex.unresolved,
      ((∃ names, (prepareQuery s now template macros text).2 =
          .error (.compilation (.unresolvedParameters names)) ∧ name ∈ names) ↔
        Stands name.toList (Query.cleaned (Query.stripComments ex.text.toList))) ∧
      (Query.Unbroken name.toList → Query.ClearCustomizers (Query.stripComments ex.text.toList) →
        Stands name.toList (Query.stripComments ex.text.toList) →
        ∃ names, (prepareQuery s now template macros text).2 =
          .error (.compilation (.unresolvedParameters names)) ∧ name ∈ names) := by
  intro name hname
  have hiff : (∃ names, (prepareQuery s now template macros text).2 =
        .error (.compilation (.unresolvedParameters names)) ∧ name ∈ names) ↔
      Stands name.toList (Query.cleaned (Query.stripComments ex.text.toList)) := by
    have hknown : after.texts.has name = false := by
      rw [Macros.has_texts, has_of_mem_unresolved h hname]
    simp only [prepareQuery_of_expandQuery h, compileExpansion_eq_error,
      Query.compile_unresolved_iff]
    constructor
    · rintro ⟨names, ⟨hnames, -⟩, hmem⟩
      rw [hnames] at hmem
      exact (mem_unknown_anywhere.1 hmem).2
    · intro hstands
      have hmem : name ∈ unknown anywhere after.texts.has
          (Query.cleaned (Query.stripComments ex.text.toList)) :=
        mem_unknown_anywhere.2 ⟨hknown, hstands⟩
      exact ⟨_, ⟨rfl, List.ne_nil_of_mem hmem⟩, hmem⟩
  exact ⟨hiff, fun hunbroken hclear hstands =>
    hiff.2 ((Query.keeps_cleaned hunbroken hclear).stands hstands)⟩

/-- A query with an alias, a customizer and a placeholder in its filter. -/
def sampleQuery : String :=
  "SELECT campaign.id AS x, campaign.caps:limit FROM campaign WHERE campaign.id = {n}"

/-- Without a macro for the placeholder in its filter, the query is refused. -/
theorem prepareQuery_unresolved_sample :
    (expandQuery .sample none [] sampleQuery.toList).2 = .ok ⟨sampleQuery, ["n"]⟩ ∧
      ∃ names, (prepareQuery .sample .sample none [] sampleQuery.toList).2 =
        .error (.compilation (.unresolvedParameters names)) ∧ "n" ∈ names := by
  have hexpand : (expandQuery .sample none [] sampleQuery.toList).2 = .ok ⟨sampleQuery, ["n"]⟩ := by
    decide +kernel
  have hunbroken : Query.Unbroken "n".toList := by
    intro c hc
    obtain rfl : c = 'n' := by simpa using hc
    decide
  have hclear : Query.ClearCustomizers (Query.stripComments sampleQuery.toList) := by
    have hclause : Query.selectClause? (Query.stripComments sampleQuery.toList) =
        some ⟨"SELECT".toList, " campaign.id AS x, campaign.caps:limit".toList,
          " FROM campaign WHERE campaign.id = {n}".toList⟩ := by decide +kernel
    have hpieces : ∀ part ∈ parts (fun _ t => Query.customizerLength t)
        (Query.without Query.aliasLength " campaign.id AS x, campaign.caps:limit".toList),
        part.text.all (fun c => !isBrace c) = true := by decide +kernel
    intro clause hsome p hp c hc
    obtain rfl := Option.some.inj (hclause.symm.trans hsome)
    simpa using List.all_eq_true.1 (hpieces _ hp) c hc
  have hstands : Stands "n".toList (Query.stripComments sampleQuery.toList) :=
    mem_parts_iff.1 (by decide +kernel)
  have hrun : expandQuery .sample none [] sampleQuery.toList =
      ((expandQuery .sample none [] sampleQuery.toList).1, .ok ⟨sampleQuery, ["n"]⟩) := by
    rw [← hexpand]
  exact ⟨hexpand, (prepareQuery_unresolved .sample .sample none [] _ sampleQuery.toList _ hrun "n"
    List.mem_cons_self).2 hunbroken hclear hstands⟩

/-- A placeholder behind an alias is taken away, and the query is compiled. -/
theorem prepareQuery_unresolved_fails :
    ∃ ex, (expandQuery .sample none [] "SELECT campaign.id AS x:{n} FROM campaign".toList).2 =
        .ok ex ∧ "n" ∈ ex.unresolved ∧ "{n}".toList <:+: Query.stripComments ex.text.toList ∧
      ((prepareQuery .sample .sample none []
          "SELECT campaign.id AS x:{n} FROM campaign".toList).2.toOption.map
        fun q => q.compiled.text) = some "SELECT campaign.id FROM campaign" := by
  have hinfix : "{n}".toList <:+:
      Query.stripComments "SELECT campaign.id AS x:{n} FROM campaign".toList :=
    ⟨"SELECT campaign.id AS x:".toList, " FROM campaign".toList, by decide +kernel⟩
  exact ⟨⟨"SELECT campaign.id AS x:{n} FROM campaign", ["n"]⟩, by decide +kernel, by decide, hinfix,
    by decide +kernel⟩

end ReportQuery
