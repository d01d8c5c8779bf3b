import ReportQuery.Proofs.Macro.Settled
import ReportQuery.Query.Normal
/-!
# Filling in a second time

A text that has been filled in is read again: by a later run, and by the strict pass that
makes the text of a query. The values now stand next to braces that were left over, and both
readings could take a placeholder for what was none. They do not, for an opening brace is left
over if no closing brace follows it at all, or if one follows directly; either is still so when
the rest has been filled in (`Filled.not_starts`). Hence the placeholders that are left are
those without a value (`Filled.names_eq`), as long as no value brings an opening brace with
it. A closing brace does no harm.

So a second run leaves such a text alone, and the strict pass refuses the names that the first
run has reported, or else leaves the text alone too (`expand_again`).
-/

namespace ReportQuery

open Text Placeholder

variable {value : String → Option (List Char)} {text out cs : List Char} {c : Char}
variable {macros : Macros} {now : Instant} {entry : String × MacroValue}

/-! ## The placeholders that are left -/

namespace Filled

/-- Without a closing brace there is nothing to fill in. -/
theorem eq_of_not_mem (h : Filled value text out) (hclose : '}' ∉ text) : out = text := by
  induction h with
  | nil => rfl
  | kept _ _ ih => rw [ih fun hmem => hclose (List.mem_cons_of_mem _ hmem)]
  | known hstarts _ _ _ | unknown hstarts _ _ _ =>
    rw [hstarts.text_eq] at hclose
    exact absurd (by simp) hclose

/-- **A brace that is left over stays so** when the text after it is filled in, whatever
the values are. -/
theorem not_starts (h : Filled value cs out) (hno : ∀ name rest, ¬ Starts name rest (c :: cs)) :
    ∀ name rest, ¬ Starts name rest (c :: out) := by
  intro name rest hstarts
  by_cases hclose : '}' ∈ cs
  · obtain ⟨between, after, rfl, hbetween⟩ := List.eq_append_cons_of_mem hclose
    obtain ⟨rfl, hout⟩ := List.cons.inj hstarts.text_eq
    -- a first closing brace further on would make a placeholder of what is between
    obtain rfl : between = [] :=
      Decidable.byContradiction fun hne => hno between after ⟨rfl, hne, hbetween⟩
    obtain ⟨out', rfl, -⟩ := h.of_not_starts fun name rest hstarts => by
      cases hstarts.text_eq
    obtain ⟨d, ds, rfl⟩ := List.exists_cons_of_ne_nil hstarts.name_ne_nil
    obtain ⟨rfl, -⟩ := List.cons.inj hout
    exact hstarts.not_mem List.mem_cons_self
  · rw [h.eq_of_not_mem hclose] at hstarts
    exact hno name rest hstarts

/-- **The placeholders that are left** are those without a value, in their order. -/
theorem names_eq (h : Filled value text out)
    (hvalue : ∀ name filling, value name = some filling → '{' ∉ filling) :
    names anywhere out = (names anywhere text).filter fun name => (value name).isNone := by
  induction h with
  | nil => rfl
  | kept hno hrest ih => rw [names_kept hno, names_kept (hrest.not_starts hno), ih]
  | known hstarts hfilling _ ih =>
    obtain ⟨rfl, hne, hmem⟩ := hstarts
    rw [names_append (hvalue _ _ hfilling), names_starts hne hmem,
      List.filter_cons_of_neg (by simp [hfilling]), ih]
  | unknown hstarts hnone _ ih =>
    obtain ⟨rfl, hne, hmem⟩ := hstarts
    rw [names_starts hne hmem, names_starts hne hmem, List.filter_cons_of_pos (by simp [hnone]), ih]

end Filled

/-! ## Values that open nothing -/

/-- Neither a placeholder nor an expression block can start in the text. -/
def Inert (text : List Char) : Prop := ∀ c ∈ text, c ≠ '{' ∧ c ≠ '$'

@[simp] theorem inert_nil : Inert [] := List.forall_mem_nil _

@[simp] theorem inert_cons : Inert (c :: text) ↔ (c ≠ '{' ∧ c ≠ '$') ∧ Inert text :=
  List.forall_mem_cons

@[simp] theorem inert_append : Inert (text ++ out) ↔ Inert text ∧ Inert out :=
  List.forall_mem_append

namespace Inert

theorem not_brace (h : Inert text) : '{' ∉ text := fun hmem => (h _ hmem).1 rfl

theorem not_dollar (h : Inert text) : '$' ∉ text := fun hmem => (h _ hmem).2 rfl

theorem of_isDigit (h : ∀ c ∈ text, isDigit c = true) : Inert text := by
  intro c hc
  have hdigit := h c hc
  constructor
  · rintro rfl
    exact absurd hdigit (by decide)
  · rintro rfl
    exact absurd hdigit (by decide)

@[simp] theorem natDigits (n : Nat) : Inert (natDigits n) :=
  of_isDigit fun _ hc => isDigit_of_mem_natDigits hc

@[simp] theorem paddedDigits (width n : Nat) : Inert (paddedDigits width n) :=
  of_isDigit fun _ hc => isDigit_of_mem_paddedDigits hc

theorem intDigits (i : Int) : Inert (intDigits i) := by
  obtain ⟨n, h | h⟩ := intDigits_eq i
  · simp [h]
  · simp [h]

@[simp] theorem replicate_zero (n : Nat) : Inert (List.replicate n '0') := by
  intro c hc
  rw [List.eq_of_mem_replicate hc]
  decide

theorem signed {negative : Bool} (h : Inert text) : Inert (Decimal.signed negative text) := by
  rw [Decimal.signed]
  split
  · simpa using h
  · exact h

theorem positional {digits : List Char} (h : Inert digits) (point : Int) :
    Inert (Decimal.positional digits point) := by
  have htake : Inert (digits.take point.toNat) := fun c hc => h c (List.mem_of_mem_take hc)
  have hdrop : Inert (digits.drop point.toNat) := fun c hc => h c (List.mem_of_mem_drop hc)
  rw [Decimal.positional]
  split
  · simpa using h
  · split
    · simpa using h
    · simpa using ⟨htake, hdrop⟩

theorem plain (x : Float) : Inert (Decimal.plain x) := by
  rw [Decimal.plain]
  split
  · simp
  · exact signed (by simp)
  · exact signed (by simp)
  · exact signed (positional (natDigits _) _)

@[simp] theorem yearText (year : Int) : Inert (Date.yearText year) := by
  rw [Date.yearText]
  split
  · exact paddedDigits _ _
  · split <;> simp

@[simp] theorem dateText (d : Date) : Inert d.text := by simp [Date.text]

end Inert

/-- A date that a literal resolves to opens nothing. -/
theorem DateLiteral.inert_of_resolve {name value date : String} {today : Date}
    (h : resolve name value today = .ok date) : Inert date.toList := by
  obtain ⟨l, -, h⟩ := Outcome.bind_eq_ok.1 h
  split at h
  · next d _ =>
    cases h
    rw [String.toList_ofList]
    exact .dateText d
  · cases h

/-- Numbers and truth values open nothing by themselves. -/
theorem MacroValue.inert_display {value : MacroValue}
    (h : ∀ s, value = .text s → Inert s.toList) : Inert value.display := by
  cases value with
  | text s => exact h s rfl
  | int i => exact .intDigits _
  | double x => exact .plain x
  | bool b => cases b <;> simp [display, boolText]

namespace Macros

/-- No text among the macros opens anything. -/
def AllInert (macros : Macros) : Prop :=
  ∀ name value, (name, .text value) ∈ macros → Inert value.toList

theorem AllInert.display (h : macros.AllInert) (hentry : entry ∈ macros) :
    Inert entry.2.display :=
  MacroValue.inert_display fun s hs => h entry.1 s (hs ▸ hentry)

theorem inert_builtins {b : String × String} (h : b ∈ builtins now) : Inert b.2.toList := by
  simp only [builtins, List.mem_cons, List.not_mem_nil, or_false] at h
  rcases h with rfl | rfl | rfl | rfl
  all_goals
    rw [String.toList_ofList]
    simp [Date.compact, Instant.text]

/-- Neither the dates of date literals nor the built-in macros open anything. -/
theorem AllInert.prepared (h : macros.AllInert) (hdates : macros.DatesResolve now.date) :
    AllInert ((macros.dated now.date).addBuiltins now) := by
  intro name value hmem
  rcases text_of_mem_prepared hdates hmem with ⟨hgiven, -⟩ | ⟨_, hdate⟩ | ⟨b, hb, rfl⟩
  · exact h name value hgiven
  · exact DateLiteral.inert_of_resolve hdate
  · exact inert_builtins hb

end Macros

/-! ## The second reading -/

theorem names_unmarked (h : '$' ∉ text) : names unmarked text = names anywhere text := by
  rw [names, names, parts, parts, partsFrom_unmarked (by simp) h]

theorem Macros.filled (macros : Macros) (htext : '$' ∉ text) :
    Filled (fun name => (macros.find? name).map MacroValue.display) text
      (fillPlaceholders macros text) :=
  Filled.fillPlaceholders (fun _ => rfl) htext

namespace Macros.AllInert

/-- Every value that is put in is that of a macro. -/
theorem inert_of_find? {name : String} {filling : List Char} (h : macros.AllInert)
    (hfilling : (macros.find? name).map MacroValue.display = some filling) : Inert filling := by
  obtain ⟨value, hvalue, rfl⟩ := Option.map_eq_some_iff.1 hfilling
  exact h.display (Entries.mem_of_find? hvalue)

theorem not_dollar (h : macros.AllInert) (htext : '$' ∉ text) :
    '$' ∉ fillPlaceholders macros text := by
  exact (macros.filled htext).not_dollar htext fun _ _ hfilling =>
    (h.inert_of_find? hfilling).not_dollar

/-- The names that are left are those of the text that no macro has. -/
theorem names_eq (h : macros.AllInert) (htext : '$' ∉ text) :
    names anywhere (fillPlaceholders macros text) =
      (names anywhere text).filter fun name => !macros.has name := by
  rw [(macros.filled htext).names_eq fun _ _ hfilling => (h.inert_of_find? hfilling).not_brace]
  refine List.filter_congr fun name _ => ?_
  rw [Option.isNone_map, Entries.has, Option.not_isSome]

/-- **The same names are reported** again. -/
theorem unknown_eq (h : macros.AllInert) (htext : '$' ∉ text) :
    unknown anywhere macros.has (fillPlaceholders macros text) =
      unknown anywhere macros.has text := by
  rw [Placeholder.unknown_eq, Placeholder.unknown_eq, h.names_eq htext, List.filter_filter]
  simp

/-- **Filling in again changes nothing.** -/
theorem fillPlaceholders_eq (h : macros.AllInert) (htext : '$' ∉ text) :
    fillPlaceholders macros (fillPlaceholders macros text) = fillPlaceholders macros text := by
  rw [fillPlaceholders]
  refine replace_eq_self fun p hp => ?_
  have hname := mem_names.2 ⟨p, hp, rfl⟩
  rw [names_unmarked (h.not_dollar htext), h.names_eq htext, List.mem_filter] at hname
  have hnone : macros.find? (Placeholder.name p) = none := by simpa [Entries.has] using hname.2
  rw [hnone]

/-- Nothing is evaluated in a text without dollar signs. -/
theorem putInto_eq (h : macros.AllInert) (htext : '$' ∉ text) :
    macros.putInto now text =
      .ok ⟨String.ofList (fillPlaceholders macros text), unknown anywhere macros.has text⟩ := by
  have hblockless := Blockless.of_not_dollar (h.not_dollar htext)
  have hunknown : unknown unmarked macros.has text = unknown anywhere macros.has text := by
    rw [Placeholder.unknown_eq, Placeholder.unknown_eq, names_unmarked htext]
  rw [putInto, hblockless.evalBlocks_eq, hunknown]
  rfl

/-- **The strict pass** refuses the names that have been reported. Where none is, it finds
nothing to fill in. -/
theorem fillIn_eq (h : macros.AllInert) (htext : '$' ∉ text) :
    Query.fillIn macros.texts (fillPlaceholders macros text) =
      if unknown anywhere macros.has text = [] then .ok (fillPlaceholders macros text)
      else .error (.unresolvedParameters (unknown anywhere macros.has text)) := by
  have hhas : macros.texts.has = macros.has := funext fun name => has_texts macros
  rw [Query.fillIn, hhas, h.unknown_eq htext]
  split
  · next hnil =>
    rw [if_pos hnil]
    refine congrArg _ (replace_eq_self fun p hp => ?_)
    -- a placeholder that is left has a name that would have been reported
    have hname := mem_names.2 ⟨p, hp, rfl⟩
    rw [h.names_eq htext, ← mem_distinct, ← Placeholder.unknown_eq, hnil] at hname
    cases hname
  · next hne => rw [if_neg hne]

end Macros.AllInert

/-- **A run that has been made can be made again.** Let a text have no dollar sign, let all date
literals among the macros have dates, and no value an opening brace or a dollar sign. Then the first
run fills in the text with what its names stand for, and reports the others. A second run on
what came of it, at any time and with the macros that the first has left behind, leaves the same
text and reports the same names. And where the text of the query needs no cleaning, the
strict pass refuses these names, in their order, or leaves the text as it is if there are none. -/
theorem expand_again (now : Instant) (macros : Macros) (text : List Char)
    (htext : '$' ∉ text) (hdates : macros.DatesResolve now.date) (hinert : macros.AllInert) :
    ∃ after result, expand now macros text = (after, .ok result) ∧
      Filled (macros.standsFor now) text result.text.toList ∧
      (∀ now', expand now' after result.text.toList = (after, .ok result)) ∧
      (Query.cleaned result.text.toList = result.text.toList →
        Query.normalize after.texts result.text.toList =
          if result.unresolved = [] then .ok result.text.toList
          else .error (.unresolvedParameters result.unresolved)) := by
  obtain ⟨after, hprepare, hvalue⟩ := Macros.prepare_of_resolve hdates
  obtain rfl : (macros.dated now.date).addBuiltins now = after :=
    congrArg Prod.fst ((Macros.prepare_eq hdates).symm.trans hprepare)
  have hprepared := hinert.prepared hdates
  have hsettled := Macros.settled_of_resolve hdates
  generalize (macros.dated now.date).addBuiltins now = after at hprepare hvalue hprepared hsettled
  refine ⟨after, ⟨String.ofList (fillPlaceholders after text), unknown anywhere after.has text⟩,
    ?_, ?_, fun now' => ?_, fun hcleaned => ?_⟩
  · rw [expand_of_prepare hprepare, hprepared.putInto_eq htext]
  · rw [String.toList_ofList]
    exact Filled.fillPlaceholders hvalue htext
  · rw [String.toList_ofList, expand_of_prepare hsettled.prepare_eq,
      hprepared.putInto_eq (hprepared.not_dollar htext), hprepared.fillPlaceholders_eq htext,
      hprepared.unknown_eq htext]
  · rw [Query.normalize, hcleaned, String.toList_ofList, hprepared.fillIn_eq htext]

/-- A date literal, and a value with a closing brace. -/
def Macros.inertSample : Macros := [("day", .text ":YYYYMMDD-1"), ("region", .text "eu\x7d")]

/-- A text with empty braces, doubled braces and a last brace that is not closed. -/
def braceText : String := "SELECT a FROM b WHERE {}{region} < \x7b{region} AND c = {day}{u} \x7b"

/-- What becomes of it. -/
def braceExpansion : Expansion :=
  ⟨"SELECT a FROM b WHERE {}eu\x7d < \x7b{region} AND c = 2024-03-14{u} \x7b", ["\x7bregion", "u"]⟩

/-- Values next to braces, read again on another day and by the strict pass. -/
theorem expand_again_sample :
    ∃ after, expand .sample .inertSample braceText.toList = (after, .ok braceExpansion) ∧
      Filled (Macros.standsFor .sample .inertSample) braceText.toList braceExpansion.text.toList ∧
      expand (.midnight ⟨2025, 1, 1, by decide⟩) after braceExpansion.text.toList =
        (after, .ok braceExpansion) ∧
      Query.normalize after.texts braceExpansion.text.toList =
        .error (.unresolvedParameters ["\x7bregion", "u"]) := by
  have hdates : Macros.DatesResolve Instant.sample.date .inertSample := by
    intro name value hmem hmarked
    rcases List.mem_pair.1 hmem with heq | heq
    · cases heq
      exact ⟨"2024-03-14", by decide +kernel⟩
    · cases heq
      exact absurd hmarked (by decide)
  have hinert : Macros.inertSample.AllInert := by
    intro name value hmem
    rcases List.mem_pair.1 hmem with heq | heq
    · cases heq
      simp
    · cases heq
      simp
  have hcleaned : Query.cleaned braceExpansion.text.toList = braceExpansion.text.toList := by
    decide +kernel
  have hresult : (expand .sample .inertSample braceText.toList).2 = .ok braceExpansion := by
    decide +kernel
  obtain ⟨after, result, hrun, hfilled, hagain, hstrict⟩ :=
    expand_again .sample .inertSample braceText.toList (by decide) hdates hinert
  rw [hrun, Except.ok.injEq] at hresult
  subst hresult
  exact ⟨after, hrun, hfilled, hagain _, hstrict hcleaned⟩

end ReportQuery
