import ReportQuery.Proofs.Calendar.Text
import ReportQuery.Proofs.Macro.DenotedDay
import ReportQuery.Proofs.Macro.Order
import ReportQuery.Proofs.Macro.Printed
/-!
# Three names of yesterday

A built-in macro, a date literal and a function of expressions name yesterday, each with its own
shift and its own text. They agree on every day but one (`expand_yesterday`): the text of each
belongs to the day whose number is one less than that of today, and to no other. Only the first day
of the range has no day before it. There the literal and the function fail, but adding the built-in
macros cannot fail, so the macro has the text of the first day itself.
-/

namespace ReportQuery

open Calendar Text

variable {macros : Macros} {now : Instant} {today : Date} {name value : String}
variable {text : List Char} {e : MacroError}

namespace Macros

/-- The literals still have dates when one is set that has a date. -/
theorem DatesResolve.set (h : macros.DatesResolve today) {date : String}
    (hdate : DateLiteral.resolve name value today = .ok date) :
    DatesResolve today (Entries.set name (.text value) macros) := by
  intro n v hmem hmarked
  rcases Entries.mem_set hmem with heq | hmem
  · cases heq
    exact ⟨date, hdate⟩
  · exact h n v hmem hmarked

/-- Where all literals have dates and one is set that has none, its error is that of the run. -/
theorem expand_set_fails (h : macros.DatesResolve now.date) {value : MacroValue}
    (hfault : value.dateFault? now.date name = some e) (text : List Char) :
    (expand now (Entries.set name value macros) text).2 = .error e := by
  have hmem : (name, value) ∈ Entries.set name value macros :=
    Entries.mem_of_find? Entries.find?_set_self
  have hnot : ¬ DatesResolve now.date (Entries.set name value macros) := fun hall => by
    rw [datesResolve_iff.1 hall _ hmem] at hfault
    cases hfault
  obtain ⟨left, e', hfails, ⟨bad, hbad, hfault'⟩, -⟩ := expand_fails hnot
  obtain rfl : e' = e := by
    rcases Entries.mem_set hbad with rfl | hold
    · exact Option.some.inj (hfault'.symm.trans hfault)
    · rw [datesResolve_iff.1 h bad hold] at hfault'
      cases hfault'
  rw [hfails]

end Macros

/-- The built-in macro has the text, without dashes, of the day before. -/
theorem expand_yesterday_iso (hdates : macros.DatesResolve now.date)
    (hfree : macros.find? "yesterday_iso" = none) :
    (expand now macros (placeholderOf "yesterday_iso")).2 =
      .ok ⟨String.ofList now.date.before.compact, []⟩ := by
  have hfind : ((macros.dated now.date).addBuiltins now).find? "yesterday_iso" =
      some (.text (String.ofList now.date.before.compact)) := by
    rw [Macros.find?_prepared, hfree]
    rfl
  have hinert : Inert now.date.before.compact := by simp [Date.compact]
  have hdollar : '$' ∉ (String.ofList now.date.before.compact).toList := by
    rw [String.toList_ofList]
    exact hinert.not_dollar
  rw [expand_of_prepare (Macros.prepare_eq hdates),
    Macros.putInto_placeholderOf (by decide) (by decide) hfind hdollar, MacroValue.display,
    String.toList_ofList]

/-- The literal of yesterday. -/
theorem DateLiteral.resolve_yesterday (name : String) (today : Date) :
    resolve name ":YYYYMMDD-1" today =
      match today.minusDays? 1 with
      | some d => .ok (String.ofList d.text)
      | none => .error (.dateOutOfRange name ":YYYYMMDD-1") := by
  have hread : read name ":YYYYMMDD-1" = .ok ⟨.day, 1⟩ := by
    have hread? : read? ":YYYYMMDD-1".toList = some ⟨.day, 1⟩ := by decide
    rw [read, hread?]
  exact resolve_eq hread

/-- A literal that has a date is expanded to it. -/
theorem expand_literal {date : String} (hdates : macros.DatesResolve now.date)
    (hne : name.toList ≠ []) (hclose : '}' ∉ name.toList)
    (hmarked : DateLiteral.isMarked value.toList = true)
    (hdate : DateLiteral.resolve name value now.date = .ok date) :
    (expand now (Entries.set name (.text value) macros) (placeholderOf name)).2 =
      .ok ⟨date, []⟩ := by
  have hfind : Entries.find? name ((Macros.dated now.date
      (Entries.set name (.text value) macros)).addBuiltins now) = some (.text date) := by
    rw [Macros.find?_prepared_of_find? Entries.find?_set_self,
      MacroValue.on_of_resolve hmarked hdate]
  have hdollar : '$' ∉ (MacroValue.text date).display :=
    (DateLiteral.inert_of_resolve hdate).not_dollar
  rw [expand_of_prepare (Macros.prepare_eq (hdates.set hdate)),
    Macros.putInto_placeholderOf hne hclose hfind hdollar, MacroValue.display, String.ofList_toList]

/-- The function of yesterday. -/
theorem evaluate_yesterday (scope : Scope) :
    Expr.evaluate scope "yesterday()".toList = Builtin.dateAfter scope.now (-1) := by
  have hparse : Expr.parse "yesterday()".toList = .ok (.call "yesterday" []) := by rfl
  rw [Expr.evaluate, hparse]
  rfl

/-- A call of the function is expanded to the text of the day before, if there is one. -/
theorem expand_yesterday_call (hdates : macros.DatesResolve now.date) :
    (expand now macros (blockOf "yesterday()")).2 =
      match now.date.minusDays? 1 with
      | some d => .ok ⟨String.ofList d.text, []⟩
      | none => .error (.expression "yesterday()" .dateOutOfRange) := by
  rw [expand_of_prepare (Macros.prepare_eq hdates),
    Macros.putInto_blockOf (by decide) (by decide) (by decide), evaluate_yesterday,
    Builtin.dateAfter, Int.neg_neg]
  cases now.date.minusDays? 1 with
  | some d => simp [Value.display]
  | none => rfl

/-- **Three names of yesterday.** Where all date literals have dates, the built-in macro that is
not given, a macro with the literal and the function of expressions name the same day, on every day
but the first of the range: their texts are those of the date whose number is one less than that of
today, and of no other date. The first day has no such date; the literal and the function are out of
range there, and the built-in macro has the text of that day. -/
theorem expand_yesterday (now : Instant) (macros : Macros) (name : String)
    (hdates : macros.DatesResolve now.date) (hfree : macros.find? "yesterday_iso" = none)
    (hne : name.toList ≠ []) (hclose : '}' ∉ name.toList) :
    ((∃ d : Date, d.number = now.date.number - 1) ↔ now.date ≠ Date.first) ∧
      (now.date ≠ Date.first → ∃ iso text,
        (expand now macros (placeholderOf "yesterday_iso")).2 = .ok ⟨iso, []⟩ ∧
        (expand now (Entries.set name (.text ":YYYYMMDD-1") macros) (placeholderOf name)).2 =
          .ok ⟨text, []⟩ ∧
        (expand now macros (blockOf "yesterday()")).2 = .ok ⟨text, []⟩ ∧
        ∀ d : Date, (d.compact = iso.toList ↔ d.number = now.date.number - 1) ∧
          (d.text = text.toList ↔ d.number = now.date.number - 1)) ∧
      (now.date = Date.first →
        (expand now macros (placeholderOf "yesterday_iso")).2 =
          .ok ⟨String.ofList now.date.compact, []⟩ ∧
        (expand now (Entries.set name (.text ":YYYYMMDD-1") macros) (placeholderOf name)).2 =
          .error (.dateOutOfRange name ":YYYYMMDD-1") ∧
        (expand now macros (blockOf "yesterday()")).2 =
          .error (.expression "yesterday()" .dateOutOfRange)) := by
  have hmarked : DateLiteral.isMarked ":YYYYMMDD-1".toList = true := by decide
  have hliteral := DateLiteral.resolve_yesterday name now.date
  have hcall := expand_yesterday_call hdates
  refine ⟨Date.exists_number_eq_sub_one, fun hlater => ?_, fun hfirst => ?_⟩
  · obtain ⟨d, hd⟩ := Date.exists_number_eq_sub_one.2 hlater
    have hshift := Date.minusDays?_eq_some.2 hd
    rw [hshift] at hliteral hcall
    refine ⟨_, _, expand_yesterday_iso hdates hfree,
      expand_literal hdates hne hclose hmarked hliteral, hcall, fun d' => ?_⟩
    rw [Date.before_eq hd, String.toList_ofList, String.toList_ofList,
      Date.compact_injective.eq_iff, Date.text_injective.eq_iff, ← hd,
      Date.number_injective.eq_iff]
    exact ⟨Iff.rfl, Iff.rfl⟩
  · rw [Date.minusDays?_one_eq_none.2 hfirst] at hliteral hcall
    have hfault : (MacroValue.text ":YYYYMMDD-1").dateFault? now.date name =
        some (.dateOutOfRange name ":YYYYMMDD-1") := by
      rw [MacroValue.dateFault?, if_pos hmarked, hliteral]
    refine ⟨?_, Macros.expand_set_fails hdates hfault _, hcall⟩
    rw [expand_yesterday_iso hdates hfree, hfirst, Date.before_first]

/-- Before 1 March of a leap year is 29 February. -/
theorem expand_yesterday_leapDay :
    (expand (.midnight ⟨2024, 3, 1, by decide⟩) [("region", .text "eu")]
        (placeholderOf "yesterday_iso")).2 = .ok ⟨"20240229", []⟩ ∧
      (expand (.midnight ⟨2024, 3, 1, by decide⟩)
        (Entries.set "day" (.text ":YYYYMMDD-1") [("region", .text "eu")])
        (placeholderOf "day")).2 = .ok ⟨"2024-02-29", []⟩ ∧
      (expand (.midnight ⟨2024, 3, 1, by decide⟩) [("region", .text "eu")]
        (blockOf "yesterday()")).2 = .ok ⟨"2024-02-29", []⟩ := by
  have hdates : Macros.DatesResolve ⟨2024, 3, 1, by decide⟩ [("region", .text "eu")] := by
    intro name value hmem hmarked
    simp only [List.mem_singleton, Prod.mk.injEq, MacroValue.text.injEq] at hmem
    obtain ⟨rfl, rfl⟩ := hmem
    exact absurd hmarked (by decide)
  have hlater : (⟨2024, 3, 1, by decide⟩ : Date) ≠ Date.first := fun h =>
    absurd (congrArg Date.year h) (by decide)
  obtain ⟨-, hagree, -⟩ := expand_yesterday (.midnight ⟨2024, 3, 1, by decide⟩)
    [("region", .text "eu")] "day" hdates rfl (by decide) (by decide)
  obtain ⟨iso, text, hiso, hliteral, hcall, hday⟩ := hagree hlater
  obtain ⟨hcompact, htext⟩ := hday ⟨2024, 2, 29, by decide⟩
  have hiso' : iso = "20240229" := by
    rw [← String.toList_inj, ← hcompact.2 (by decide)]
    decide +kernel
  have htext' : text = "2024-02-29" := by
    rw [← String.toList_inj, ← htext.2 (by decide)]
    decide +kernel
  rw [hiso, hliteral, hcall, hiso', htext']
  exact ⟨rfl, rfl, rfl⟩

/-- The first day of the range has none before it. The built-in macro names that day itself, where
the literal and the function fail. -/
theorem expand_yesterday_first :
    (∀ d : Date, d.number ≠ Date.first.number - 1) ∧
      (expand (.midnight .first) [] (placeholderOf "yesterday_iso")).2 =
        .ok ⟨String.ofList Date.first.compact, []⟩ ∧
      (expand (.midnight .first) (Entries.set "day" (.text ":YYYYMMDD-1") [])
        (placeholderOf "day")).2 = .error (.dateOutOfRange "day" ":YYYYMMDD-1") ∧
      (expand (.midnight .first) [] (blockOf "yesterday()")).2 =
        .error (.expression "yesterday()" .dateOutOfRange) := by
  have hnone (d : Date) : d.number ≠ Date.first.number - 1 := fun hd =>
    Date.exists_number_eq_sub_one.1 ⟨d, hd⟩ rfl
  exact ⟨hnone, by decide +kernel⟩

end ReportQuery
