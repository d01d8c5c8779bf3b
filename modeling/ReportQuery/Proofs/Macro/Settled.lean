import ReportQuery.Preparation
import ReportQuery.Proofs.Calendar.Day
import ReportQuery.Proofs.Macro.Substitution
import ReportQuery.Proofs.Outcome
/-!
# Macros that have settled

Preparing the macros replaces date literals and adds built-in macros, and reads nothing but
the macros and the clock (`IsPreparation`). No date looks like a date literal, whatever its
year, and neither does a built-in macro. So prepared macros have settled (`Settled`): every
later use finds nothing to resolve and nothing to add, and leaves them alone, whatever its
clock, its text and its outcome. One use keeps them (`Use.run_of_settled`), hence any number
of uses does (`session_of_settled`).
-/

namespace ReportQuery

open Text Outcome

variable {macros after : Macros} {now now' : Instant} {today : Date} {name value : String}
variable {text : List Char} {entry : String × MacroValue}

/-! ## Dates are no date literals -/

theorem DateLiteral.isMarked_of_ne {c : Char} (h : c ≠ ':') : isMarked (c :: text) = false := by
  rw [isMarked, after?, if_neg h.symm]
  rfl

namespace Date

/-- Nothing that starts with a year is marked as a date literal. -/
theorem isMarked_yearText_append (year : Int) :
    DateLiteral.isMarked (yearText year ++ text) = false := by
  obtain ⟨c, cs, hyear, hc⟩ := exists_yearText_eq year
  rw [hyear]
  exact DateLiteral.isMarked_of_ne hc

theorem isMarked_text (d : Date) : DateLiteral.isMarked d.text = false :=
  isMarked_yearText_append d.year

end Date

/-- **What a date literal resolves to is no date literal.** -/
theorem DateLiteral.isMarked_of_resolve {date : String}
    (h : DateLiteral.resolve name value today = .ok date) : isMarked date.toList = false := by
  obtain ⟨l, -, h⟩ := bind_eq_ok.1 h
  split at h
  · next d _ =>
    cases h
    rw [String.toList_ofList]
    exact d.isMarked_text
  · cases h

/-! ## The built-in macros -/

namespace Macros

/-- The names of the built-in macros. -/
def builtinNames : List String := ["date_iso", "yesterday_iso", "current_date", "current_datetime"]

theorem names_builtins (now : Instant) : Entries.names (builtins now) = builtinNames := rfl

/-- No built-in macro is a date literal. -/
theorem isMarked_of_mem_builtins {b : String × String} (h : b ∈ builtins now) :
    DateLiteral.isMarked b.2.toList = false := by
  simp only [builtins, List.mem_cons, List.not_mem_nil, or_false] at h
  rcases h with rfl | rfl | rfl | rfl
  all_goals
    rw [String.toList_ofList]
    simp only [Date.compact, Date.text, Instant.text, List.append_assoc]
    exact Date.isMarked_yearText_append _

/-- **What is added**: the built-in macros whose names are not given, in their order. -/
theorem addBuiltins_eq (now : Instant) (macros : Macros) :
    macros.addBuiltins now = macros ++ ((builtins now).filter fun b => !macros.has b.1).map
      fun b => (b.1, .text b.2) := by
  have hnodup : (Entries.names (builtins now)).Nodup := by
    rw [names_builtins]
    decide
  rw [addBuiltins]
  -- what has been added so far does not give a name that is still to come
  generalize builtins now = added at hnodup
  induction added generalizing macros with
  | nil => simp
  | cons b added ih =>
    rw [Entries.names, List.map_cons, List.nodup_cons] at hnodup
    rw [List.foldl_cons]
    split
    · next hhas => rw [ih macros hnodup.2, List.filter_cons_of_neg (by simp [hhas])]
    · next hhas =>
      have hsame : added.filter (fun b' => !(macros ++ [(b.1, MacroValue.text b.2)]).has b'.1) =
          added.filter fun b' => !macros.has b'.1 := by
        refine List.filter_congr fun b' hb' => ?_
        have hne : b.1 ≠ b'.1 := fun heq => hnodup.1 (heq ▸ List.mem_map_of_mem hb')
        simp [Entries.has, Entries.find?_append, Entries.find?, hne]
      rw [ih _ hnodup.2, hsame, List.filter_cons_of_pos (by simp [hhas]), List.map_cons,
        List.append_assoc, List.singleton_append]

theorem mem_addBuiltins (h : entry ∈ macros.addBuiltins now) :
    entry ∈ macros ∨ ∃ b ∈ builtins now, entry = (b.1, .text b.2) := by
  rw [addBuiltins_eq, List.mem_append, List.mem_map] at h
  rcases h with h | ⟨b, hb, rfl⟩
  · exact .inl h
  · exact .inr ⟨b, List.mem_of_mem_filter hb, rfl⟩

/-- Built-in macros that are there are not added again. -/
theorem addBuiltins_of_has (h : ∀ name ∈ builtinNames, macros.has name = true) :
    macros.addBuiltins now = macros := by
  rw [addBuiltins_eq, List.filter_eq_nil_iff.2 fun b hb => ?_, List.map_nil, List.append_nil]
  simp [h b.1 (names_builtins now ▸ List.mem_map_of_mem hb)]

/-! ## Preparing the macros -/

/-- What the macros are after preparation: the date literals have their dates, all other values
stay, and the built-in macros that are not given have the values of the clock. -/
structure IsPreparation (now : Instant) (macros after : Macros) : Prop where
  names : ∀ name, name ∈ Entries.names after ↔ name ∈ Entries.names macros ∨ name ∈ builtinNames
  /-- No name is given twice if none was. -/
  nodup : (Entries.names macros).Nodup → (Entries.names after).Nodup
  dates : ∀ name value, macros.find? name = some (.text value) →
    DateLiteral.isMarked value.toList = true →
      ∃ date, DateLiteral.resolve name value now.date = .ok date ∧
        after.find? name = some (.text date)
  values : ∀ name value, macros.find? name = some value →
    (∀ s, value = .text s → DateLiteral.isMarked s.toList = false) → after.find? name = some value
  builtins : ∀ name, macros.find? name = none →
    after.find? name = ((builtins now).find? name).map MacroValue.text

end Macros

theorem MacroValue.on_of_not_marked {value : MacroValue}
    (h : ∀ s, value = .text s → DateLiteral.isMarked s.toList = false) :
    value.on today name = value := by
  cases value with
  | text s => rw [MacroValue.on, if_neg (by simp [h s rfl])]
  | bool _ | int _ | double _ => rfl

theorem MacroValue.on_of_resolve {date : String}
    (hmarked : DateLiteral.isMarked value.toList = true)
    (hdate : DateLiteral.resolve name value today = .ok date) :
    (MacroValue.text value).on today name = .text date := by
  rw [MacroValue.on, if_pos hmarked, hdate]

namespace Macros

/-- The macros with the date of each date literal. -/
def dated (today : Date) (macros : Macros) : Macros := macros.map fun m => (m.1, m.2.on today m.1)

theorem names_dated : Entries.names (macros.dated today) = Entries.names macros := by
  simp [Entries.names, dated, Function.comp_def]

theorem prepare_eq (h : macros.DatesResolve now.date) :
    macros.prepare now = ((macros.dated now.date).addBuiltins now, none) := by
  rw [prepare, resolveDates_of_resolve h, dated]

theorem find?_prepared : ((macros.dated now.date).addBuiltins now).find? name =
    ((macros.find? name).map fun value => value.on now.date name).or
      (((builtins now).find? name).map MacroValue.text) := by
  rw [find?_addBuiltins, dated, Entries.find?_map (MacroValue.on now.date)]

/-- A macro that is given has its value of the day after preparation. -/
theorem find?_prepared_of_find? {value : MacroValue} (h : macros.find? name = some value) :
    ((macros.dated now.date).addBuiltins now).find? name = some (value.on now.date name) := by
  rw [find?_prepared, h, Option.map_some, Option.some_or]

theorem names_addBuiltins : Entries.names (macros.addBuiltins now) =
    Entries.names macros ++ builtinNames.filter fun name => !macros.has name := by
  simp [addBuiltins_eq, Entries.names, ← names_builtins now, List.filter_map, Function.comp_def]

/-- **Preparing the macros**, when all date literals have dates. -/
theorem isPreparation_of_resolve (h : macros.DatesResolve now.date) :
    IsPreparation now macros ((macros.dated now.date).addBuiltins now) where
  names name := by
    rw [names_addBuiltins, List.mem_append, List.mem_filter, Bool.not_eq_true', Entries.has_eq_false,
      names_dated]
    tauto
  nodup hnodup := by
    rw [names_addBuiltins, List.nodup_append, names_dated]
    refine ⟨hnodup, List.Nodup.filter _ (by decide), fun name hname other hother => ?_⟩
    rw [List.mem_filter, Bool.not_eq_true', Entries.has_eq_false, names_dated] at hother
    rintro rfl
    exact hother.2 hname
  dates name value hvalue hmarked := by
    obtain ⟨date, hdate⟩ := h name value (Entries.mem_of_find? hvalue) hmarked
    refine ⟨date, hdate, ?_⟩
    rw [find?_prepared_of_find? hvalue, MacroValue.on_of_resolve hmarked hdate]
  values name value hvalue hother := by
    rw [find?_prepared_of_find? hvalue, MacroValue.on_of_not_marked hother]
  builtins name hnone := by
    rw [find?_prepared, hnone, Option.map_none, Option.none_or]

/-! ## Settled macros -/

/-- Macros that preparation leaves alone: none is a date literal, and no built-in macro is
missing. -/
structure Settled (macros : Macros) : Prop where
  unmarked : ∀ name value, (name, .text value) ∈ macros →
    DateLiteral.isMarked value.toList = false
  builtins : ∀ name ∈ builtinNames, macros.has name = true

/-- A text among prepared macros was given and is no date literal, or is the date of one, or
belongs to a built-in macro. -/
theorem text_of_mem_prepared (h : macros.DatesResolve now.date)
    (hmem : (name, .text value) ∈ (macros.dated now.date).addBuiltins now) :
    ((name, .text value) ∈ macros ∧ DateLiteral.isMarked value.toList = false) ∨
      (∃ literal, DateLiteral.resolve name literal now.date = .ok value) ∨
      ∃ b ∈ builtins now, b.2 = value := by
  rcases mem_addBuiltins hmem with hmem | ⟨b, hb, heq⟩
  · obtain ⟨⟨n, old⟩, hold, heq⟩ := List.mem_map.1 hmem
    obtain ⟨rfl, hvalue⟩ := Prod.mk.inj heq
    cases old with
    | text s =>
      rw [MacroValue.on] at hvalue
      split at hvalue
      · next hmarked =>
        obtain ⟨date, hdate⟩ := h n s hold hmarked
        simp only [hdate, MacroValue.text.injEq] at hvalue
        exact .inr (.inl ⟨s, hvalue ▸ hdate⟩)
      · next hmarked =>
        obtain rfl := MacroValue.text.inj hvalue
        exact .inl ⟨hold, Bool.eq_false_iff.2 hmarked⟩
    | bool _ | int _ | double _ => cases hvalue
  · obtain ⟨-, hvalue⟩ := Prod.mk.inj heq
    exact .inr (.inr ⟨b, hb, (MacroValue.text.inj hvalue).symm⟩)

/-- **Prepared macros have settled.** -/
theorem settled_of_resolve (h : macros.DatesResolve now.date) :
    Settled ((macros.dated now.date).addBuiltins now) where
  unmarked name value hmem := by
    rcases text_of_mem_prepared h hmem with ⟨-, hunmarked⟩ | ⟨_, hdate⟩ | ⟨b, hb, rfl⟩
    · exact hunmarked
    · exact DateLiteral.isMarked_of_resolve hdate
    · exact isMarked_of_mem_builtins hb
  builtins name hname := by
    rw [Entries.has_eq_true, (isPreparation_of_resolve h).names]
    exact .inr hname

/-- **Settled macros are left alone**, by every clock. -/
theorem Settled.prepare_eq (h : Settled macros) : macros.prepare now = (macros, none) := by
  have hdates : macros.DatesResolve now.date := fun name value hmem hmarked => by
    rw [h.unmarked name value hmem] at hmarked
    cases hmarked
  have hsame : ∀ m ∈ macros, (m.1, m.2.on now.date m.1) = id m := fun m hm => by
    rw [MacroValue.on_of_not_marked fun s hs => h.unmarked m.1 s (hs ▸ hm), id]
  have hdated : macros.dated now.date = macros := by
    rw [dated, List.map_congr_left hsame, List.map_id]
  rw [Macros.prepare_eq hdates, hdated, addBuiltins_of_has h.builtins]

end Macros

/-! ## Uses of macros -/

/-- Whether a macro error is that of a date literal. -/
def MacroError.isDate : MacroError → Bool
  | dateFormat _ _ | dateOutOfRange _ _ => true
  | expression _ _ => false

/-- Whether the preparation of a query fails on a date literal. -/
def PreparationError.isDate : PreparationError → Bool
  | expansion cause => cause.isDate
  | _ => false

/-- What prepared macros make of a text. -/
def Macros.putInto (now : Instant) (macros : Macros) (text : List Char) :
    Except MacroError Expansion := do
  let evaluated ← evalBlocks ⟨macros, now⟩ (fillPlaceholders macros text)
  return ⟨String.ofList evaluated, Placeholder.unknown Placeholder.unmarked macros.has text⟩

theorem expand_of_prepare (h : macros.prepare now = (after, none)) :
    expand now macros text = (after, after.putInto now text) := by
  rw [expand, h]
  rfl

/-- The parts of a text fail with the error of an expression. -/
theorem isDate_of_evalParts {scope : Scope} {parts : List Part} {e : MacroError}
    (h : evalParts scope parts = .error e) : e.isDate = false := by
  induction parts with
  | nil => cases h
  | cons part rest ih =>
    cases part with
    | kept c =>
      rcases bind_eq_error.1 h with h | ⟨_, _, h⟩
      · exact ih h
      · cases h
    | piece block =>
      rw [evalParts] at h
      split at h
      · exact ih h
      · split at h
        · cases h
          rfl
        · rcases bind_eq_error.1 h with h | ⟨_, _, h⟩
          · exact ih h
          · cases h

/-- **Once the macros are prepared, only an expression can fail.** -/
theorem Macros.isDate_of_putInto {e : MacroError} (h : macros.putInto now text = .error e) :
    e.isDate = false := by
  rcases bind_eq_error.1 h with h | ⟨_, _, h⟩
  · exact isDate_of_evalParts h
  · cases h

/-- The error of an outcome, if it is one. -/
def failure? {ε α : Type} : Except ε α → Option ε
  | .ok _ => none
  | .error e => some e

/-- The ways to use macros: put into a text, with and without rendering it first, and put
into a query that is then compiled. -/
inductive Use where
  | expand (text : List Char)
  | expandQuery (template : Option (Entries Json)) (text : List Char)
  | prepareQuery (s : Schema) (template : Option (Entries Json)) (text : List Char)

/-- The macros after a use, and its error. -/
def Use.run (now : Instant) (macros : Macros) : Use → Macros × Option PreparationError
  | expand text =>
    let (after, result) := ReportQuery.expand now macros text
    (after, (failure? result).map .expansion)
  | expandQuery template text =>
    let (after, result) := ReportQuery.expandQuery now template macros text
    (after, failure? result)
  | prepareQuery s template text =>
    let (after, result) := ReportQuery.prepareQuery s now template macros text
    (after, failure? result)

/-- The macros after each of a list of uses, and its error. A use has a clock of its own and
takes the macros that the one before has left behind. -/
def Macros.session (macros : Macros) :
    List (Instant × Use) → List (Macros × Option PreparationError)
  | [] => []
  | (now, use) :: rest => use.run now macros :: Macros.session (use.run now macros).1 rest

theorem failure?_eq_some {ε α : Type} {x : Except ε α} {e : ε} :
    failure? x = some e ↔ x = .error e := by
  cases x <;> simp [failure?]

/-- A query that fails while it is rendered leaves the macros as they were. -/
theorem expandQuery_of_rendering {template : Option (Entries Json)} {cause : TemplateError}
    (h : (expandQuery now template macros text).2 = .error (.rendering cause)) :
    (expandQuery now template macros text).1 = macros := by
  rw [expandQuery] at h ⊢
  split
  · rfl
  · next rendered hrendered =>
    rw [hrendered] at h
    obtain ⟨e, -, he⟩ := mapError_eq_error.1 h
    cases he

namespace Macros.Settled

/-- The first two stages leave settled macros alone, and do not fail on a date literal. -/
theorem expandQuery_eq (h : macros.Settled) (template : Option (Entries Json)) (text : List Char) :
    (expandQuery now template macros text).1 = macros ∧
      ∀ e, (expandQuery now template macros text).2 = .error e → e.isDate = false := by
  rw [expandQuery]
  split
  · refine ⟨rfl, fun e he => ?_⟩
    cases he
    rfl
  · rw [expand_of_prepare h.prepare_eq]
    refine ⟨rfl, fun e he => ?_⟩
    obtain ⟨cause, hcause, rfl⟩ := mapError_eq_error.1 he
    exact isDate_of_putInto hcause

end Macros.Settled

/-- **A use leaves settled macros as they are**, and does not fail on a date literal. -/
theorem Use.run_of_settled (h : macros.Settled) (now : Instant) (use : Use) :
    (use.run now macros).1 = macros ∧ ∀ e ∈ (use.run now macros).2, e.isDate = false := by
  cases use with
  | expand text =>
    rw [run, expand_of_prepare h.prepare_eq]
    refine ⟨rfl, fun e he => ?_⟩
    obtain ⟨cause, hcause, rfl⟩ := Option.map_eq_some_iff.1 he
    exact Macros.isDate_of_putInto (failure?_eq_some.1 hcause)
  | expandQuery template text =>
    obtain ⟨hmacros, herror⟩ := h.expandQuery_eq template text
    exact ⟨hmacros, fun e he => herror e (failure?_eq_some.1 he)⟩
  | prepareQuery s template text =>
    obtain ⟨hmacros, herror⟩ := h.expandQuery_eq template text
    refine ⟨hmacros, fun e he => ?_⟩
    rcases bind_eq_error.1 (failure?_eq_some.1 he) with he | ⟨ex, _, he⟩
    · exact herror e he
    · rw [compileExpansion] at he
      split at he
      · cases he
      · cases he
        rfl

/-- **Any number of uses leave settled macros as they are.** -/
theorem Macros.session_of_settled (h : macros.Settled) (uses : List (Instant × Use)) :
    ∀ result ∈ macros.session uses, result.1 = macros ∧ ∀ e ∈ result.2, e.isDate = false := by
  induction uses with
  | nil =>
    intro result hresult
    cases hresult
  | cons first rest ih =>
    obtain ⟨now, use⟩ := first
    have hrun := use.run_of_settled h now
    rw [Macros.session, hrun.1, List.forall_mem_cons]
    exact ⟨hrun, ih⟩

/-- **What a run leaves of the macros.** If all date literals have dates, the macros after a run
depend on the clock and the macros before it, but not on the text and not on whether an
expression in it fails. They are these macros prepared, and any later uses leave
them as they are, with other texts and clocks and whatever comes of them, and never fail on
a date literal. A query that fails while it is rendered leaves any macros as they were. -/
theorem expand_settles (now : Instant) (macros : Macros) (hdates : macros.DatesResolve now.date) :
    ∃ after : Macros, Macros.IsPreparation now macros after ∧
      (∀ text, (expand now macros text).1 = after ∧
        ∀ e, (expand now macros text).2 = .error e → e.isDate = false) ∧
      (∀ uses : List (Instant × Use), ∀ result ∈ after.session uses,
        result.1 = after ∧ ∀ e ∈ result.2, e.isDate = false) ∧
      ∀ (now' : Instant) (template : Option (Entries Json)) (others : Macros) (text : List Char)
        (cause : TemplateError),
        (expandQuery now' template others text).2 = .error (.rendering cause) →
        (expandQuery now' template others text).1 = others := by
  refine ⟨(macros.dated now.date).addBuiltins now, Macros.isPreparation_of_resolve hdates,
    fun text => ?_, fun uses => Macros.session_of_settled (Macros.settled_of_resolve hdates) uses,
    fun now' template others text cause => expandQuery_of_rendering⟩
  rw [expand_of_prepare (Macros.prepare_eq hdates)]
  exact ⟨rfl, fun e => Macros.isDate_of_putInto⟩

/-- A date literal and a built-in name that is given, in a run that fails on an expression and
in all later ones. -/
theorem expand_settles_sample :
    ∃ after : Macros,
      expand .sample [("day", .text ":YYYYMMDD-1"), ("date_iso", .text "given")] "${b}".toList =
        (after, .error (.expression "b" (.unknownVariable "b"))) ∧
      after.find? "day" = some (.text "2024-03-14") ∧
      after.find? "date_iso" = some (.text "given") ∧
      after.find? "yesterday_iso" = some (.text "20240314") ∧
      ∀ uses : List (Instant × Use), ∀ result ∈ after.session uses,
        result.1 = after ∧ ∀ e ∈ result.2, e.isDate = false := by
  have hdate : DateLiteral.resolve "day" ":YYYYMMDD-1" Instant.sample.date = .ok "2024-03-14" := by
    decide +kernel
  have hdates : Macros.DatesResolve Instant.sample.date
      [("day", .text ":YYYYMMDD-1"), ("date_iso", .text "given")] := by
    intro name value hmem hmarked
    rcases List.mem_pair.1 hmem with heq | heq
    · cases heq
      exact ⟨_, hdate⟩
    · cases heq
      exact absurd hmarked (by decide)
  have hfails : (expand .sample [("day", .text ":YYYYMMDD-1"), ("date_iso", .text "given")]
      "${b}".toList).2 = .error (.expression "b" (.unknownVariable "b")) := by decide +kernel
  have hbuiltin : (Macros.builtins .sample).find? "yesterday_iso" = some "20240314" := by
    decide +kernel
  obtain ⟨after, hafter, hexpand, hsession, -⟩ := expand_settles .sample
    [("day", .text ":YYYYMMDD-1"), ("date_iso", .text "given")] hdates
  obtain ⟨date, hresolve, hday⟩ := hafter.dates "day" ":YYYYMMDD-1" rfl (by decide)
  obtain rfl : "2024-03-14" = date := Except.ok.inj (hdate.symm.trans hresolve)
  refine ⟨after, Prod.ext (hexpand _).1 hfails, hday,
    hafter.values "date_iso" (.text "given") rfl (fun s hs => ?_),
    (hafter.builtins "yesterday_iso" rfl).trans (congrArg (Option.map _) hbuiltin), hsession⟩
  cases hs
  decide

end ReportQuery
