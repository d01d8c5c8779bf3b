import Mathlib.Data.List.Forall2
import ReportQuery.Proofs.Macro.Mention
/-!
# The order of macros has no meaning

The entries of the macros stand in some order, and date literals are resolved one after the
other up to the first that fails. If none fails, the order can be seen in nothing: texts and
expressions read the macros by look-ups alone (`Macros.putInto_congr`), so two orders lead to
the same macros and the same outcome. If one fails, which one does depends on the order, and
so do the macros left behind: some have their dates already (`Dated`). But a date is not
resolved again, so when the literals that fail are taken away, all these macros lead to
where the original ones without these literals lead (`expand_of_perm`).
-/

namespace ReportQuery

open Text Outcome

variable {macros others order after left : Macros} {now : Instant} {today : Date}
variable {name : String} {text : List Char} {entry : String × MacroValue} {e : MacroError}

/-! ## Date literals that fail -/

/-- The error of a date literal that has no date: what starts like one is none, or it leads
out of the range of dates. -/
def MacroValue.dateFault? (today : Date) (name : String) : MacroValue → Option MacroError
  | .text value =>
    if DateLiteral.isMarked value.toList then
      match DateLiteral.resolve name value today with
      | .ok _ => none
      | .error e => some e
    else none
  | _ => none

namespace Macros

/-- The errors of the date literals among the macros, each with the name and the text of its
literal. -/
inductive DateFails (today : Date) (macros : Macros) : MacroError → Prop
  | format {name value : String} : (name, .text value) ∈ macros →
      DateLiteral.isMarked value.toList = true → DateLiteral.read? value.toList = none →
      DateFails today macros (.dateFormat name value)
  | range {name value : String} {l : DateLiteral} : (name, .text value) ∈ macros →
      DateLiteral.isMarked value.toList = true → DateLiteral.read? value.toList = some l →
      l.date? today = none → DateFails today macros (.dateOutOfRange name value)

/-- The macros without the date literals that fail. -/
def datable (today : Date) (macros : Macros) : Macros :=
  macros.filter fun m => (m.2.dateFault? today m.1).isNone

theorem DateFails.of_mem (hmem : entry ∈ macros) (h : entry.2.dateFault? today entry.1 = some e) :
    DateFails today macros e := by
  obtain ⟨name, value⟩ := entry
  cases value with
  | text s =>
    rw [MacroValue.dateFault?] at h
    split at h
    · next hmarked =>
      split at h
      · cases h
      · next e' hresolve =>
        cases h
        rw [DateLiteral.resolve, bind_eq_error] at hresolve
        rcases hresolve with hread | ⟨l, hread, hdate⟩
        · rw [DateLiteral.read] at hread
          split at hread
          · cases hread
          · next hnone =>
            cases hread
            exact .format hmem hmarked hnone
        · rw [DateLiteral.read] at hread
          split at hread
          · next hsome =>
            cases hread
            split at hdate
            · cases hdate
            · next hnone =>
              cases hdate
              exact .range hmem hmarked hsome hnone
          · cases hread
    · cases h
  | bool _ | int _ | double _ => cases h

theorem datesResolve_iff :
    macros.DatesResolve today ↔ ∀ m ∈ macros, m.2.dateFault? today m.1 = none := by
  constructor
  · intro h m hm
    obtain ⟨name, value⟩ := m
    cases value with
    | text s =>
      rw [MacroValue.dateFault?]
      split
      · next hmarked =>
        obtain ⟨date, hdate⟩ := h name s hm hmarked
        rw [hdate]
      · rfl
    | bool _ | int _ | double _ => rfl
  · intro h name value hm hmarked
    have hfault := h _ hm
    rw [MacroValue.dateFault?, if_pos hmarked] at hfault
    split at hfault
    · next date hdate => exact ⟨date, hdate⟩
    · cases hfault

theorem datesResolve_datable (today : Date) (macros : Macros) :
    (macros.datable today).DatesResolve today :=
  datesResolve_iff.2 fun m hm => by simpa using (List.mem_filter.1 hm).2

theorem DatesResolve.perm (h : macros.DatesResolve today) (hperm : macros.Perm others) :
    others.DatesResolve today :=
  fun name value hmem => h name value (hperm.mem_iff.2 hmem)

end Macros

/-! ## Macros that are left behind -/

/-- An entry as it was, or with the date of its literal. -/
inductive Dated (today : Date) : String × MacroValue → String × MacroValue → Prop
  | same (entry : String × MacroValue) : Dated today entry entry
  | date {name value date : String} : DateLiteral.isMarked value.toList = true →
      DateLiteral.resolve name value today = .ok date →
      Dated today (name, .text value) (name, .text date)

namespace Dated

variable {old new : String × MacroValue}

theorem name_eq (h : Dated today old new) : new.1 = old.1 := by
  cases h <;> rfl

/-- An entry fails as it did before some have their dates: a date is no literal that could
fail. -/
theorem dateFault?_eq (h : Dated today old new) :
    new.2.dateFault? today new.1 = old.2.dateFault? today old.1 := by
  cases h with
  | same => rfl
  | date hmarked hdate =>
    simp [MacroValue.dateFault?, hmarked, hdate, DateLiteral.isMarked_of_resolve hdate]

/-- A date is not resolved again. -/
theorem on_eq (h : Dated today old new) : new.2.on today new.1 = old.2.on today old.1 := by
  cases h with
  | same => rfl
  | date hmarked hdate =>
    simp [MacroValue.on, hmarked, hdate, DateLiteral.isMarked_of_resolve hdate]

/-- The value of an entry that does not fail. -/
theorem of_not_fault {entry : String × MacroValue} (h : entry.2.dateFault? today entry.1 = none) :
    Dated today entry (entry.1, entry.2.on today entry.1) := by
  obtain ⟨name, value⟩ := entry
  cases value with
  | text s =>
    rw [MacroValue.dateFault?] at h
    rw [MacroValue.on]
    split at h
    · next hmarked =>
      split at h
      · next text hdate => simpa [hmarked, hdate] using date hmarked hdate
      · cases h
    · next hmarked => simpa [hmarked] using same (name, MacroValue.text s)
  | bool _ | int _ | double _ => exact same _

end Dated

namespace Macros

/-- Date literals are resolved up to the first that fails. -/
theorem resolveDates_cons : resolveDates today (entry :: macros) =
    match entry.2.dateFault? today entry.1 with
    | some e => (entry :: macros, some e)
    | none => ((entry.1, entry.2.on today entry.1) :: (resolveDates today macros).1,
        (resolveDates today macros).2) := by
  obtain ⟨name, value⟩ := entry
  cases value with
  | text s =>
    rw [resolveDates, MacroValue.dateFault?, MacroValue.on]
    split
    · next hmarked => cases hdate : DateLiteral.resolve name s today <;> simp
    · rfl
  | bool _ | int _ | double _ => rfl

/-- **If some date literals fail**, the run has the error of one of them, and each entry it leaves
is as it was or has its own date. -/
theorem resolveDates_fails (h : ¬ macros.DatesResolve today) :
    ∃ left e, resolveDates today macros = (left, some e) ∧
      (∃ entry ∈ macros, entry.2.dateFault? today entry.1 = some e) ∧
      List.Forall₂ (Dated today) macros left := by
  rw [datesResolve_iff] at h
  induction macros with
  | nil => exact absurd (by simp) h
  | cons entry rest ih =>
    rw [resolveDates_cons]
    cases hfault : entry.2.dateFault? today entry.1 with
    | some e =>
      -- the run stops here, and the rest is as it was
      exact ⟨_, e, rfl, ⟨entry, List.mem_cons_self, hfault⟩,
        List.forall₂_same.2 fun m _ => .same m⟩
    | none =>
      obtain ⟨left, e, hrest, ⟨bad, hmem, hbad⟩, hdated⟩ := ih fun hall =>
        h (List.forall_mem_cons.2 ⟨hfault, hall⟩)
      exact ⟨_, e, by rw [hrest], ⟨bad, List.mem_cons_of_mem _ hmem, hbad⟩,
        .cons (.of_not_fault hfault) hdated⟩

/-- So has every use of the macros, whatever the text. -/
theorem expand_fails (h : ¬ macros.DatesResolve now.date) :
    ∃ left e, (∀ text, expand now macros text = (left, .error e)) ∧
      (∃ entry ∈ macros, entry.2.dateFault? now.date entry.1 = some e) ∧
      List.Forall₂ (Dated now.date) macros left := by
  obtain ⟨left, e, hrun, hrest⟩ := resolveDates_fails h
  exact ⟨left, e, fun text => by rw [expand, prepare, hrun], hrest⟩

/-- Without the literals that fail, macros lead to the same macros before and after some
have their dates. -/
theorem dated_datable (h : List.Forall₂ (Dated today) macros left) :
    (left.datable today).dated today = (macros.datable today).dated today := by
  induction h with
  | nil => rfl
  | @cons old new _ _ hfirst _ ih =>
    rw [datable, datable, List.filter_cons, List.filter_cons, hfirst.dateFault?_eq]
    split
    · rw [dated, dated, List.map_cons, List.map_cons, hfirst.on_eq, hfirst.name_eq]
      exact congrArg _ ih
    · exact ih

end Macros

/-! ## Runs that end alike -/

/-- Two runs leave the same macros, in some order, and have the same outcome. -/
def EndAlike (run other : Macros × Except MacroError Expansion) : Prop :=
  run.1.Perm other.1 ∧ run.2 = other.2

/-- Runs end alike when the macros are the same once their literals have dates. -/
theorem endAlike_of_dated (hnodup : (Entries.names macros).Nodup)
    (hdates : macros.DatesResolve now.date) (hothers : others.DatesResolve now.date)
    (hperm : (macros.dated now.date).Perm (others.dated now.date)) (text : List Char) :
    EndAlike (expand now macros text) (expand now others text) := by
  rw [← @Macros.names_dated macros now.date] at hnodup
  have hfind (name : String) : (macros.dated now.date).find? name =
      (others.dated now.date).find? name := Entries.find?_perm hnodup hperm
  rw [expand_of_prepare (Macros.prepare_eq hdates), expand_of_prepare (Macros.prepare_eq hothers)]
  constructor
  · simp only [Macros.addBuiltins_eq, Entries.has, hfind]
    exact hperm.append_right _
  · have hsame (name : String) : ((macros.dated now.date).addBuiltins now).find? name =
        ((others.dated now.date).addBuiltins now).find? name := by
      rw [Macros.find?_addBuiltins, Macros.find?_addBuiltins, hfind]
    exact Macros.putInto_congr (fun name _ => hsame name) fun name _ => hsame name

/-- What a run leaves behind that stops at a date literal: the error is that of some literal,
the entries are as they were or have their own dates, and none is added. Without the
literals that fail, a later run on the rest ends as on the original macros without
them, whatever the order of the entries. -/
structure Stopped (now : Instant) (macros left : Macros) (e : MacroError) : Prop where
  error : Macros.DateFails now.date macros e
  dated : List.Forall₂ (Dated now.date) macros left
  resumes : ∀ rest others text, rest.Perm (left.datable now.date) →
    others.Perm (macros.datable now.date) → EndAlike (expand now rest text) (expand now others text)

/-- **A run that stops at a date literal can be taken up again.** -/
theorem stopped_of_not_resolve (hnodup : (Entries.names macros).Nodup)
    (h : ¬ macros.DatesResolve now.date) :
    ∃ left e, (∀ text, expand now macros text = (left, .error e)) ∧ Stopped now macros left e := by
  obtain ⟨left, e, hrun, ⟨bad, hmem, hbad⟩, hdated⟩ := Macros.expand_fails h
  refine ⟨left, e, hrun, .of_mem hmem hbad, hdated, fun rest others text hrest hothers => ?_⟩
  have hsame := Macros.dated_datable hdated
  have hperm : (rest.dated now.date).Perm (others.dated now.date) :=
    (hrest.map _).trans ((List.Perm.of_eq hsame).trans (hothers.map _).symm)
  have hnames : (Entries.names others).Nodup :=
    ((hothers.map Prod.fst).nodup_iff).2 (hnodup.sublist (List.filter_sublist.map _))
  have hnamesPerm : (Entries.names rest).Perm (Entries.names others) := by
    rw [← @Macros.names_dated rest now.date, ← @Macros.names_dated others now.date]
    exact hperm.map Prod.fst
  exact endAlike_of_dated (hnamesPerm.nodup_iff.2 hnames)
    ((Macros.datesResolve_datable _ _).perm hrest.symm)
    ((Macros.datesResolve_datable _ _).perm hothers.symm) hperm text

/-- **The order of macros has no meaning.** Under two orders of macros with different names, a run
ends alike, or it stops at a date literal under both. The literal need not be the same one,
and neither need the macros left behind, but from either of them a later run goes on as if
the literals that fail had never been there. -/
theorem expand_of_perm (now : Instant) (text : List Char) (macros others : Macros)
    (hnodup : (Entries.names macros).Nodup) (hperm : macros.Perm others) :
    (EndAlike (expand now macros text) (expand now others text) ∧
      ∀ e, (expand now macros text).2 = .error e → e.isDate = false) ∨
    ∃ left e left' e', expand now macros text = (left, .error e) ∧
      expand now others text = (left', .error e') ∧
      Stopped now macros left e ∧ Stopped now others left' e' := by
  by_cases hdates : macros.DatesResolve now.date
  · left
    refine ⟨endAlike_of_dated hnodup hdates (hdates.perm hperm) (hperm.map _) text, ?_⟩
    rw [expand_of_prepare (Macros.prepare_eq hdates)]
    exact fun e => Macros.isDate_of_putInto
  · right
    have hnodup' : (Entries.names others).Nodup := ((hperm.map Prod.fst).nodup_iff).1 hnodup
    obtain ⟨left, e, hrun, hstopped⟩ := stopped_of_not_resolve hnodup hdates
    obtain ⟨left', e', hrun', hstopped'⟩ := stopped_of_not_resolve hnodup' fun h =>
      hdates (h.perm hperm.symm)
    exact ⟨left, e, left', e', hrun text, hrun' text, hstopped, hstopped'⟩

/-- Two literals that fail, after and around one that has a date. -/
def Macros.dayFirst : Macros :=
  [("day", .text ":YYYYMMDD-1"), ("bad", .text ":YYYYx"), ("far", .text ":YYYY-300000")]

def Macros.dayBetween : Macros :=
  [("far", .text ":YYYY-300000"), ("day", .text ":YYYYMMDD-1"), ("bad", .text ":YYYYx")]

/-- The two orders have different errors and leave different macros behind, but later runs
without the literals that fail end as on the third alone. -/
theorem expand_of_perm_sample :
    ∃ left left',
      expand .sample .dayFirst "{day}".toList = (left, .error (.dateFormat "bad" ":YYYYx")) ∧
      expand .sample .dayBetween "{day}".toList =
        (left', .error (.dateOutOfRange "far" ":YYYY-300000")) ∧
      (left.find? "day").map MacroValue.display = some "2024-03-14".toList ∧
      (left'.find? "day").map MacroValue.display = some ":YYYYMMDD-1".toList ∧
      EndAlike (expand .sample (left.datable Instant.sample.date) "{day}".toList)
        (expand .sample [("day", .text ":YYYYMMDD-1")] "{day}".toList) ∧
      EndAlike (expand .sample (left'.datable Instant.sample.date) "{day}".toList)
        (expand .sample [("day", .text ":YYYYMMDD-1")] "{day}".toList) := by
  have herror : (expand .sample .dayFirst "{day}".toList).2 =
      .error (.dateFormat "bad" ":YYYYx") := by decide +kernel
  have herror' : (expand .sample .dayBetween "{day}".toList).2 =
      .error (.dateOutOfRange "far" ":YYYY-300000") := by decide +kernel
  have hday : ((expand .sample .dayFirst "{day}".toList).1.find? "day").map MacroValue.display =
      some "2024-03-14".toList := by decide +kernel
  have hday' : ((expand .sample .dayBetween "{day}".toList).1.find? "day").map
      MacroValue.display = some ":YYYYMMDD-1".toList := by decide +kernel
  have hrest : Macros.dayFirst.datable Instant.sample.date = [("day", .text ":YYYYMMDD-1")] := by
    rw [Macros.datable, Macros.dayFirst, List.filter_cons_of_pos (by decide +kernel),
      List.filter_cons_of_neg (by decide +kernel), List.filter_cons_of_neg (by decide +kernel),
      List.filter_nil]
  have hrest' : Macros.dayBetween.datable Instant.sample.date =
      [("day", .text ":YYYYMMDD-1")] := by
    rw [Macros.datable, Macros.dayBetween, List.filter_cons_of_neg (by decide +kernel),
      List.filter_cons_of_pos (by decide +kernel), List.filter_cons_of_neg (by decide +kernel),
      List.filter_nil]
  have hperm : Macros.dayFirst.Perm Macros.dayBetween :=
    List.perm_append_singleton (α := String × MacroValue) _ [_, _]
  rcases expand_of_perm .sample "{day}".toList .dayFirst .dayBetween (by decide) hperm with
    ⟨-, hother⟩ | ⟨left, e, left', e', hrun, hrun', hstopped, hstopped'⟩
  · exact absurd (hother _ herror) (by decide)
  · rw [hrun] at herror hday
    rw [hrun'] at herror' hday'
    cases herror
    cases herror'
    exact ⟨left, left', hrun, hrun', hday, hday',
      hstopped.resumes _ _ _ (.refl _) (.of_eq hrest.symm),
      hstopped'.resumes _ _ _ (.refl _) (.of_eq hrest'.symm)⟩

end ReportQuery
