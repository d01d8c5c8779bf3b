import ReportQuery.Proofs.Decimal.Integer
import ReportQuery.Proofs.Expr.RoundTrip
import ReportQuery.Proofs.Macro.Refill
import ReportQuery.Proofs.Macro.Segments
/-!
# Two ways to print a macro

A macro is printed by its placeholder and, if its name is one of expressions, by the block that has
only this name. The first prints the value as it is stored, the second goes through a value of
expressions, where every number is a double. Truth values and texts pass through unchanged. An
integer does if the text of its double is that of the integer, which holds for all integers up to
`2 ^ 53` in magnitude (`expand_name`) and fails for the next one
(`expand_name_of_large_integer`).
-/

namespace ReportQuery

open Text Placeholder

variable {macros : Macros} {now : Instant} {today : Date} {name source : String}
variable {value : MacroValue} {text : List Char} {segments : List Segment}

/-! ## The two texts -/

/-- The placeholder of a name. -/
def placeholderOf (name : String) : List Char := '{' :: (name.toList ++ ['}'])

/-- The expression block that has only a name, or another source in its place. -/
def blockOf (name : String) : List Char := '$' :: placeholderOf name

theorem cut_placeholderOf (hne : name.toList ≠ []) (hclose : '}' ∉ name.toList) :
    Cut isUnmarked none (placeholderOf name) [.placeholder name.toList] :=
  .placeholder rfl ⟨rfl, hne, hclose⟩ .nil

/-- The brace behind the dollar sign starts no placeholder. -/
theorem cut_blockOf (hopen : '{' ∉ source.toList) :
    Cut isUnmarked none (blockOf source) ((blockOf source).map .kept) := by
  have hrest : '{' ∉ source.toList ++ ['}'] := by simpa using hopen
  refine .kept (fun _ name rest hstarts => ?_) (.kept (fun hfree => ?_) (.of_not_mem hrest))
  · cases hstarts.text_eq
  · cases hfree

theorem parts_blockOf (hclose : '}' ∉ source.toList) :
    parts (fun _ t => blockLength t) (blockOf source) = [.piece (blockOf source)] := by
  have htake : (source.toList ++ ['}']).takeWhile (fun c => c ≠ '}') = source.toList :=
    takeWhile_name hclose
  have hlength : blockLength (blockOf source ++ []) = (blockOf source).length := by
    rw [List.append_nil, blockOf, placeholderOf, blockLength, htake]
    simp
  have hparts := parts_piece (List.cons_ne_nil _ _) hlength
  rw [List.append_nil] at hparts
  exact hparts

theorem blockSource_blockOf (source : String) : blockSource (blockOf source) = source.toList := by
  rw [blockSource, blockOf, placeholderOf]
  exact List.dropLast_concat

/-! ## What they are expanded to -/

namespace Macros

/-- What macros make of a text, by its cut. -/
theorem putInto_of_cut (hcut : Cut isUnmarked none text segments)
    (hknown : ∀ name ∈ segments.filterMap Segment.name?, macros.has name = true) :
    macros.putInto now text =
      (evalBlocks ⟨macros, now⟩ (segments.flatMap (Segment.filled macros))).map
        fun out => ⟨String.ofList out, []⟩ := by
  have hunknown : unknown unmarked macros.has text = [] := by
    have hnone : (segments.filterMap Segment.name?).filter (fun n => !macros.has n) = [] :=
      List.filter_eq_nil_iff.2 fun n hn => by simp [hknown n hn]
    rw [unknown_eq, ← behind_isUnmarked, hcut.names_eq, hnone]
    rfl
  rw [putInto, fillPlaceholders_of_cut hcut, hunknown]
  rfl

/-- A placeholder is expanded to the value as it is. -/
theorem putInto_placeholderOf (hne : name.toList ≠ []) (hclose : '}' ∉ name.toList)
    (hfind : macros.find? name = some value) (hdollar : '$' ∉ value.display) :
    macros.putInto now (placeholderOf name) = .ok ⟨String.ofList value.display, []⟩ := by
  have hknown : ∀ n ∈ [Segment.placeholder name.toList].filterMap Segment.name?,
      macros.has n = true := by simp [Segment.name?, Entries.has, hfind]
  have hfilled : [Segment.placeholder name.toList].flatMap (Segment.filled macros) =
      value.display := by simp [Segment.filled, hfind]
  rw [putInto_of_cut (cut_placeholderOf hne hclose) hknown, hfilled,
    (Blockless.of_not_dollar hdollar).evalBlocks_eq]
  rfl

/-- A block is expanded to the value of its source, and fails where the source does. -/
theorem putInto_blockOf (hopen : '{' ∉ source.toList) (hclose : '}' ∉ source.toList)
    (hblank : trim source.toList ≠ []) :
    macros.putInto now (blockOf source) =
      match Expr.evaluate ⟨macros, now⟩ source.toList with
      | .ok v => .ok ⟨String.ofList v.display, []⟩
      | .error e => .error (.expression source e) := by
  have hknown : ∀ n ∈ ((blockOf source).map Segment.kept).filterMap Segment.name?,
      macros.has n = true := by simp [List.filterMap_map, Function.comp_def, Segment.name?]
  have hkept : ((blockOf source).map .kept).flatMap (Segment.filled macros) = blockOf source := by
    simp [List.flatMap_map, Segment.filled]
  rw [putInto_of_cut (cut_blockOf hopen) hknown, hkept, evalBlocks, parts_blockOf hclose]
  simp only [evalParts, blockSource_blockOf, if_neg hblank]
  cases Expr.evaluate ⟨macros, now⟩ source.toList with
  | ok v => simp [bind, Except.bind, pure, Except.pure, Except.map]
  | error e => simp [Except.map]

/-- A name as a source has the value of its macro in expressions. -/
theorem putInto_blockOf_name (h : Token.IsName name) (hfind : macros.find? name = some value) :
    macros.putInto now (blockOf name) = .ok ⟨String.ofList (Value.ofMacro value).display, []⟩ := by
  have hblank : trim name.toList ≠ [] := by
    rw [trim_of_isWordText h.1.isWordText]
    exact h.1.isWordText.1
  have hvalue : Expr.evaluate ⟨macros, now⟩ name.toList = .ok (.ofMacro value) := by
    rw [Expr.evaluate, Expr.parse_name h]
    simp only [Expr.eval, Expr.lookup, hfind]
  rw [putInto_blockOf (h.1.not_mem (by decide)) (h.1.not_mem (by decide)) hblank, hvalue]

end Macros

/-- The value of a day has a dollar sign only in a text that has one. -/
theorem MacroValue.not_dollar_on (hdates : macros.DatesResolve today)
    (hfind : macros.find? name = some value) (hdollar : ∀ s, value = .text s → '$' ∉ s.toList) :
    '$' ∉ (value.on today name).display := by
  cases value with
  | text s =>
    rw [MacroValue.on]
    split
    · next hmarked =>
      obtain ⟨date, hdate⟩ := hdates name s (Entries.mem_of_find? hfind) hmarked
      rw [hdate]
      exact (DateLiteral.inert_of_resolve hdate).not_dollar
    · exact hdollar s rfl
  | bool _ | int _ | double _ => exact (inert_display fun s hs => by cases hs).not_dollar

/-- On every day, a text has a text. -/
theorem MacroValue.exists_on_text (today : Date) (name s : String) :
    ∃ s', (MacroValue.text s).on today name = .text s' := by
  rw [MacroValue.on]
  split
  · split
    · exact ⟨_, rfl⟩
    · exact ⟨s, rfl⟩
  · exact ⟨s, rfl⟩

/-- **The two ways to print a macro.** Where all date literals have dates and a name of
expressions has a value without dollar sign, its placeholder and its block are both expanded, with
the same macros left behind and no name reported. They print the same if the value is a truth value
or a text, also one that is a date literal. If it is an integer, the block prints the double nearest
to it, which is the same exactly if the text of this double is that of the integer. So it is for
every integer of at most `2 ^ 53` in magnitude. -/
theorem expand_name (now : Instant) (macros : Macros) (name : String) (value : MacroValue)
    (hdates : macros.DatesResolve now.date) (hname : Token.IsName name)
    (hfind : macros.find? name = some value) (hdollar : ∀ s, value = .text s → '$' ∉ s.toList) :
    ∃ after stored computed,
      expand now macros (placeholderOf name) = (after, .ok ⟨stored, []⟩) ∧
      expand now macros (blockOf name) = (after, .ok ⟨computed, []⟩) ∧
      (∀ b, value = .bool b → stored = computed) ∧
      (∀ s, value = .text s → stored = computed) ∧
      ∀ i, value = .int i →
        (stored = computed ↔ Value.numberText (Decimal.ofInt64 i) = intDigits i.toInt) ∧
        (i.toInt.natAbs ≤ 2 ^ 53 → stored = computed) := by
  have hafter : ((macros.dated now.date).addBuiltins now).find? name =
      some (value.on now.date name) := Macros.find?_prepared_of_find? hfind
  have hprepare := Macros.prepare_eq hdates
  refine ⟨(macros.dated now.date).addBuiltins now, String.ofList (value.on now.date name).display,
    String.ofList (Value.ofMacro (value.on now.date name)).display, ?_, ?_, ?_, ?_, ?_⟩
  · rw [expand_of_prepare hprepare,
      Macros.putInto_placeholderOf hname.1.isWordText.1 (hname.1.not_mem (by decide)) hafter
        (MacroValue.not_dollar_on hdates hfind hdollar)]
  · rw [expand_of_prepare hprepare, Macros.putInto_blockOf_name hname hafter]
  · rintro b rfl
    rfl
  · rintro s rfl
    obtain ⟨s', hs'⟩ := MacroValue.exists_on_text now.date name s
    rw [hs']
    rfl
  · rintro i rfl
    have hsame : String.ofList (intDigits i.toInt) =
        String.ofList (Value.numberText (Decimal.ofInt64 i)) ↔
          Value.numberText (Decimal.ofInt64 i) = intDigits i.toInt := by
      rw [String.ofList_inj, eq_comm]
    exact ⟨hsame, fun hi => hsame.2 (Decimal.numberText_ofInt64 hi)⟩

/-- A truth value, a date literal, and the greatest integer up to which all are printed alike. -/
def Macros.kinds : Macros :=
  [("flag", .bool true), ("day", .text ":YYYYMMDD-1"), ("n", .int 9007199254740992)]

/-- All three are printed alike. -/
theorem expand_name_of_kinds :
    expand .sample .kinds (placeholderOf "flag") = expand .sample .kinds (blockOf "flag") ∧
      expand .sample .kinds (placeholderOf "day") = expand .sample .kinds (blockOf "day") ∧
      expand .sample .kinds (placeholderOf "n") = expand .sample .kinds (blockOf "n") ∧
      (expand .sample .kinds (blockOf "day")).2 = .ok ⟨"2024-03-14", []⟩ ∧
      (expand .sample .kinds (blockOf "n")).2 = .ok ⟨"9007199254740992", []⟩ := by
  have hdates : Macros.DatesResolve Instant.sample.date .kinds := by
    intro name value hmem _
    simp only [Macros.kinds, List.mem_cons, Prod.mk.injEq, MacroValue.text.injEq, reduceCtorEq,
      and_false, List.not_mem_nil, or_false, false_or] at hmem
    obtain ⟨rfl, rfl⟩ := hmem
    exact ⟨"2024-03-14", by decide +kernel⟩
  have hflag : Token.IsName "flag" :=
    ⟨.intro (by decide) (List.all_eq_true.1 (by decide)), by decide⟩
  have hday : Token.IsName "day" :=
    ⟨.intro (by decide) (List.all_eq_true.1 (by decide)), by decide⟩
  have hn : Token.IsName "n" := ⟨.intro (by decide) (List.forall_mem_nil _), by decide⟩
  refine ⟨?_, ?_, ?_, by decide +kernel, by decide +kernel⟩
  · obtain ⟨after, stored, computed, hstored, hcomputed, hbool, -, -⟩ :=
      expand_name .sample .kinds "flag" (.bool true) hdates hflag rfl fun s hs => by cases hs
    rw [hstored, hcomputed, hbool true rfl]
  · obtain ⟨after, stored, computed, hstored, hcomputed, -, htext, -⟩ :=
      expand_name .sample .kinds "day" (.text ":YYYYMMDD-1") hdates hday rfl fun s hs => by
        cases hs
        decide
    rw [hstored, hcomputed, htext _ rfl]
  · obtain ⟨after, stored, computed, hstored, hcomputed, -, -, hint⟩ :=
      expand_name .sample .kinds "n" (.int 9007199254740992) hdates hn rfl fun s hs => by cases hs
    rw [hstored, hcomputed, (hint _ rfl).2 (by decide)]

/-- The next integer is no double, and is printed in two ways. -/
theorem expand_name_of_large_integer :
    Macros.DatesResolve Instant.sample.date [("n", .int 9007199254740993)] ∧
      Token.IsName "n" ∧
      (expand .sample [("n", .int 9007199254740993)] (placeholderOf "n")).2 =
        .ok ⟨"9007199254740993", []⟩ ∧
      (expand .sample [("n", .int 9007199254740993)] (blockOf "n")).2 =
        .ok ⟨"9007199254740992", []⟩ := by
  refine ⟨fun name value hmem => ?_, ⟨.intro (by decide) (List.forall_mem_nil _), by decide⟩,
    by decide +kernel, by decide +kernel⟩
  simp at hmem

end ReportQuery
