import ReportQuery.Proofs.Expr.Variables
import ReportQuery.Proofs.Macro.Settled
/-!
# What a text mentions

A text mentions macros in two ways: by the names of its placeholders, and, once these have been
filled in, by the names among the tokens of its expression blocks. What a run makes of a text
depends on the macros that it mentions (`Macros.putInto_congr`), and a macro after preparation
depends on the same macro before it. So two runs with other macros besides have the same
outcome, be it a text or an error (`expand_of_agree`).
-/

namespace ReportQuery

open Text Placeholder

variable {macros others : Macros} {now : Instant} {name : String} {text : List Char}

/-- The name that a token is. -/
def Token.name? : Token → Option String
  | .name s => some s
  | _ => none

/-- The names among the tokens of a source. A source that is not made of tokens has none. -/
def sourceNames (source : List Char) : List String :=
  match Token.scan source with
  | .ok tokens => tokens.filterMap fun t => t.token.name?
  | .error _ => []

/-- The names among the tokens of the expression blocks of a text. -/
def blockNames (text : List Char) : List String :=
  (parts (fun _ t => blockLength t) text).flatMap fun
    | .kept _ => []
    | .piece block => sourceNames (blockSource block)

theorem mem_blockNames {block : List Char}
    (h : Part.piece block ∈ parts (fun _ t => blockLength t) text)
    (hname : name ∈ sourceNames (blockSource block)) : name ∈ blockNames text :=
  List.mem_flatMap.2 ⟨.piece block, h, hname⟩

/-! ## Runs on prepared macros -/

theorem evaluate_congr_of_names {source : List Char}
    (h : ∀ name ∈ sourceNames source, macros.find? name = others.find? name) :
    Expr.evaluate ⟨macros, now⟩ source = Expr.evaluate ⟨others, now⟩ source := by
  refine Expr.evaluate_congr fun tokens hscan t ht name htoken => h name ?_
  rw [sourceNames, hscan]
  exact List.mem_filterMap.2 ⟨t, ht, by rw [htoken]; rfl⟩

theorem evalParts_congr {parts : List Part} (h : ∀ block, Part.piece block ∈ parts →
      ∀ name ∈ sourceNames (blockSource block), macros.find? name = others.find? name) :
    evalParts ⟨macros, now⟩ parts = evalParts ⟨others, now⟩ parts := by
  induction parts with
  | nil => rfl
  | cons part rest ih =>
    have hrest := ih fun block hblock => h block (List.mem_cons_of_mem _ hblock)
    cases part with
    | kept c => simp only [evalParts, hrest]
    | piece block =>
      have hblock : Expr.evaluate ⟨macros, now⟩ (blockSource block) =
          Expr.evaluate ⟨others, now⟩ (blockSource block) :=
        evaluate_congr_of_names (h block List.mem_cons_self)
      simp only [evalParts, hblock, hrest]

/-- Placeholders are filled in with the macros of their names. -/
theorem fillPlaceholders_congr
    (h : ∀ name ∈ names unmarked text, macros.find? name = others.find? name) :
    fillPlaceholders macros text = fillPlaceholders others text := by
  rw [fillPlaceholders, fillPlaceholders, replace, replace, List.flatMap_def, List.flatMap_def]
  refine congrArg _ (List.map_congr_left fun part hpart => ?_)
  cases part with
  | kept c => rfl
  | piece p => simp only [h _ (mem_names.2 ⟨p, hpart, rfl⟩)]

theorem unknown_congr (h : ∀ name ∈ names unmarked text, macros.find? name = others.find? name) :
    unknown unmarked macros.has text = unknown unmarked others.has text := by
  rw [unknown_eq, unknown_eq]
  refine congrArg _ (List.filter_congr fun name hname => ?_)
  rw [Entries.has, Entries.has, h name hname]

/-- **What macros make of a text** depends on those that it mentions. -/
theorem Macros.putInto_congr
    (hnames : ∀ name ∈ names unmarked text, macros.find? name = others.find? name)
    (hblocks : ∀ name ∈ blockNames (fillPlaceholders macros text),
      macros.find? name = others.find? name) :
    macros.putInto now text = others.putInto now text := by
  have hevaluated : evalBlocks ⟨macros, now⟩ (fillPlaceholders macros text) =
      evalBlocks ⟨others, now⟩ (fillPlaceholders macros text) :=
    evalParts_congr fun block hblock name hname => hblocks name (mem_blockNames hblock hname)
  rw [putInto, putInto, hevaluated, fillPlaceholders_congr hnames, unknown_congr hnames]

/-! ## Runs -/

/-- A macro after preparation depends on the same macro before it. -/
theorem Macros.find?_prepare_congr (hdates : macros.DatesResolve now.date)
    (hothers : others.DatesResolve now.date) (h : macros.find? name = others.find? name) :
    (macros.prepare now).1.find? name = (others.prepare now).1.find? name := by
  rw [prepare_eq hdates, prepare_eq hothers, find?_prepared, find?_prepared, h]

/-- **A run depends on the macros that the text mentions.** Two lists of macros, whose date
literals all have dates, may differ on every other name: they fill in the placeholders of a
text alike, and the runs have the same text and report the same names, or fail with the
same error. -/
theorem expand_of_agree (now : Instant) (macros others : Macros) (text : List Char)
    (hdates : macros.DatesResolve now.date) (hothers : others.DatesResolve now.date)
    (hnames : ∀ name ∈ names unmarked text, macros.find? name = others.find? name)
    (hblocks : ∀ name ∈ blockNames (fillPlaceholders (macros.prepare now).1 text),
      macros.find? name = others.find? name) :
    fillPlaceholders (macros.prepare now).1 text = fillPlaceholders (others.prepare now).1 text ∧
      (expand now macros text).2 = (expand now others text).2 := by
  have hplaceholders : ∀ name ∈ names unmarked text,
      (macros.prepare now).1.find? name = (others.prepare now).1.find? name :=
    fun name hname => Macros.find?_prepare_congr hdates hothers (hnames name hname)
  refine ⟨fillPlaceholders_congr hplaceholders, ?_⟩
  have hprepare {given : Macros} (h : given.DatesResolve now.date) :
      given.prepare now = ((given.prepare now).1, none) := by rw [Macros.prepare_eq h]
  rw [expand_of_prepare (hprepare hdates), expand_of_prepare (hprepare hothers)]
  exact Macros.putInto_congr hplaceholders fun name hname =>
    Macros.find?_prepare_congr hdates hothers (hblocks name hname)

/-- A macro that is read, and one that is not. -/
def Macros.reader (secret : String) : Macros :=
  [("region", .text "eu"), ("day", .text ":YYYYMMDD-1"), ("secret", .text secret)]

/-- A text with a placeholder of a date literal, an unknown one, and a block that calls a
function on a macro. -/
theorem expand_of_agree_sample :
    (expand .sample (.reader "a") "{day} {u} ${upper(region)}".toList).2 =
        .ok ⟨"2024-03-14 {u} EU", ["u"]⟩ ∧
      (expand .sample (.reader "${b}") "{day} {u} ${upper(region)}".toList).2 =
        .ok ⟨"2024-03-14 {u} EU", ["u"]⟩ := by
  have hdate : DateLiteral.resolve "day" ":YYYYMMDD-1" Instant.sample.date = .ok "2024-03-14" := by
    decide +kernel
  have hdates (secret : String) (hsecret : DateLiteral.isMarked secret.toList = false) :
      (Macros.reader secret).DatesResolve Instant.sample.date := by
    intro name value hmem hmarked
    simp only [Macros.reader, List.mem_cons, Prod.mk.injEq, MacroValue.text.injEq,
      List.not_mem_nil, or_false] at hmem
    rcases hmem with ⟨rfl, rfl⟩ | ⟨rfl, rfl⟩ | ⟨rfl, rfl⟩
    · exact absurd hmarked (by decide)
    · exact ⟨_, hdate⟩
    · rw [hsecret] at hmarked
      cases hmarked
  have hnames : names unmarked "{day} {u} ${upper(region)}".toList = ["day", "u"] := by
    decide +kernel
  have hblocks : blockNames (fillPlaceholders ((Macros.reader "a").prepare .sample).1
      "{day} {u} ${upper(region)}".toList) = ["upper", "region"] := by decide +kernel
  have hrun : (expand .sample (.reader "a") "{day} {u} ${upper(region)}".toList).2 =
      .ok ⟨"2024-03-14 {u} EU", ["u"]⟩ := by decide +kernel
  have hagree := expand_of_agree .sample (.reader "a") (.reader "${b}")
    "{day} {u} ${upper(region)}".toList (hdates _ (by decide)) (hdates _ (by decide))
    (by rw [hnames]; simp [Macros.reader, Entries.find?])
    (by rw [hblocks]; simp [Macros.reader, Entries.find?])
  exact ⟨hrun, hagree.2.symm.trans hrun⟩

end ReportQuery
