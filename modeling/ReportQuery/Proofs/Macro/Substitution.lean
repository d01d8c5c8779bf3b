import ReportQuery.Macro.Expansion
import ReportQuery.Proofs.Entries
import ReportQuery.Proofs.Placeholder
/-!
# Macros in a text without dollar signs

What a text becomes when every placeholder is replaced by what its name stands for is a
relation of its own (`Filled`). A name stands for the text of its macro, a date literal for
its date, and for a built-in macro if the name is not given (`Macros.standsFor`). A text
without a dollar sign is filled in just so, and as long as the values do not make an
expression block of what they are put into, this is all that happens to it
(`expand_of_not_dollar`).
-/

namespace ReportQuery

open Text Placeholder

/-- The value that a macro has on a day: a date literal has its date. -/
def MacroValue.on (today : Date) (name : String) : MacroValue → MacroValue
  | .text value =>
    if DateLiteral.isMarked value.toList then
      match DateLiteral.resolve name value today with
      | .ok date => .text date
      | .error _ => .text value
    else .text value
  | value => value

namespace Macros

/-- Every date literal among the macros has a date. -/
def DatesResolve (today : Date) (macros : Macros) : Prop :=
  ∀ name value, (name, .text value) ∈ macros → DateLiteral.isMarked value.toList →
    ∃ date, DateLiteral.resolve name value today = .ok date

/-- The text that a name stands for. -/
def standsFor (now : Instant) (macros : Macros) (name : String) : Option (List Char) :=
  ((macros.find? name).map fun value => (value.on now.date name).display).or
    (((builtins now).find? name).map String.toList)

end Macros

/-- The text with every placeholder replaced by what its name stands for. A placeholder of
another name is kept. -/
inductive Filled (value : String → Option (List Char)) : List Char → List Char → Prop
  | nil : Filled value [] []
  | kept {c : Char} {cs out : List Char} : (∀ name rest, ¬ Starts name rest (c :: cs)) →
      Filled value cs out → Filled value (c :: cs) (c :: out)
  | known {name rest text filling out : List Char} : Starts name rest text →
      value (String.ofList name) = some filling → Filled value rest out →
      Filled value text (filling ++ out)
  | unknown {name rest text out : List Char} : Starts name rest text →
      value (String.ofList name) = none → Filled value rest out →
      Filled value text ('{' :: (name ++ '}' :: out))

/-- The text has no expression block: no closing brace follows a `$` and an opening one. -/
def Blockless (text : List Char) : Prop :=
  ∀ left rest, text = left ++ '$' :: '{' :: rest → '}' ∉ rest

variable {value : String → Option (List Char)} {text out out' cs : List Char} {c : Char}
variable {macros : Macros} {now : Instant} {today : Date} {name : String}

/-! ## The macros after preparation -/

namespace Macros

/-- The texts of the macros have the same names. -/
theorem has_texts (macros : Macros) : macros.texts.has name = macros.has name := by
  have hfind := @Entries.find?_map _ _ name macros fun _ value => String.ofList value.display
  rw [texts, Entries.has, hfind, Option.isSome_map, Entries.has]

theorem resolveDates_of_resolve (h : macros.DatesResolve today) :
    resolveDates today macros = (macros.map fun m => (m.1, m.2.on today m.1), none) := by
  induction macros with
  | nil => rfl
  | cons entry rest ih =>
    obtain ⟨name, value⟩ := entry
    have hrest : DatesResolve today rest := fun name value hmem => h name value (by simp [hmem])
    cases value with
    | text value =>
      rw [resolveDates, List.map_cons]
      split
      · next hmarked =>
        obtain ⟨date, hdate⟩ := h name value (by simp) hmarked
        simp [hdate, ih hrest, MacroValue.on, hmarked]
      · next hmarked => simp [ih hrest, MacroValue.on, hmarked]
    | bool _ | int _ | double _ => simp [resolveDates, ih hrest, MacroValue.on]

/-- A name that is given keeps its value when built-in macros are added. -/
theorem find?_addBuiltins :
    (macros.addBuiltins now).find? name =
      (macros.find? name).or (((builtins now).find? name).map MacroValue.text) := by
  rw [addBuiltins]
  generalize builtins now = added
  induction added generalizing macros with
  | nil => simp [Entries.find?]
  | cons b added ih =>
    rw [List.foldl_cons, ih]
    by_cases hname : b.1 = name
    · subst hname
      split
      · next hhas =>
        obtain ⟨value, hvalue⟩ := Option.isSome_iff_exists.1 hhas
        simp [hvalue]
      · next hhas =>
        have hnone : macros.find? b.1 = none := by simpa [Entries.has] using hhas
        simp [Entries.find?_append, hnone, Entries.find?]
    · split
      · simp [Entries.find?, hname]
      · simp [Entries.find?_append, Entries.find?, hname]

/-- **The macros after preparation**: every name has what it stands for. -/
theorem prepare_of_resolve (h : macros.DatesResolve now.date) :
    ∃ after, macros.prepare now = (after, none) ∧
      ∀ name, (after.find? name).map MacroValue.display = macros.standsFor now name := by
  refine ⟨addBuiltins now (macros.map fun m => (m.1, m.2.on now.date m.1)), ?_, fun name => ?_⟩
  · rw [prepare, resolveDates_of_resolve h]
  · rw [find?_addBuiltins, Entries.find?_map (MacroValue.on now.date), standsFor, Option.map_or,
      Option.map_map, Option.map_map]
    rfl

end Macros

/-! ## The text with its placeholders filled in -/

/-- Without a dollar sign, every placeholder is one that is filled in. -/
theorem partsFrom_unmarked {before : Option Char} {skip : Nat} (hbefore : before ≠ some '$')
    (h : '$' ∉ text) :
    partsFrom unmarked before skip text = partsFrom anywhere before skip text := by
  induction text generalizing before skip with
  | nil => rfl
  | cons c cs ih =>
    have hc : some c ≠ some '$' := fun heq => h (Option.some.inj heq ▸ List.mem_cons_self)
    have hcs : '$' ∉ cs := fun hmem => h (List.mem_cons_of_mem c hmem)
    cases skip with
    | succ skip => rw [partsFrom, partsFrom, ih hc hcs]
    | zero =>
      have hlength : unmarked before (c :: cs) = anywhere before (c :: cs) := if_neg hbefore
      rw [partsFrom, partsFrom, hlength]
      split
      · rw [ih hc hcs]
      · rw [ih hc hcs]

namespace Filled

/-- **Filling in a text** without dollar signs replaces its placeholders, and only these. -/
theorem fillPlaceholders (hvalue : ∀ name, (macros.find? name).map MacroValue.display = value name)
    (h : '$' ∉ text) : Filled value text (fillPlaceholders macros text) := by
  rw [ReportQuery.fillPlaceholders, replace, parts, partsFrom_unmarked (by simp) h, ← parts]
  -- from here on the text is scanned without a look at the character before
  clear h
  induction text using scan_induction with
  | nil => exact .nil
  | kept c cs hno ih =>
    rw [Placeholder.parts_kept hno, List.flatMap_cons]
    exact .kept hno ih
  | placeholder name rest hne hmem ih =>
    have hstarts : Starts name rest ('{' :: (name ++ '}' :: rest)) := ⟨rfl, hne, hmem⟩
    have hname := hvalue (String.ofList name)
    rw [parts_starts hne hmem, List.flatMap_cons]
    simp only [name_braces]
    split
    · next found hfound =>
      rw [hfound, Option.map_some] at hname
      exact .known hstarts hname.symm ih
    · next hnone =>
      rw [hnone, Option.map_none] at hname
      simpa using unknown hstarts hname.symm ih

/-- Where no placeholder starts, the first character is kept. -/
theorem of_not_starts (h : Filled value (c :: cs) out)
    (hno : ∀ name rest, ¬ Starts name rest (c :: cs)) :
    ∃ out', out = c :: out' ∧ Filled value cs out' := by
  cases h with
  | kept _ h => exact ⟨_, rfl, h⟩
  | known hstarts _ _ | unknown hstarts _ _ => exact absurd hstarts (hno _ _)

/-- Where a placeholder starts, it is replaced or kept as a whole. -/
theorem of_starts {name rest : List Char} (h : Filled value text out)
    (hstarts : Starts name rest text) :
    ∃ out', Filled value rest out' ∧
      out = (value (String.ofList name)).getD ('{' :: (name ++ ['}'])) ++ out' := by
  cases h with
  | nil => cases hstarts.text_eq
  | kept hno _ => exact absurd hstarts (hno _ _)
  | known hstarts' hvalue h =>
    obtain ⟨rfl, rfl⟩ := hstarts.unique hstarts'
    exact ⟨_, h, by rw [hvalue, Option.getD_some]⟩
  | unknown hstarts' hvalue h =>
    obtain ⟨rfl, rfl⟩ := hstarts.unique hstarts'
    exact ⟨_, h, by simp [hvalue]⟩

/-- **There is one way to fill in a text.** -/
theorem unique (h : Filled value text out) (h' : Filled value text out') : out = out' := by
  induction text using scan_induction generalizing out out' with
  | nil =>
    cases h with
    | known hstarts _ _ | unknown hstarts _ _ => cases hstarts.text_eq
    | nil =>
      cases h' with
      | known hstarts _ _ | unknown hstarts _ _ => cases hstarts.text_eq
      | nil => rfl
  | kept c cs hno ih =>
    obtain ⟨rest, rfl, hrest⟩ := h.of_not_starts hno
    obtain ⟨rest', rfl, hrest'⟩ := h'.of_not_starts hno
    rw [ih hrest hrest']
  | placeholder name rest hne hmem ih =>
    obtain ⟨rest, hrest, rfl⟩ := h.of_starts ⟨rfl, hne, hmem⟩
    obtain ⟨rest', hrest', rfl⟩ := h'.of_starts ⟨rfl, hne, hmem⟩
    rw [ih hrest hrest']

/-- Only values bring dollar signs into a text. -/
theorem not_dollar (h : Filled value text out) (htext : '$' ∉ text)
    (hvalue : ∀ name filling, value name = some filling → '$' ∉ filling) : '$' ∉ out := by
  induction h with
  | nil => exact htext
  | kept _ _ ih =>
    obtain ⟨hc, hcs⟩ := List.ne_and_not_mem_of_not_mem_cons htext
    exact List.not_mem_cons_of_ne_of_not_mem hc (ih hcs)
  | known hstarts hfilling _ ih =>
    rw [hstarts.text_eq] at htext
    have hrest := ih fun hmem => htext (by simp [hmem])
    simpa using ⟨hvalue _ _ hfilling, hrest⟩
  | unknown hstarts _ _ ih =>
    rw [hstarts.text_eq] at htext
    have hrest := ih fun hmem => htext (by simp [hmem])
    have hname := fun hmem => htext (List.mem_cons_of_mem _ (List.mem_append_left _ hmem))
    simpa using ⟨hname, hrest⟩

end Filled

/-! ## Expression blocks -/

theorem exists_of_blockLength (h : 0 < blockLength text) :
    ∃ rest, text = '$' :: '{' :: rest ∧ '}' ∈ rest := by
  unfold blockLength at h
  split at h
  · next rest =>
    dsimp only at h
    split at h
    · next hlt =>
      refine ⟨rest, rfl, Decidable.byContradiction fun hmem => ?_⟩
      have hkeep : ∀ c ∈ rest, decide (c ≠ '}') = true := by
        intro c hc
        exact decide_eq_true fun heq => hmem (heq ▸ hc)
      rw [List.takeWhile_eq_self_iff.2 hkeep] at hlt
      exact absurd hlt (Nat.lt_irrefl _)
    · cases h
  · cases h

namespace Blockless

theorem of_cons (h : Blockless (c :: text)) : Blockless text := by
  rintro left rest rfl
  exact h (c :: left) rest rfl

theorem of_not_dollar (h : '$' ∉ text) : Blockless text := by
  rintro left rest rfl
  exact absurd (by simp) h

/-- **A text without an expression block has no part to evaluate.** -/
theorem parts_eq (h : Blockless text) : parts (fun _ t => blockLength t) text = text.map .kept := by
  induction text with
  | nil => rfl
  | cons c cs ih =>
    have hzero : blockLength (c :: cs) = 0 := by
      rcases Nat.eq_zero_or_pos (blockLength (c :: cs)) with hzero | hpos
      · exact hzero
      · obtain ⟨rest, heq, hmem⟩ := exists_of_blockLength hpos
        exact absurd hmem (h [] rest heq)
    rw [Text.parts_kept hzero, ih h.of_cons, List.map_cons]

theorem evalBlocks_eq (h : Blockless text) (scope : Scope) : evalBlocks scope text = .ok text := by
  have hkept (cs : List Char) : evalParts scope (cs.map .kept) = .ok cs := by
    induction cs with
    | nil => rfl
    | cons c cs ih => rw [List.map_cons, evalParts, ih]; rfl
  rw [evalBlocks, h.parts_eq, hkept]

end Blockless

/-! ## Expansion -/

/-- **Values are put in as they are**, as long as they make no expression block of the
text. A text without a dollar sign, whose date literals all have dates, is filled in
with what the names stand for, which leads to one text. If that text has no expression block,
no part of it is evaluated and the expansion is that text; and it has none
if no value has a dollar sign. -/
theorem expand_of_not_dollar (now : Instant) (macros : Macros) (text : List Char)
    (htext : '$' ∉ text) (hdates : macros.DatesResolve now.date) :
    ∃ out, (∀ out', Filled (macros.standsFor now) text out' ↔ out' = out) ∧
      (Blockless out →
        (expand now macros text).2.map Expansion.text = .ok (String.ofList out) ∧
        ∀ block, Part.piece block ∉ parts (fun _ t => blockLength t) out) ∧
      ((∀ name filling, macros.standsFor now name = some filling → '$' ∉ filling) →
        Blockless out) := by
  obtain ⟨after, hafter, hvalue⟩ := Macros.prepare_of_resolve hdates
  have hfilled := Filled.fillPlaceholders hvalue htext
  refine ⟨fillPlaceholders after text,
    fun out' => ⟨fun h => h.unique hfilled, fun h => h ▸ hfilled⟩,
    fun hblockless => ⟨?_, fun block hmem => ?_⟩,
    fun hdollar => .of_not_dollar (hfilled.not_dollar htext hdollar)⟩
  · have heval := hblockless.evalBlocks_eq ⟨after, now⟩
    simp only [expand, hafter, heval, bind, Except.bind, pure, Except.pure, Except.map]
  · rw [hblockless.parts_eq] at hmem
    simp at hmem

/-- The clock and the macros of the examples. -/
def Instant.sample : Instant := ⟨⟨2024, 3, 15, by decide⟩, 10, 30, 0⟩

def Macros.sample : Macros := [("day", .text ":YYYYMMDD-1"), ("braces", .text "{x}")]

/-- A date, a value with braces, an unknown name and a built-in macro in a text. -/
theorem expand_of_not_dollar_sample :
    Filled (Macros.standsFor .sample .sample) "{day} {braces} {u} {current_date}".toList
        "2024-03-14 {x} {u} 2024-03-15".toList ∧
      (expand .sample .sample "{day} {braces} {u} {current_date}".toList).2.map Expansion.text =
        .ok "2024-03-14 {x} {u} 2024-03-15" := by
  have hdates : Macros.DatesResolve Instant.sample.date .sample := by
    intro name value hmem hmarked
    rcases List.mem_pair.1 hmem with heq | heq
    · cases heq
      exact ⟨"2024-03-14", by decide +kernel⟩
    · cases heq
      exact absurd hmarked (by decide)
  have hdollar : ∀ name filling, Macros.standsFor .sample .sample name = some filling →
      '$' ∉ filling := by
    have hgiven : ∀ m ∈ Macros.sample, '$' ∉ (m.2.on Instant.sample.date m.1).display := by
      decide +kernel
    have hbuiltin : ∀ m ∈ Macros.builtins .sample, '$' ∉ m.2.toList := by decide +kernel
    intro name filling h
    rcases Option.or_eq_some_iff.1 h with h | ⟨-, h⟩
    · obtain ⟨value, hvalue, rfl⟩ := Option.map_eq_some_iff.1 h
      exact hgiven _ (Entries.mem_of_find? hvalue)
    · obtain ⟨value, hvalue, rfl⟩ := Option.map_eq_some_iff.1 h
      exact hbuiltin _ (Entries.mem_of_find? hvalue)
  obtain ⟨out, hfilled, hexpand, hblockless⟩ := expand_of_not_dollar .sample .sample
    "{day} {braces} {u} {current_date}".toList (by decide) hdates
  have hrun : (expand .sample .sample "{day} {braces} {u} {current_date}".toList).2.map
      Expansion.text = .ok "2024-03-14 {x} {u} 2024-03-15" := by decide +kernel
  have hout := (hexpand (hblockless hdollar)).1
  rw [hrun, Except.ok.injEq] at hout
  exact ⟨(hfilled _).2 (by rw [hout, String.toList_ofList]), hrun⟩

/-- A value that is an expression block is evaluated, although the text has no dollar
sign. -/
theorem expand_of_not_dollar_fails :
    '$' ∉ "{a}".toList ∧ Macros.DatesResolve Instant.sample.date [("a", .text "${b}")] ∧
    Filled (Macros.standsFor .sample [("a", .text "${b}")]) "{a}".toList "${b}".toList ∧
    (expand .sample [("a", .text "${b}")] "{a}".toList).2 =
      .error (.expression "b" (.unknownVariable "b")) := by
  refine ⟨by decide, fun name value hmem hmarked => ?_, ?_, by decide +kernel⟩
  · cases List.mem_singleton.1 hmem
    exact absurd hmarked (by decide)
  · have hstarts : Starts ['a'] [] "{a}".toList := ⟨by decide, by decide, by decide⟩
    have hvalue : Macros.standsFor .sample [("a", .text "${b}")] (String.ofList ['a']) =
        some "${b}".toList := by decide +kernel
    exact .known hstarts hvalue .nil

end ReportQuery
