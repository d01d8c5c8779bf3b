import ReportQuery.Proofs.Entries
import ReportQuery.Proofs.Template.Call
/-!
# Parameters in calls

Parameters are split at their commas before a template is rendered, and `join`, `upper` and `lower`
put the parts of an argument together again. `render_of_stands` reduces a call to the value of its
helper, `separatedBy` says what joining with a separator comes to, and `render_split_iff` says where
the splitting shows: in a separator that is itself a parameter (`render_split_fails`).
-/

namespace ReportQuery.Template

open ReportQuery.Text

variable {sep text : List Char} {texts : List (List Char)} {params : Entries Json} {name : String}
variable {v : Json} {values : List Json}

/-! ## Texts with commas -/

/-- A text with a separator in the place of every comma. -/
def separatedBy (sep text : List Char) : List Char :=
  text.flatMap fun c => if c = ',' then sep else [c]

theorem separatedBy_cons (sep text : List Char) (c : Char) :
    separatedBy sep (c :: text) = (if c = ',' then sep else [c]) ++ separatedBy sep text :=
  List.flatMap_cons

/-- **The parts of a text, joined by a separator, are the text with that separator.** -/
theorem join_cells_comma (sep text : List Char) :
    join sep (cells ',' text) = separatedBy sep text := by
  induction text with
  | nil => rfl
  | cons c text ih =>
    rw [separatedBy_cons]
    by_cases hc : c = ','
    · rw [cells, if_pos hc, if_pos hc, join_cons (cells_ne_nil ',' text), List.nil_append, ih]
    · obtain ⟨part, parts, hcells, hcons⟩ := cells_cons_of_ne text hc
      rw [hcons, ← cons_join, ← hcells, ih, if_neg hc, List.singleton_append]

/-- With a comma the text stays as it is. -/
theorem separatedBy_comma (text : List Char) : separatedBy [','] text = text := by
  rw [← join_cells_comma, join_cells]

theorem separatedBy_of_not_mem (h : ',' ∉ text) : separatedBy sep text = text := by
  rw [← join_cells_comma, cells_of_not_mem h, join]

/-- Every comma is replaced by the characters of the separator. -/
theorem length_separatedBy (sep text : List Char) :
    (separatedBy sep text).length + text.count ',' = text.length + text.count ',' * sep.length := by
  induction text with
  | nil => simp [separatedBy]
  | cons c text ih =>
    rw [separatedBy_cons, List.length_append, List.length_cons]
    by_cases hc : c = ','
    · rw [if_pos hc, hc, List.count_cons_self, Nat.add_mul]
      omega
    · rw [if_neg hc, List.count_cons_of_ne hc, List.length_singleton]
      omega

theorem count_separatedBy (sep text : List Char) :
    (separatedBy sep text).count ',' = text.count ',' * sep.count ',' := by
  induction text with
  | nil => simp [separatedBy]
  | cons c text ih =>
    rw [separatedBy_cons, List.count_append, ih]
    by_cases hc : c = ','
    · rw [if_pos hc, hc, List.count_cons_self, Nat.add_mul]
      omega
    · rw [if_neg hc, List.count_cons_of_ne hc, List.count_cons_of_ne hc, List.count_nil]
      omega

/-- **Only a comma leaves a text with commas as it is.** -/
theorem separatedBy_eq_self_iff :
    separatedBy sep text = text ↔ sep = [','] ∨ ',' ∉ text := by
  constructor
  · intro h
    by_contra hnot
    rw [not_or, not_not] at hnot
    obtain ⟨hsep, hmem⟩ := hnot
    have hpos : 0 < text.count ',' := List.count_pos_iff.2 hmem
    have hlength := length_separatedBy sep text
    have hcount := count_separatedBy sep text
    rw [h] at hlength hcount
    -- neither the length nor the number of commas changes
    have hone : sep.length = 1 := by
      refine Nat.eq_of_mul_eq_mul_left hpos ?_
      omega
    have hcomma : sep.count ',' = 1 := by
      refine Nat.eq_of_mul_eq_mul_left hpos ?_
      omega
    obtain ⟨c, rfl⟩ := List.length_eq_one_iff.1 hone
    have hc : ',' ∈ [c] := List.count_pos_iff.1 (by omega)
    exact hsep (by rw [List.mem_singleton.1 hc])
  · rintro (rfl | h)
    · exact separatedBy_comma text
    · exact separatedBy_of_not_mem h

/-! ## Values of parameters -/

theorem plainItems_map (parts : List (List Char)) :
    plainItems (parts.map fun part => .string (String.ofList part)) = parts := by
  induction parts with
  | nil => rfl
  | cons part parts ih =>
    rw [List.map_cons, plainItems, ih, plain, String.toList_ofList]

/-- **A text that is split is joined again by its separator.** -/
theorem joined_splitValue (sep : List Char) (s : String) :
    joined sep (splitValue (.string s)) = separatedBy sep s.toList := by
  rw [splitValue]
  split
  · next hs =>
    subst hs
    rfl
  · rw [joined, plainItems_map, join_cells_comma]

/-- **As the argument of a helper, a text that is split is that text.** -/
theorem plain_splitValue (s : String) : plain (splitValue (.string s)) = s.toList := by
  rw [splitValue]
  split
  · rfl
  · rw [plain, plainItems_map, join_cells]

/-- A list is no text, so a text that is split is no separator. -/
theorem separatorOf_splitValue (v : Json) (s : String) :
    separatorOf [v, splitValue (.string s)] = if s = "" then [] else [','] := by
  rw [splitValue]
  split
  · next hs =>
    subst hs
    rfl
  · rfl

/-- A value that has been split is not split again. -/
theorem splitValue_splitValue (v : Json) : splitValue (splitValue v) = splitValue v := by
  cases v with
  | string s =>
    rw [splitValue]
    split
    · next hs => rw [splitValue, if_pos hs]
    · rfl
  | null | bool _ | number _ | array _ | object _ => rfl

/-- **Splitting parameters again changes nothing.** -/
theorem splitParameters_splitParameters (params : Entries Json) :
    splitParameters (splitParameters params) = splitParameters params := by
  rw [splitParameters, splitParameters, List.map_map]
  exact List.map_congr_left fun entry _ =>
    congrArg (Prod.mk entry.1) (splitValue_splitValue entry.2)

/-! ## Calls with parameters -/

/-- **What is written for a value.** A name stands for what its parameter is split into, and a
literal for its text. -/
inductive Stands (params : Entries Json) : (text : List Char) → Json → Prop
  | name {name : String} {v : Json} (h : IsParameterName name) (hv : params.find? name = some v) :
      Stands params name.toList (splitValue v)
  | text {s : String} {literal : List Char} (h : IsQuoted literal s.toList) :
      Stands params literal (.string s)

theorem evalArgument_name (h : params.find? name = some v) :
    evalArgument (.ofRoot (.object (splitParameters params))) (.path name (.field .here [name])) =
      .ok (splitValue v) := by
  have hfind : (splitParameters params).find? name = some (splitValue v) := by
    have hmap : (splitParameters params).find? name = (params.find? name).map splitValue :=
      Entries.find?_map fun _ => splitValue
    rw [hmap, h, Option.map_some]
  rw [evalArgument]
  simp [Scope.value, Scope.fieldAt, Scope.named?, Scope.ofRoot, Scope.contextAt, descend, hfind,
    Entries.find?]

/-- What is written for values is read as arguments that have these values. -/
theorem exists_written_of_stands (h : List.Forall₂ (Stands params) texts values) :
    ∃ args, List.Forall₂ IsWritten texts args ∧
      evalArguments (.ofRoot (.object (splitParameters params))) args = .ok values := by
  induction h with
  | nil => exact ⟨[], .nil, rfl⟩
  | @cons text v texts values hv _ ih =>
    obtain ⟨args, hargs, hvalues⟩ := ih
    cases hv with
    | name h hv =>
      refine ⟨_, .cons (.name h) hargs, ?_⟩
      rw [evalArguments, evalArgument_name hv, hvalues]
      rfl
    | text h =>
      refine ⟨_, .cons (.text h) hargs, ?_⟩
      rw [evalArguments, evalArgument, hvalues]
      rfl

/-- **A call is rendered as the text that the helper makes of what its arguments stand for.** -/
theorem render_of_stands (hname : IsName name) (helse : name ≠ "else")
    (h : List.Forall₂ (Stands params) texts values) (hne : values ≠ [])
    (hresult : helperValue name values [] = .ok (.string (String.ofList text))) :
    render (callTag name texts) params = .ok text := by
  obtain ⟨args, hargs, hvalues⟩ := exists_written_of_stands h
  -- a name without arguments is a path and no call
  have hsome : args ≠ [] := by
    rintro rfl
    cases hvalues
    exact hne rfl
  rw [render_callTag hname helse hargs hsome hvalues hresult, String.toList_ofList]

theorem isName_join : IsName "join" := .of_all (by decide) (by decide)

section Helpers

variable {p q s sep : String} (hp : IsParameterName p) (hs : params.find? p = some (.string s))
include hp hs

theorem render_upper : render (callTag "upper" [p.toList]) params = .ok (upper s.toList) := by
  refine render_of_stands (.of_all (by decide) (by decide)) (by decide) (.cons (.name hp hs) .nil)
    (List.cons_ne_nil _ _) ?_
  simp only [helperValue, List.headD_cons, plain_splitValue]

theorem render_lower : render (callTag "lower" [p.toList]) params = .ok (lower s.toList) := by
  refine render_of_stands (.of_all (by decide) (by decide)) (by decide) (.cons (.name hp hs) .nil)
    (List.cons_ne_nil _ _) ?_
  simp only [helperValue, List.headD_cons, plain_splitValue]

/-- Without a separator the parts are joined as they were split. -/
theorem render_join : render (callTag "join" [p.toList]) params = .ok s.toList := by
  refine render_of_stands isName_join (by decide) (.cons (.name hp hs) .nil)
    (List.cons_ne_nil _ _) ?_
  rw [helperValue, separatorOf, List.headD_cons, joined_splitValue, separatedBy_comma]
  rintro _ _ _ ⟨⟩

/-- A separator that is a literal of the call stands between the parts. -/
theorem render_join_text {sep literal : List Char} (hsep : IsQuoted literal sep) :
    render (callTag "join" [p.toList, literal]) params = .ok (separatedBy sep s.toList) := by
  rw [← String.toList_ofList (l := sep)] at hsep
  refine render_of_stands isName_join (by decide) (.cons (.name hp hs) (.cons (.text hsep) .nil))
    (List.cons_ne_nil _ _) ?_
  rw [helperValue, separatorOf, List.headD_cons, joined_splitValue, String.toList_ofList]

/-- **A separator that is a parameter is passed over**, unless it is empty. -/
theorem render_join_name (hq : IsParameterName q) (hsep : params.find? q = some (.string sep)) :
    render (callTag "join" [p.toList, q.toList]) params =
      .ok (if sep = "" then separatedBy [] s.toList else s.toList) := by
  refine render_of_stands isName_join (by decide) (.cons (.name hp hs) (.cons (.name hq hsep) .nil))
    (List.cons_ne_nil _ _) ?_
  rw [helperValue, separatorOf_splitValue, List.headD_cons, joined_splitValue]
  split
  · rfl
  · rw [separatedBy_comma]

end Helpers

/-- **Splitting shows in one place.** It is done once for all. With a text for a parameter, `join`,
`upper` and `lower` give that text, as it is or in the other case, and a separator that is a literal
of the call stands in the place of every comma. A separator that is a parameter is a list by then,
and `join` goes back to the comma: this is right just if the separator is empty, and so never split,
if it is the comma itself, or if there is nothing to separate. -/
theorem render_split_iff (params : Entries Json) :
    splitParameters (splitParameters params) = splitParameters params ∧
      ∀ p s : String, IsParameterName p → params.find? p = some (.string s) →
        render (callTag "join" [p.toList]) params = .ok s.toList ∧
        render (callTag "upper" [p.toList]) params = .ok (upper s.toList) ∧
        render (callTag "lower" [p.toList]) params = .ok (lower s.toList) ∧
        (∀ sep, (∃ literal, IsQuoted literal sep) ∧ ∀ literal, IsQuoted literal sep →
          render (callTag "join" [p.toList, literal]) params = .ok (separatedBy sep s.toList)) ∧
        ∀ q sep : String, IsParameterName q → params.find? q = some (.string sep) →
          render (callTag "join" [p.toList, q.toList]) params =
            .ok (if sep = "" then separatedBy [] s.toList else s.toList) ∧
          (render (callTag "join" [p.toList, q.toList]) params =
              .ok (separatedBy sep.toList s.toList) ↔
            sep = "" ∨ sep = "," ∨ ',' ∉ s.toList) := by
  refine ⟨splitParameters_splitParameters params, fun p s hp hs =>
    ⟨render_join hp hs, render_upper hp hs, render_lower hp hs,
      fun sep => ⟨exists_isQuoted sep, fun literal hsep => render_join_text hp hs hsep⟩,
      fun q sep hq hsep => ?_⟩⟩
  rw [render_join_name hp hs hq hsep]
  refine ⟨rfl, ?_⟩
  rw [Except.ok.injEq]
  by_cases hempty : sep = ""
  · simp [hempty]
  · have hcomma : sep.toList = [','] ↔ sep = "," := by
      rw [← String.toList_inj]
      rfl
    rw [if_neg hempty, eq_comm, separatedBy_eq_self_iff, hcomma]
    simp [hempty]

/-- Letters in lower case depend on where a word ends, though the text was split there. -/
theorem render_split_iff_sample :
    let params : Entries Json := [("p", .string ",AΣ,,b"), ("q", .string ""), ("r", .string "|")]
    IsParameterName "p" ∧ IsParameterName "q" ∧ IsParameterName "r" ∧
      IsQuoted "'\"\\u007c'".toList "\"|".toList ∧
      render (callTag "join" ["p".toList]) params = .ok ",AΣ,,b".toList ∧
      render (callTag "upper" ["p".toList]) params = .ok ",AΣ,,B".toList ∧
      render (callTag "lower" ["p".toList]) params = .ok ",aς,,b".toList ∧
      render (callTag "join" ["p".toList, "'\"\\u007c'".toList]) params =
        .ok "\"|AΣ\"|\"|b".toList ∧
      render (callTag "join" ["p".toList, "q".toList]) params = .ok "AΣb".toList ∧
      render (callTag "join" ["p".toList, "r".toList]) params ≠ .ok "|AΣ||b".toList := by
  intro params
  have hp : IsParameterName "p" := ⟨.of_all (by decide) (by decide), by decide, by decide⟩
  have hq : IsParameterName "q" := ⟨.of_all (by decide) (by decide), by decide, by decide⟩
  have hr : IsParameterName "r" := ⟨.of_all (by decide) (by decide), by decide, by decide⟩
  have hquoted : IsQuoted "'\"\\u007c'".toList "\"|".toList :=
    .single (.cons .double (.cons (.other (.hex rfl) (by decide) (by decide)) .nil))
  have hupper : upper ",AΣ,,b".toList = ",AΣ,,B".toList := by decide +kernel
  have hlower : lower ",AΣ,,b".toList = ",aς,,b".toList := by decide +kernel
  have hbars : separatedBy "|".toList ",AΣ,,b".toList = "|AΣ||b".toList := by decide
  have hquotes : separatedBy "\"|".toList ",AΣ,,b".toList = "\"|AΣ\"|\"|b".toList := by decide
  have hnone : separatedBy [] ",AΣ,,b".toList = "AΣb".toList := by decide
  obtain ⟨hjoin, hup, hlow, htext, hname⟩ := (render_split_iff params).2 "p" ",AΣ,,b" hp rfl
  obtain ⟨hempty, -⟩ := hname "q" "" hq rfl
  obtain ⟨-, hbar⟩ := hname "r" "|" hr rfl
  have hwritten := (htext _).2 _ hquoted
  rw [hupper] at hup
  rw [hlower] at hlow
  rw [if_pos rfl, hnone] at hempty
  rw [hbars] at hbar
  rw [hquotes] at hwritten
  exact ⟨hp, hq, hr, hquoted, hjoin, hup, hlow, hwritten, hempty,
    fun h => absurd (hbar.1 h) (by decide)⟩

/-- Of one separator, the literal is taken and the parameter is not. -/
theorem render_split_fails :
    let params : Entries Json := [("p", .string "a,b"), ("q", .string "|")]
    separatedBy "|".toList "a,b".toList = "a|b".toList ∧
      render "\x7b\x7bjoin p \"|\"\x7d\x7d".toList params = .ok "a|b".toList ∧
      render "\x7b\x7bjoin p q\x7d\x7d".toList params = .ok "a,b".toList := by
  intro params
  have hp : IsParameterName "p" := ⟨.of_all (by decide) (by decide), by decide, by decide⟩
  have hq : IsParameterName "q" := ⟨.of_all (by decide) (by decide), by decide, by decide⟩
  have hs : params.find? "p" = some (.string "a,b") := rfl
  have hsep : params.find? "q" = some (.string "|") := rfl
  have hbar : separatedBy "|".toList "a,b".toList = "a|b".toList := by decide
  have hquoted : IsQuoted "\"|\"".toList "|".toList :=
    .double (.cons (.plain (by decide) (by decide) (by decide)) .nil)
  have hliteral : callTag "join" ["p".toList, "\"|\"".toList] =
      "\x7b\x7bjoin p \"|\"\x7d\x7d".toList := by
    decide
  have hnamed : callTag "join" ["p".toList, "q".toList] = "\x7b\x7bjoin p q\x7d\x7d".toList := by
    decide
  have htext := render_join_text hp hs hquoted
  have hname := render_join_name hp hs hq hsep
  rw [hliteral, hbar] at htext
  rw [hnamed, if_neg (by decide)] at hname
  exact ⟨hbar, htext, hname⟩

end ReportQuery.Template
