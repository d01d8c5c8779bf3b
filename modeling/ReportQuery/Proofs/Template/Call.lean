import Mathlib.Data.List.Forall2
import ReportQuery.Proofs.Outcome
import ReportQuery.Proofs.Template.Argument
import ReportQuery.Template.Render
/-!
# Rendering a call

The tag of a call is the name of a helper with a space before each argument, in double braces. A
template that is one such tag is read as one node, the call of that helper with those arguments
(`parse?_callTag`), so it is rendered as the text that the helper makes of their values
(`render_callTag`).
-/

namespace ReportQuery.Template

open ReportQuery.Text Outcome

variable {a : Argument} {args : List Argument} {rest text : List Char} {texts : List (List Char)}
variable {fuel : Nat} {name : String}

/-! ## Arguments in a row -/

/-- Arguments with a space before each. -/
def spaced (texts : List (List Char)) : List Char := texts.flatMap (' ' :: ·)

theorem spaced_cons (text : List Char) (texts : List (List Char)) (rest : List Char) :
    spaced (text :: texts) ++ rest = ' ' :: (text ++ (spaced texts ++ rest)) := by
  rw [spaced, List.flatMap_cons, ← spaced, List.cons_append, List.cons_append, List.append_assoc]

/-- A further argument, or the closing brace, ends an argument. -/
theorem ends_spaced (h : List.Forall₂ IsWritten texts args) (rest : List Char) :
    Ends (spaced texts ++ '}' :: rest) := by
  cases h with
  | nil =>
    refine ⟨?_, ?_⟩
    · rintro _ ⟨⟩
      exact .inr rfl
    · rintro _ ⟨⟩
      decide
  | cons ha _ =>
    obtain ⟨c, cs, rfl, -, hc⟩ := ha.exists_head
    rw [spaced_cons]
    refine ⟨?_, ?_⟩
    · rintro _ ⟨⟩
      exact .inl rfl
    · rw [ha.skip_eq]
      rintro _ ⟨⟩
      exact hc

theorem argument?_brace (fuel : Nat) (rest : List Char) : argument? fuel ('}' :: rest) = none := by
  have hname : name? ('}' :: rest) = none := name?_of_head (by rintro _ ⟨⟩; decide)
  have hliteral (fuel : Nat) : afterLiteral? (fuel + 1) ('}' :: rest) = none := by
    have hdigit : isDigit '}' = false := by decide
    simp [afterLiteral?, afterNumber?_eq, unsigned, afterConstant?, hname, hdigit]
  have hpath : path? ('}' :: rest) = none := by
    simp [path?, dropHere, after?, outerSteps, step?, hname]
  cases fuel with
  | zero => rw [argument?]
  | succ fuel =>
    have hsub : subexpression? fuel ('}' :: rest) = none := by
      cases fuel with
      | zero => rw [subexpression?]
      | succ fuel =>
        rw [subexpression?]
        rintro _ ⟨⟩
    have hkeyword : startsKeyword ('}' :: rest) = false := rfl
    rw [argument?, hkeyword, if_neg Bool.false_ne_true, hliteral]
    simp only
    rw [hpath, hsub]

/-- No argument starts with a closing brace. -/
theorem arguments_brace (fuel : Nat) (rest : List Char) :
    arguments fuel ('}' :: rest) = ([], [], '}' :: rest) := by
  cases fuel with
  | zero => rw [arguments]
  | succ fuel =>
    have hskip : skip ('}' :: rest) = '}' :: rest := rfl
    have hoption : option? fuel ('}' :: rest) = none := by
      cases fuel with
      | zero => rw [option?]
      | succ fuel => rw [option?, name?_of_head (by rintro _ ⟨⟩; decide)]
    rw [arguments, hskip, hoption]
    simp only
    rw [argument?_brace]

/-- **Arguments are read one after the other.** -/
theorem arguments_spaced (h : List.Forall₂ IsWritten texts args) (hfuel : args.length < fuel)
    (rest : List Char) :
    arguments fuel (spaced texts ++ '}' :: rest) = (args, [], '}' :: rest) := by
  induction h generalizing fuel with
  | nil => exact arguments_brace fuel rest
  | @cons text a texts args ha h ih =>
    rw [List.length_cons] at hfuel
    -- one unit for this argument and one for reading it
    obtain ⟨fuel, rfl⟩ : ∃ fuel', fuel = fuel' + 2 := ⟨fuel - 2, by omega⟩
    have hends := ends_spaced h rest
    rw [spaced_cons, arguments, ha.skip_eq, ha.option?_eq_none hends]
    simp only
    rw [ha.argument?_eq hends]
    simp only
    rw [ih (by omega)]

theorem length_le_spaced (texts : List (List Char)) : texts.length ≤ (spaced texts).length := by
  induction texts with
  | nil => exact Nat.le_refl 0
  | cons text texts ih =>
    have hcons : spaced (text :: texts) = ' ' :: (text ++ spaced texts) := by
      simpa using spaced_cons text texts []
    rw [hcons, List.length_cons, List.length_cons, List.length_append]
    omega

/-! ## The tag of a call -/

/-- The tag of a call. -/
def callTag (name : String) (texts : List (List Char)) : List Char :=
  '{' :: '{' :: (name.toList ++ (spaced texts ++ ['}', '}']))

/-- The call of a helper with arguments. -/
def callHead (name : String) (args : List Argument) : Head := ⟨.literal (.string name), args, []⟩

/-- **A call is read as what is written in it.** -/
theorem call?_spaced (hname : IsName name) (h : List.Forall₂ IsWritten texts args) (hne : args ≠ [])
    (hfuel : args.length < fuel) (rest : List Char) :
    call? (fuel + 1) (name.toList ++ (spaced texts ++ '}' :: rest)) =
      some (callHead name args, '}' :: rest) := by
  rw [call?, hname.name?_eq (ends_spaced h rest)]
  simp only
  rw [arguments_spaced h hfuel]
  obtain ⟨a, args, rfl⟩ := List.exists_cons_of_ne_nil hne
  rfl

theorem expression?_spaced (hname : IsName name) (h : List.Forall₂ IsWritten texts args)
    (hne : args ≠ []) (rest : List Char) :
    expression? (name.toList ++ (spaced texts ++ '}' :: rest)) =
      some (callHead name args, '}' :: rest) := by
  have hlength := length_le_spaced texts
  have hfuel : args.length < 4 * (name.toList ++ (spaced texts ++ '}' :: rest)).length + 3 := by
    rw [List.length_append, List.length_append, ← h.length_eq]
    omega
  rw [expression?, enough, call?_spaced hname h hne hfuel, Option.some_or]

theorem afterElse?_eq_none (hname : IsName name) (helse : name ≠ "else") (hrest : Ends rest) :
    afterElse? (name.toList ++ rest) = none := by
  rw [afterElse?]
  · rw [Option.filter_eq_none_iff]
    intro left hafter
    obtain ⟨c, cs, rfl, hc⟩ := hname.exists_of_after? hrest (by decide)
      (fun heq => helse (String.toList_inj.1 heq)) hafter
    simp [hc]
  · exact hname.ne_cons (by decide)

/-- A name has no mark in front that takes away blanks. -/
theorem mark_eq (hname : IsName name) (rest : List Char) :
    mark (name.toList ++ rest) = (false, name.toList ++ rest) := by
  have hskip : skip (name.toList ++ rest) = name.toList ++ rest := by
    obtain ⟨c, cs, heq, hc⟩ := hname.exists_head
    rw [heq]
    exact skip_of_head (by rintro _ ⟨⟩; exact isLayout_of_isNameChar hc)
  rw [mark, hskip]
  split
  · next left heq => exact absurd heq (hname.ne_cons (by decide) left)
  · rfl

theorem inner?_call (hname : IsName name) (helse : name ≠ "else")
    (h : List.Forall₂ IsWritten texts args) (hne : args ≠ []) :
    inner? false (name.toList ++ (spaced texts ++ ['}', '}'])) =
      some (⟨.output (callHead name args), false, false⟩, []) := by
  rw [inner?, afterElse?_eq_none hname helse (ends_spaced h ['}'])]
  · simp only
    rw [expression?_spaced hname h hne, Option.bind_some]
    rfl
  all_goals exact hname.ne_cons (by decide)

/-- **The tag of a call writes the value of that call.** -/
theorem tag?_callTag (hname : IsName name) (helse : name ≠ "else")
    (h : List.Forall₂ IsWritten texts args) (hne : args ≠ []) :
    tag? (callTag name texts) = some (⟨.output (callHead name args), false, false⟩, []) := by
  rw [callTag, tag?, mark_eq hname]
  · exact inner?_call hname helse h hne
  · exact fun cs heq => hname.ne_cons (by decide) _ heq
  · exact fun cs heq => hname.ne_cons (by decide) _ heq

/-- No text stands in front of the tag. -/
theorem plainText_callTag (hname : IsName name) (texts : List (List Char)) :
    plainText 0 (callTag name texts) = ([], callTag name texts) := by
  rw [callTag, plainText]
  · rfl
  · exact fun cs heq => hname.ne_cons (by decide) _ heq

/-- **A template that is one tag is read as its call.** -/
theorem parse?_callTag (hname : IsName name) (helse : name ≠ "else")
    (h : List.Forall₂ IsWritten texts args) (hne : args ≠ []) :
    parse? (callTag name texts) = some [.output (callHead name args)] := by
  have htag := tag?_callTag hname helse h hne
  have hsegments : segments? (callTag name texts) =
      some [.tag ⟨.output (callHead name args), false, false⟩ false []] := by
    have hplain := plainText_callTag hname texts
    obtain ⟨rest, hrest⟩ : ∃ rest, callTag name texts = '{' :: rest := ⟨_, rfl⟩
    rw [hrest] at htag hplain ⊢
    rw [segments?, segmentsFrom, hplain]
    · simp only [Nat.lt_irrefl, if_false]
      rw [htag]
      simp [segmentsFrom, standsAlone, isLineEnd]
    · rintro ⟨⟩
  rw [parse?, hsegments]
  rfl

/-! ## Rendering -/

variable {params : Entries Json} {s : Scope} {values : List Json} {result : String}

/-- What is written in the tag is called. -/
theorem eval_callHead (hvalues : evalArguments s args = .ok values) :
    (callHead name args).eval s = .ok ⟨name, values, []⟩ := by
  have hname : evalName s (.literal (.string name)) = .ok name :=
    congrArg Except.ok (String.ofList_toList)
  simp only [callHead, Head.eval, hname, hvalues, evalOptions]
  rfl

theorem output_callHead (hne : args ≠ []) (hvalues : evalArguments s args = .ok values) :
    (callHead name args).output s = helperValue name values [] := by
  have hsome : values ≠ [] := by
    obtain ⟨a, args, rfl⟩ := List.exists_cons_of_ne_nil hne
    rw [evalArguments] at hvalues
    obtain ⟨v, -, hvalues⟩ := bind_eq_ok.1 hvalues
    obtain ⟨vs, -, hvalues⟩ := bind_eq_ok.1 hvalues
    cases hvalues
    exact List.cons_ne_nil v vs
  have hargs : values.isEmpty = false := by simpa using hsome
  rw [Head.output, eval_callHead hvalues]
  simp [bind, Except.bind, hargs]

/-- **A call is rendered as the text that the helper makes of the values.** -/
theorem render_callTag (hname : IsName name) (helse : name ≠ "else")
    (h : List.Forall₂ IsWritten texts args) (hne : args ≠ [])
    (hvalues : evalArguments (.ofRoot (.object (splitParameters params))) args = .ok values)
    (hresult : helperValue name values [] = .ok (.string result)) :
    render (callTag name texts) params = .ok result.toList := by
  have hnode (next : Renderer) : renderNodes next (.ofRoot (.object (splitParameters params))) []
      [.output (callHead name args)] = .ok (result.toList, []) := by
    rw [renderNodes, renderNode, output_callHead hne hvalues, hresult]
    simp [renderNodes, bind, Except.bind, pure, Except.pure, shown]
  rw [render, parse?_callTag hname helse h hne]
  simp only
  rw [show deepest = 499 + 1 from rfl, renderWithin, hnode]

end ReportQuery.Template
