import ReportQuery.Proofs.Json.Quoted
import ReportQuery.Template.Argument
/-!
# Texts as literals

A text is written between double quotes or between single ones (`IsQuoted`). The scan for the end of
a literal stops at the closing quote and nowhere before it (`IsQuoted.afterLiteral?_eq`). The value
is only ever read from double quotes: what stands between single quotes is respelled first, and
spells the same text (`SpelledSingly.requoted`).
-/

namespace ReportQuery.Template

open ReportQuery.Text

variable {c quote : Char} {body literal piece rest text : List Char} {fuel : Nat} {s : String}

/-! ## Single quotes -/

/-- Between single quotes it is the single quote that stands behind a backslash. -/
inductive SpellsSingly : List Char → Char → Prop
  | single : SpellsSingly ['\\', '\''] '\''
  | double : SpellsSingly ['"'] '"'
  | other {piece : List Char} {c : Char} (h : Json.Spells piece c) (hsingle : '\'' ∉ piece)
      (hdouble : '"' ∉ piece) : SpellsSingly piece c

/-- Every character of a text is spelled, one after the other. -/
inductive SpelledSingly : (body text : List Char) → Prop
  | nil : SpelledSingly [] []
  | cons {piece body text : List Char} {c : Char} (hpiece : SpellsSingly piece c)
      (hbody : SpelledSingly body text) : SpelledSingly (piece ++ body) (c :: text)

/-- No single quote stands at the front. -/
theorem SpelledSingly.head_ne (h : SpelledSingly body text) : ∀ c ∈ body.head?, c ≠ '\'' := by
  cases h with
  | nil => rintro _ ⟨⟩
  | cons hpiece _ =>
    cases hpiece with
    | single | double =>
      rintro _ ⟨⟩
      decide
    | other h hsingle _ =>
      obtain ⟨d, ds, rfl⟩ := List.exists_cons_of_ne_nil h.ne_nil
      rintro _ ⟨⟩ rfl
      exact hsingle List.mem_cons_self

/-- What has no quotes is not respelled. -/
theorem requoted_append (hsingle : '\'' ∉ piece) (hdouble : '"' ∉ piece)
    (hrest : ∀ c ∈ rest.head?, c ≠ '\'') : requoted (piece ++ rest) = piece ++ requoted rest := by
  induction piece with
  | nil => rfl
  | cons c piece ih =>
    rw [List.mem_cons, not_or] at hsingle hdouble
    rw [List.cons_append, requoted, ih hsingle.2 hdouble.2, List.cons_append]
    · -- a backslash stands before no single quote
      intro left hc heq
      cases piece with
      | nil => exact hrest '\'' (by rw [← List.nil_append rest, heq]; rfl) rfl
      | cons d ds =>
        cases heq
        exact hsingle.2 List.mem_cons_self
    · exact fun hc => hdouble.1 hc.symm

/-- **Respelled for double quotes, a text is the same.** -/
theorem SpelledSingly.requoted (h : SpelledSingly body text) :
    Json.Spelled (requoted body) text := by
  induction h with
  | nil => exact .nil
  | @cons piece body text c hpiece hbody ih =>
    cases hpiece with
    | single => exact .cons (.plain (by decide) (by decide) (by decide)) ih
    | double =>
      have hescaped : Json.Spells ['\\', '"'] '"' := .short rfl
      exact .cons hescaped ih
    | other h hsingle hdouble =>
      rw [requoted_append hsingle hdouble hbody.head_ne]
      exact .cons h ih

/-! ## Ends of literals -/

/-- Four digits of a code point are hexadecimal digits. -/
theorem isSome_of_hexUnit? {w x y z : Char} {unit : Nat} (h : Json.hexUnit? w x y z = some unit) :
    ([w, x, y, z].all fun d => (hexValue? d).isSome) = true := by
  simp only [Json.hexUnit?, Option.bind_eq_bind, Option.bind_eq_some_iff] at h
  obtain ⟨_, hw, _, hx, _, hy, _, hz, -⟩ := h
  simp [hw, hx, hy, hz]

/-- **No spelling of a character ends a literal**, but for the quote itself. A double quote is
escaped only where it would end the literal. -/
theorem afterQuoted?_of_spells (h : Json.Spells piece c) (hplain : piece ≠ [quote])
    (hescape : '"' ∈ piece → quote = '"') (rest : List Char) :
    afterQuoted? quote (piece ++ rest) = afterQuoted? quote rest := by
  cases h with
  | plain _ hslash _ =>
    have hquote : c ≠ quote := fun heq => hplain (heq ▸ rfl)
    rw [List.singleton_append, afterQuoted?, if_neg hquote, if_neg hslash]
    · rintro _ _ _ _ _ rfl
      exact absurd rfl hslash
    · rintro _ _ rfl
      exact absurd rfl hslash
  | @short e c he =>
    have hu : e ≠ 'u' := by
      rintro rfl
      cases he
    have hletter : e = '"' ∨ e ∈ ['\\', '/', 'b', 'f', 'n', 'r', 't'] := by
      unfold Json.escapeUnit? at he
      split at he
      case h_9 => cases he
      all_goals decide
    have hquote : e = quote ∨ e ∈ ['\\', '/', 'b', 'f', 'n', 'r', 't'] :=
      hletter.imp_left fun heq => heq.trans (hescape (by simp [heq])).symm
    simp only [List.cons_append, List.nil_append]
    rw [afterQuoted?, if_pos hquote]
    rintro _ _ _ _ _ rfl
    exact absurd rfl hu
  | hex hunit =>
    simp only [List.cons_append, List.nil_append]
    rw [afterQuoted?, if_pos (isSome_of_hexUnit? hunit)]
  | pair hhigh hlow _ _ _ =>
    simp only [List.cons_append, List.nil_append]
    rw [afterQuoted?, if_pos (isSome_of_hexUnit? hhigh), afterQuoted?,
      if_pos (isSome_of_hexUnit? hlow)]

theorem afterQuoted?_of_spelled (h : Json.Spelled body text) (rest : List Char) :
    afterQuoted? '"' (body ++ '"' :: rest) = some rest := by
  induction h with
  | nil => rfl
  | cons hpiece _ ih =>
    rw [List.append_assoc, afterQuoted?_of_spells hpiece _ fun _ => rfl, ih]
    rintro rfl
    cases hpiece with
    | plain hquote _ _ => exact hquote rfl

theorem afterQuoted?_of_spelledSingly (h : SpelledSingly body text) (rest : List Char) :
    afterQuoted? '\'' (body ++ '\'' :: rest) = some rest := by
  induction h with
  | nil => rfl
  | @cons piece body text c hpiece _ ih =>
    rw [List.append_assoc]
    cases hpiece with
    | single | double => exact ih
    | other h hsingle hdouble =>
      rw [afterQuoted?_of_spells h _ fun hmem => absurd hmem hdouble, ih]
      rintro rfl
      exact hsingle List.mem_cons_self

/-! ## Literals -/

/-- **The literals of a text.** -/
inductive IsQuoted : (literal text : List Char) → Prop
  | double {body text : List Char} (h : Json.Spelled body text) :
      IsQuoted ('"' :: (body ++ ['"'])) text
  | single {body text : List Char} (h : SpelledSingly body text) :
      IsQuoted ('\'' :: (body ++ ['\''])) text

/-- Every text has a literal. -/
theorem exists_isQuoted (text : List Char) : ∃ literal, IsQuoted literal text :=
  ⟨_, .double (Json.spelled_escaped text)⟩

namespace IsQuoted

theorem exists_head (h : IsQuoted literal text) :
    ∃ c cs, literal = c :: cs ∧ (c = '"' ∨ c = '\'') := by
  cases h with
  | double _ => exact ⟨_, _, rfl, .inl rfl⟩
  | single _ => exact ⟨_, _, rfl, .inr rfl⟩

/-- **A literal ends at its closing quote.** -/
theorem afterLiteral?_eq (h : IsQuoted literal text) (rest : List Char) :
    afterLiteral? (fuel + 1) (literal ++ rest) = some rest := by
  cases h with
  | double h =>
    rw [List.cons_append, List.append_assoc, afterLiteral?]
    exact afterQuoted?_of_spelled h rest
  | single h =>
    rw [List.cons_append, List.append_assoc, afterLiteral?]
    exact afterQuoted?_of_spelledSingly h rest

/-- **The value of a literal is its text.** -/
theorem literalValue?_eq (h : IsQuoted literal s.toList) :
    literalValue? literal = some (.string s) := by
  cases h with
  | double h =>
    rw [literalValue?, Json.read?_of_spelled h, String.ofList_toList]
    · rfl
    · rintro rest ⟨⟩
  | single h =>
    rw [literalValue?, List.dropLast_concat, Json.read?_of_spelled h.requoted, String.ofList_toList]

end IsQuoted

end ReportQuery.Template
