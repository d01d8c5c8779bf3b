import ReportQuery.Proofs.Template.Literal
import ReportQuery.Proofs.Text.Words
/-!
# Written arguments

A name stands for the parameter of that name, unless it is a word with a meaning of its own or a
number, and a literal stands for its text (`IsWritten`). Each is read as that argument up to
the space or brace that ends it (`IsWritten.argument?_eq`). All other readings come first and must
fail on a name: as a keyword, as a literal, as an option, and as a step to the context.
-/

namespace ReportQuery.Template

open ReportQuery.Text

variable {a : Argument} {keyword left rest text word : List Char} {c d : Char} {fuel : Nat}
variable {name : String}

/-! ## Ends of arguments -/

/-- What can follow an argument: a space or a closing brace, and no equals sign behind spaces, which
would make a name that of an option. -/
structure Ends (rest : List Char) : Prop where
  head : ∀ c ∈ rest.head?, c = ' ' ∨ c = '}'
  not_option : ∀ c ∈ (skip rest).head?, c ≠ '='

/-- What holds of a space and of a closing brace holds of what ends an argument. -/
theorem Ends.forall_head {p : Char → Prop} (h : Ends rest) (hspace : p ' ') (hbrace : p '}') :
    ∀ c ∈ rest.head?, p c := by
  intro c hc
  rcases h.head c hc with rfl | rfl
  · exact hspace
  · exact hbrace

theorem Ends.isNameChar_eq_false (h : Ends rest) : ∀ c ∈ rest.head?, isNameChar c = false :=
  h.forall_head (by decide) (by decide)

theorem ne_of_isNameChar (h : isNameChar c = true) (hd : isNameChar d = false) : c ≠ d := by
  rintro rfl
  rw [h] at hd
  cases hd

theorem isLayout_of_isNameChar (h : isNameChar c = true) : isLayout c = false := by
  have hspace : c ≠ ' ' := ne_of_isNameChar h (by decide)
  have htab : c ≠ '\t' := ne_of_isNameChar h (by decide)
  have hfeed : c ≠ '\n' := ne_of_isNameChar h (by decide)
  have hreturn : c ≠ '\r' := ne_of_isNameChar h (by decide)
  simp [isLayout, hspace, htab, hfeed, hreturn]

theorem skip_of_head (h : ∀ c ∈ text.head?, isLayout c = false) : skip text = text := by
  cases text with
  | nil => rfl
  | cons c cs => rw [skip, List.dropWhile_cons_of_neg (by rw [h c rfl]; decide)]

/-! ## Names -/

/-- One or more characters of names. -/
structure IsName (name : String) : Prop where
  ne_empty : name ≠ ""
  chars : ∀ c ∈ name.toList, isNameChar c = true

theorem name?_of_head (h : ∀ c ∈ text.head?, isNameChar c = false) : name? text = none := by
  have htake : text.takeWhile isNameChar = [] := by
    cases text with
    | nil => rfl
    | cons c cs => exact List.takeWhile_cons_of_neg (by rw [h c rfl]; decide)
  simp only [name?, htake, if_true]

namespace IsName

theorem of_all (hne : name ≠ "") (h : name.toList.all isNameChar = true) : IsName name :=
  ⟨hne, List.all_eq_true.1 h⟩

theorem ne_nil (h : IsName name) : name.toList ≠ [] := fun heq =>
  h.ne_empty (String.toList_eq_nil_iff.1 heq)

/-- **A name is read as a whole.** -/
theorem name?_eq (h : IsName name) (hrest : Ends rest) :
    name? (name.toList ++ rest) = some (name, rest) := by
  have htake : (name.toList ++ rest).takeWhile isNameChar = name.toList :=
    takeWhile_append_of_head h.chars hrest.isNameChar_eq_false
  have hdrop : (name.toList ++ rest).dropWhile isNameChar = rest := by
    rw [dropWhile_append_of_head hrest.isNameChar_eq_false, List.dropWhile_eq_nil_iff.2 h.chars,
      List.nil_append]
  simp only [name?, htake, hdrop, if_neg h.ne_nil, String.ofList_toList]

/-- A name starts with one of its characters. -/
theorem exists_head (h : IsName name) : ∃ c cs, name.toList = c :: cs ∧ isNameChar c = true := by
  obtain ⟨c, cs, heq⟩ := List.exists_cons_of_ne_nil h.ne_nil
  exact ⟨c, cs, heq, h.chars c (heq ▸ List.mem_cons_self)⟩

/-- It starts with no other character. -/
theorem ne_cons (h : IsName name) (hd : isNameChar d = false) (cs : List Char) :
    name.toList ++ rest ≠ d :: cs := by
  obtain ⟨c, cs', heq, hc⟩ := h.exists_head
  rw [heq]
  rintro ⟨⟩
  exact ne_of_isNameChar hc hd rfl

theorem after?_eq_none (h : IsName name) (hd : isNameChar d = false) (ds : List Char) :
    after? (d :: ds) (name.toList ++ rest) = none := by
  rw [Option.eq_none_iff_forall_ne_some]
  intro left hleft
  exact h.ne_cons hd _ (after?_eq_some.1 hleft)

/-- **A name that is not the keyword goes on where the keyword ends.** -/
theorem exists_of_after? (h : IsName name) (hrest : Ends rest)
    (hkeyword : keyword.all isNameChar = true) (hne : name.toList ≠ keyword)
    (hafter : after? keyword (name.toList ++ rest) = some left) :
    ∃ c cs, left = c :: cs ∧ isNameChar c = true := by
  rcases List.append_eq_append_iff.1 (after?_eq_some.1 hafter) with
    ⟨more, rfl, rfl⟩ | ⟨more, hname, rfl⟩
  · cases more with
    | nil => exact absurd (List.append_nil _).symm hne
    | cons c cs =>
      have hc : isNameChar c = false := hrest.isNameChar_eq_false c rfl
      rw [List.all_eq_true.1 hkeyword c (by simp)] at hc
      cases hc
  · cases more with
    | nil => exact absurd (hname.trans (List.append_nil _)) hne
    | cons c cs => exact ⟨c, cs ++ rest, rfl, h.chars c (by simp [hname])⟩

end IsName

/-! ## Numbers -/

/-- A number without its sign. -/
def unsigned (text : List Char) : List Char :=
  match text with
  | '-' :: rest => rest
  | _ => text

/-- What follows a fraction. -/
def afterFraction (text : List Char) : List Char :=
  match text with
  | '.' :: rest => rest.dropWhile isDigit
  | _ => text

/-- What follows an exponent. -/
def afterExponent (text : List Char) : List Char :=
  match text with
  | 'E' :: rest =>
    if ((unsigned rest).dropWhile isDigit).length = (unsigned rest).length then text
    else (unsigned rest).dropWhile isDigit
  | _ => text

theorem afterNumber?_eq (text : List Char) : afterNumber? text =
    if ((unsigned text).dropWhile isDigit).length = (unsigned text).length then none
    else if (afterExponent (afterFraction ((unsigned text).dropWhile isDigit))).head?.any isNameChar
      then none
    else some (afterExponent (afterFraction ((unsigned text).dropWhile isDigit))) := rfl

theorem unsigned_of_head (h : ∀ c ∈ text.head?, c ≠ '-') : unsigned text = text := by
  unfold unsigned
  split
  · exact absurd rfl (h '-' rfl)
  · rfl

theorem afterFraction_of_head (h : ∀ c ∈ text.head?, c ≠ '.') : afterFraction text = text := by
  unfold afterFraction
  split
  · exact absurd rfl (h '.' rfl)
  · rfl

theorem afterExponent_of_head (h : ∀ c ∈ text.head?, c ≠ 'E') : afterExponent text = text := by
  unfold afterExponent
  split
  · exact absurd rfl (h 'E' rfl)
  · rfl

theorem unsigned_append (hrest : ∀ c ∈ rest.head?, c ≠ '-') :
    unsigned (text ++ rest) = unsigned text ++ rest := by
  cases text with
  | nil => exact unsigned_of_head hrest
  | cons c cs =>
    by_cases hc : c = '-'
    · subst hc
      rfl
    · rw [unsigned_of_head (by rintro _ ⟨⟩; exact hc), unsigned_of_head (by rintro _ ⟨⟩; exact hc)]

theorem Ends.dropWhile_isDigit (h : Ends rest) (text : List Char) :
    (text ++ rest).dropWhile isDigit = text.dropWhile isDigit ++ rest :=
  dropWhile_append_of_head (h.forall_head (by decide) (by decide))

theorem Ends.afterExponent (h : Ends rest) (text : List Char) :
    afterExponent (text ++ rest) = Template.afterExponent text ++ rest := by
  cases text with
  | nil => exact afterExponent_of_head (h.forall_head (by decide) (by decide))
  | cons c cs =>
    by_cases hc : c = 'E'
    · subst hc
      have hunsigned : unsigned (cs ++ rest) = unsigned cs ++ rest :=
        unsigned_append (h.forall_head (by decide) (by decide))
      simp only [List.cons_append, Template.afterExponent, hunsigned, h.dropWhile_isDigit,
        List.length_append, Nat.add_right_cancel_iff]
      split <;> rfl
    · rw [afterExponent_of_head (by rintro _ ⟨⟩; exact hc),
        afterExponent_of_head (by rintro _ ⟨⟩; exact hc)]

theorem unsigned_suffix (text : List Char) : unsigned text <:+ text := by
  unfold unsigned
  split
  · exact List.suffix_cons _ _
  · exact List.suffix_rfl

/-- **A name is no number because of what follows it.** -/
theorem Ends.afterNumber?_eq_none (h : Ends rest) (hword : ∀ c ∈ word, isNameChar c = true)
    (hnumber : afterNumber? word = none) : afterNumber? (word ++ rest) = none := by
  have hwhole : ∀ c ∈ (unsigned word).dropWhile isDigit, c ≠ '.' := fun c hc =>
    ne_of_isNameChar (hword c ((unsigned_suffix word).subset ((List.dropWhile_suffix _).subset hc)))
      (by decide)
  rw [afterNumber?_eq] at hnumber ⊢
  rw [unsigned_append (h.forall_head (by decide) (by decide)), h.dropWhile_isDigit]
  generalize (unsigned word).dropWhile isDigit = whole at hnumber hwhole ⊢
  have hfraction : afterFraction whole = whole := afterFraction_of_head fun c hc =>
    hwhole c (List.mem_of_mem_head? hc)
  have hfraction' : afterFraction (whole ++ rest) = whole ++ rest := by
    refine afterFraction_of_head fun c hc => ?_
    rw [List.head?_append, Option.mem_def, Option.or_eq_some_iff] at hc
    rcases hc with hc | ⟨-, hc⟩
    · exact hwhole c (List.mem_of_mem_head? hc)
    · exact h.forall_head (p := (· ≠ '.')) (by decide) (by decide) c hc
  rw [hfraction', h.afterExponent]
  rw [hfraction] at hnumber
  simp only [List.length_append, Nat.add_right_cancel_iff]
  split
  · rfl
  · next hdigits =>
    rw [if_neg hdigits] at hnumber
    -- a character of names goes on behind the number, and so it does with the rest behind it
    cases hleft : Template.afterExponent whole with
    | nil => simp [hleft] at hnumber
    | cons c cs =>
      rw [hleft] at hnumber
      have hc : isNameChar c = true := by
        by_contra hc
        simp [hc] at hnumber
      simp [hc]

/-! ## Names of parameters -/

/-- **The names that stand for a parameter as they are.** The words have a meaning of their own, and
a number stands for itself. -/
structure IsParameterName (name : String) : Prop extends IsName name where
  not_word : name ∉ ["this", "as", "else", "null", "true", "false"]
  not_number : afterNumber? name.toList = none

namespace IsParameterName

theorem ne_word (h : IsParameterName name) (word : String)
    (hword : word ∈ ["this", "as", "else", "null", "true", "false"]) : name.toList ≠ word.toList :=
  fun heq => h.not_word (String.toList_inj.1 heq ▸ hword)

theorem startsKeyword_eq_false (h : IsParameterName name) (hrest : Ends rest) :
    startsKeyword (name.toList ++ rest) = false := by
  unfold startsKeyword
  split
  · next left hafter =>
    have hgoes : ∃ c cs, left = c :: cs ∧ isNameChar c = true := by
      rcases Option.or_eq_some_iff.1 hafter with hafter | ⟨-, hafter⟩
      · exact h.exists_of_after? hrest (by decide) (h.ne_word "as" (by simp)) hafter
      · exact h.exists_of_after? hrest (by decide) (h.ne_word "else" (by simp)) hafter
    -- behind a keyword there would be no character of names
    obtain ⟨c, cs, rfl, hc⟩ := hgoes
    have hskip : skip (c :: cs) = c :: cs :=
      skip_of_head fun d hd => by cases hd; exact isLayout_of_isNameChar hc
    simp [hskip, hc]
  · rfl

theorem afterLiteral?_eq_none (h : IsParameterName name) (hrest : Ends rest) :
    afterLiteral? fuel (name.toList ++ rest) = none := by
  cases fuel with
  | zero => rw [afterLiteral?]
  | succ fuel =>
    have hnumber : afterNumber? (name.toList ++ rest) = none :=
      hrest.afterNumber?_eq_none h.chars h.not_number
    have hconstant : afterConstant? (name.toList ++ rest) = none := by
      have hnot : name ∉ ["null", "true", "false"] := fun hmem => h.not_word (by simp_all)
      rw [afterConstant?, h.name?_eq hrest]
      exact if_neg hnot
    rw [afterLiteral?, hnumber, hconstant]
    · rfl
    · exact h.ne_cons (by decide)
    · exact h.ne_cons (by decide)
    · exact h.ne_cons (by decide)
    · exact h.ne_cons (by decide)

theorem dropHere_eq (h : IsParameterName name) (hrest : Ends rest) :
    dropHere (name.toList ++ rest) = name.toList ++ rest := by
  unfold dropHere
  split
  · next c left hafter =>
    obtain ⟨c', cs, heq, hc⟩ :=
      h.exists_of_after? hrest (by decide) (h.ne_word "this" (by simp)) hafter
    cases heq
    have hdot : c ≠ '.' := ne_of_isNameChar hc (by decide)
    have hslash : c ≠ '/' := ne_of_isNameChar hc (by decide)
    simp [isSeparator, hdot, hslash]
  · rw [h.after?_eq_none (by decide), Option.getD_none]

/-- A path of one name has no step to another context in front, and no step behind. -/
theorem path?_eq (h : IsParameterName name) (hrest : Ends rest) :
    path? (name.toList ++ rest) = some (.path name (.field .here [name]), rest) := by
  have hhere := h.dropHere_eq hrest
  have hroot : after? ['@', 'r', 'o', 'o', 't'] (name.toList ++ rest) = none :=
    h.after?_eq_none (by decide) _
  have hmark : ∀ inner, name.toList ++ rest ≠ '@' :: inner := h.ne_cons (by decide)
  have houter : outerSteps 0 (name.toList ++ rest) = (0, name.toList ++ rest) := by
    rw [outerSteps]
    exact fun c cs => h.ne_cons (by decide) _
  have hstep : step? (name.toList ++ rest) = some (some name, rest) := by
    rw [step?, h.name?_eq hrest]
    · rfl
    · exact fun cs => h.ne_cons (by decide) _
    · exact h.ne_cons (by decide)
  have hsteps : steps rest.length rest = ([], rest) := by
    cases rest with
    | nil => rfl
    | cons c cs =>
      have hc : isSeparator c = false :=
        hrest.forall_head (p := (isSeparator · = false)) (by decide) (by decide) c rfl
      simp [steps, hc]
  -- the path keeps the name as it is written
  have hwritten : String.ofList ((name.toList ++ rest).take
      ((name.toList ++ rest).length - rest.length)) = name := by
    rw [List.length_append, Nat.add_sub_cancel, List.take_left, String.ofList_toList]
  have hthis : name ≠ "this" := fun heq => h.not_word (by simp [heq])
  generalize name.toList ++ rest = text at *
  unfold path?
  rw [hhere]
  cases text with
  | nil => cases hstep
  | cons c cs =>
    have hc : c ≠ '@' := fun heq => hmark cs (heq ▸ rfl)
    simpa [hroot, houter, hstep, hsteps, hc, Path.ofSteps, hthis] using hwritten

/-- **A name is read as a path to its parameter.** -/
theorem argument?_eq (h : IsParameterName name) (hrest : Ends rest) :
    argument? (fuel + 1) (name.toList ++ rest) = some (.path name (.field .here [name]), rest) := by
  rw [argument?, h.startsKeyword_eq_false hrest, if_neg Bool.false_ne_true,
    h.afterLiteral?_eq_none hrest]
  simp only
  rw [h.path?_eq hrest]

theorem option?_eq_none (h : IsParameterName name) (hrest : Ends rest) :
    option? fuel (name.toList ++ rest) = none := by
  cases fuel with
  | zero => rw [option?]
  | succ fuel =>
    rw [option?, h.name?_eq hrest]
    simp only
    split
    · next left heq => exact absurd rfl (hrest.not_option '=' (heq ▸ rfl))
    · rfl

end IsParameterName

/-! ## Literals -/

namespace IsQuoted

/-- **A literal of a text is read as that text.** -/
theorem argument?_eq (h : IsQuoted text name.toList) (rest : List Char) :
    argument? (fuel + 1) (text ++ rest) = some (.literal (.string name), rest) := by
  have hkeyword : startsKeyword (text ++ rest) = false := by
    obtain ⟨c, cs, rfl, rfl | rfl⟩ := h.exists_head
    · rfl
    · rfl
  have hwritten : (text ++ rest).take ((text ++ rest).length - rest.length) = text := by
    rw [List.length_append, Nat.add_sub_cancel, List.take_left]
  rw [argument?, hkeyword, if_neg Bool.false_ne_true, h.afterLiteral?_eq]
  simp only
  rw [hwritten, h.literalValue?_eq, Option.map_some]

theorem option?_eq_none (h : IsQuoted text word) (rest : List Char) :
    option? fuel (text ++ rest) = none := by
  have hname : name? (text ++ rest) = none := by
    obtain ⟨c, cs, rfl, hc⟩ := h.exists_head
    refine name?_of_head ?_
    rintro _ ⟨⟩
    rcases hc with rfl | rfl
    · decide
    · decide
  cases fuel with
  | zero => rw [option?]
  | succ fuel => rw [option?, hname]

end IsQuoted

/-! ## Written arguments -/

/-- **What is written for an argument.** -/
inductive IsWritten : (text : List Char) → Argument → Prop
  | name {name : String} (h : IsParameterName name) :
      IsWritten name.toList (.path name (.field .here [name]))
  | text {s : String} {literal : List Char} (h : IsQuoted literal s.toList) :
      IsWritten literal (.literal (.string s))

namespace IsWritten

/-- **What is written for an argument is read as that argument**, up to what ends it. -/
theorem argument?_eq (h : IsWritten text a) (hrest : Ends rest) :
    argument? (fuel + 1) (text ++ rest) = some (a, rest) := by
  cases h with
  | name h => exact h.argument?_eq hrest
  | text h => exact h.argument?_eq rest

/-- It is no option. -/
theorem option?_eq_none (h : IsWritten text a) (hrest : Ends rest) :
    option? fuel (text ++ rest) = none := by
  cases h with
  | name h => exact h.option?_eq_none hrest
  | text h => exact h.option?_eq_none rest

/-- It starts with neither layout nor an equals sign. -/
theorem exists_head (h : IsWritten text a) :
    ∃ c cs, text = c :: cs ∧ isLayout c = false ∧ c ≠ '=' := by
  cases h with
  | name h =>
    obtain ⟨c, cs, heq, hc⟩ := h.exists_head
    exact ⟨c, cs, heq, isLayout_of_isNameChar hc, ne_of_isNameChar hc (by decide)⟩
  | text h =>
    obtain ⟨c, cs, heq, rfl | rfl⟩ := h.exists_head
    · exact ⟨_, cs, heq, by decide, by decide⟩
    · exact ⟨_, cs, heq, by decide, by decide⟩

theorem skip_eq (h : IsWritten text a) (rest : List Char) :
    skip (' ' :: (text ++ rest)) = text ++ rest := by
  obtain ⟨c, cs, rfl, hc, -⟩ := h.exists_head
  have hhead : skip (c :: cs ++ rest) = c :: cs ++ rest := skip_of_head (by rintro _ ⟨⟩; exact hc)
  rwa [skip, List.dropWhile_cons_of_pos (by decide)]

end IsWritten

end ReportQuery.Template
