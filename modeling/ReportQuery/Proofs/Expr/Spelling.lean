import ReportQuery.Expr.Token
import ReportQuery.Proofs.Text.Lower
/-!
# Spellings of tokens

The texts that stand for a token (`Token.Spelling`), described without regard to how they
are found. A spelling is found at the start of a text, and taken as a whole, where nothing
follows that could be a part of it: a blank, a parenthesis, a comma or the end
(`Token.Spelling.first?_eq`). Parentheses and commas themselves can be followed by anything.
-/

namespace ReportQuery

open Text

variable {c : Char} {text rest digits fraction exponent word cs : List Char} {s : String}
variable {t : Token}

/-! ## Numerals and identifiers -/

/-- A decimal point with digits after it, or nothing. -/
inductive IsFraction : List Char → Prop
  | none : IsFraction []
  | some {digits : List Char} : digits ≠ [] → (∀ c ∈ digits, isDigit c = true) →
      IsFraction ('.' :: digits)

/-- A mark with an optional sign and digits after it, or nothing. -/
inductive IsExponent : List Char → Prop
  | none : IsExponent []
  | some {mark : Char} {sign digits : List Char} : mark = 'e' ∨ mark = 'E' →
      sign ∈ [[], ['+'], ['-']] → digits ≠ [] → (∀ c ∈ digits, isDigit c = true) →
      IsExponent (mark :: (sign ++ digits))

/-- A decimal form: digits with an optional fraction, or a fraction alone, with an optional
exponent. -/
inductive IsNumeral : List Char → Prop
  | intro {digits fraction exponent : List Char} : (∀ c ∈ digits, isDigit c = true) →
      IsFraction fraction → digits ++ fraction ≠ [] → IsExponent exponent →
      IsNumeral (digits ++ (fraction ++ exponent))

/-- A letter or an underscore, with letters, digits and the like after it. -/
inductive IsIdentifier : List Char → Prop
  | intro {c : Char} {cs : List Char} : isIdentifierStart c = true →
      (∀ d ∈ cs, isIdentifierPart d = true) → IsIdentifier (c :: cs)

namespace Token

/-- The words that are no names. -/
def keywords : List String := ["true", "false", "and", "or", "not"]

/-- Whether a word is the name of a variable or a function. -/
def IsName (s : String) : Prop := IsIdentifier s.toList ∧ s ∉ keywords

/-- **The spellings of a token.** Texts stand in single quotes; `and`, `or` and `not` have a
second spelling. -/
inductive Spelling : Token → List Char → Prop
  | number {x : Float} {text : List Char} : IsNumeral text → Decimal.readFloat? text = some x →
      Spelling (.number x) text
  | text {s : String} : '\'' ∉ s.toList → Spelling (.text s) ('\'' :: (s.toList ++ ['\'']))
  | name {s : String} : IsName s → Spelling (.name s) s.toList
  | bool (b : Bool) : Spelling (.bool b) (toString b).toList
  | and : Spelling .and "and".toList
  | ampersands : Spelling .and "&&".toList
  | or : Spelling .or "or".toList
  | bars : Spelling .or "||".toList
  | not : Spelling .not "not".toList
  | bang : Spelling .not "!".toList
  | symbol (s : Symbol) : Spelling (.symbol s) s.text.toList

/-- Parentheses and commas. All other tokens are words and operators. -/
def isDelimiter : Token → Bool
  | symbol .parenOpen | symbol .parenClose | symbol .comma => true
  | _ => false

end Token

/-! ## What ends a token -/

namespace Text

/-- The characters that no word and no operator goes on with. -/
def isBreak (c : Char) : Bool := isBlank c || c = '(' || c = ')' || c = ','

theorem isBreak_of_isBlank (h : isBlank c = true) : isBreak c = true := by
  rw [isBreak, h, Bool.true_or, Bool.true_or, Bool.true_or]

/-- What holds of the blanks, of parentheses and of the comma holds of every break. -/
theorem of_isBreak {p : Char → Prop} (hall : ∀ n ∈ [0x28, 0x29, 0x2C] ++ blanks, p (Char.ofNat n))
    (h : isBreak c = true) : p c := by
  rw [List.forall_mem_append] at hall
  obtain ⟨hdelimiters, hblanks⟩ := hall
  simp only [isBreak, Bool.or_eq_true, decide_eq_true_eq] at h
  rcases h with ((h | rfl) | rfl) | rfl
  · exact of_isBlank hblanks h
  · exact hdelimiters 0x28 (by decide)
  · exact hdelimiters 0x29 (by decide)
  · exact hdelimiters 0x2C (by decide)

/-- The text ends or goes on with a break. -/
def Breaks (text : List Char) : Prop := ∀ c ∈ text.head?, isBreak c = true

/-- What holds of every break holds at the start of a text that breaks. -/
theorem Breaks.head {p : Char → Prop} (h : Breaks text)
    (hall : ∀ n ∈ [0x28, 0x29, 0x2C] ++ blanks, p (Char.ofNat n)) : ∀ c ∈ text.head?, p c :=
  fun c hc => of_isBreak hall (h c hc)

end Text

namespace Token

/-! ## Numbers -/

theorem fractionLength_append (h : IsFraction fraction)
    (hrest : ∀ c ∈ rest.head?, isDigit c = false ∧ c ≠ '.') :
    fractionLength (fraction ++ rest) = fraction.length := by
  cases h with
  | none =>
    cases rest with
    | nil => rfl
    | cons c cs =>
      have hc : c ≠ '.' := (hrest c rfl).2
      simp [fractionLength, hc]
  | @some digits hne hdigits =>
    have htake : (digits ++ rest).takeWhile isDigit = digits :=
      takeWhile_append_of_head hdigits fun c hc => (hrest c hc).1
    have hlength : digits.length ≠ 0 := fun h => hne (List.length_eq_zero_iff.1 h)
    simp [fractionLength, htake, hlength]

theorem exponentLength_append (h : IsExponent exponent) (hrest : Breaks rest) :
    exponentLength (exponent ++ rest) = exponent.length := by
  cases h with
  | none =>
    cases rest with
    | nil => rfl
    | cons c cs =>
      have hmark : ¬ (c = 'e' ∨ c = 'E') :=
        hrest.head (p := fun c => ¬ (c = 'e' ∨ c = 'E')) (by decide +kernel) c rfl
      simp [exponentLength, hmark]
  | @some mark sign digits hmark hsign hne hdigits =>
    have htake : (digits ++ rest).takeWhile isDigit = digits :=
      takeWhile_append_of_head hdigits
        (hrest.head (p := fun c => isDigit c = false) (by decide +kernel))
    have hlength : digits.length ≠ 0 := fun h => hne (List.length_eq_zero_iff.1 h)
    simp only [List.mem_cons, List.not_mem_nil, or_false] at hsign
    rcases hsign with rfl | rfl | rfl
    -- a digit is not taken for a sign
    · obtain ⟨d, ds, rfl⟩ := List.exists_cons_of_ne_nil hne
      have hd := hdigits d List.mem_cons_self
      have hplus : d ≠ '+' := by rintro rfl; exact absurd hd (by decide)
      have hminus : d ≠ '-' := by rintro rfl; exact absurd hd (by decide)
      rw [List.cons_append] at htake
      simp [exponentLength, hmark, hplus, hminus, htake]
      omega
    all_goals
      simp [exponentLength, hmark, htake, hlength]
      omega

/-- What follows a mantissa is no part of it. -/
theorem head_of_exponent (h : IsExponent exponent) (hrest : Breaks rest) :
    ∀ c ∈ (exponent ++ rest).head?, isDigit c = false ∧ c ≠ '.' := by
  cases h with
  | none => exact hrest.head (p := fun c => isDigit c = false ∧ c ≠ '.') (by decide +kernel)
  | some hmark =>
    intro c hc
    cases hc
    rcases hmark with rfl | rfl <;> decide

/-- **A numeral is taken as a whole.** -/
theorem numberLength_append (h : IsNumeral text) (hrest : Breaks rest) :
    numberLength (text ++ rest) = text.length := by
  obtain @⟨digits, fraction, exponent, hdigits, hfraction, hne, hexponent⟩ := h
  have hhead := head_of_exponent hexponent hrest
  have hfractionHead : ∀ c ∈ (fraction ++ (exponent ++ rest)).head?, isDigit c = false := by
    cases hfraction with
    | none => exact fun c hc => (hhead c hc).1
    | some =>
      intro c hc
      cases hc
      decide
  have hwhole : (digits ++ (fraction ++ (exponent ++ rest))).takeWhile isDigit = digits :=
    takeWhile_append_of_head hdigits hfractionHead
  have hmantissa : digits.length + fraction.length ≠ 0 := by
    rw [← List.length_append]
    exact fun h => hne (List.length_eq_zero_iff.1 h)
  have hdrop : (digits ++ (fraction ++ (exponent ++ rest))).drop (digits.length + fraction.length) =
      exponent ++ rest := by
    rw [← List.append_assoc, ← List.length_append, List.drop_left]
  simp only [List.append_assoc, numberLength, hwhole, List.drop_left,
    fractionLength_append hfraction hhead, if_neg hmantissa, hdrop,
    exponentLength_append hexponent hrest, List.length_append]
  omega

/-- A numeral starts with a digit or a point. -/
theorem exists_cons_of_isNumeral (h : IsNumeral text) :
    ∃ c cs, text = c :: cs ∧ isBlank c = false := by
  obtain @⟨digits, fraction, exponent, hdigits, hfraction, hne, -⟩ := h
  cases digits with
  | nil =>
    cases hfraction with
    | none => exact absurd rfl hne
    | some => exact ⟨'.', _, rfl, by decide⟩
  | cons c cs =>
    have hall : ∀ n ∈ blanks, isDigit (Char.ofNat n) = false := by decide +kernel
    refine ⟨c, _, rfl, Bool.eq_false_iff.2 fun hblank => ?_⟩
    have hdigit : isDigit c = false := of_isBlank (p := fun c => isDigit c = false) hall hblank
    rw [hdigits c List.mem_cons_self] at hdigit
    cases hdigit

/-- What starts with neither a digit nor a point is no number. -/
theorem first?_cons (hdigit : isDigit c = false) (hpoint : c ≠ '.') : first? (c :: cs) =
    if c = '\'' ∨ c = '"' then quoted? c cs
    else if isIdentifierStart c then
      some (ofWord (c :: cs.takeWhile isIdentifierPart), (cs.takeWhile isIdentifierPart).length + 1)
    else symbol? (c :: cs) := by
  have hlength : numberLength (c :: cs) = 0 := by
    simp [numberLength, fractionLength, hdigit, hpoint]
  simp [first?, hlength]

/-! ## Words -/

theorem isIdentifierPart_of_isIdentifierStart (h : isIdentifierStart c = true) :
    isIdentifierPart c = true := by
  rw [isIdentifierPart]
  split
  · next hascii =>
    rw [isIdentifierStart, if_pos hascii, Bool.or_eq_true] at h
    rcases h with h | h <;> simp [h]
  · rw [h, Bool.true_or, Bool.true_or, Bool.true_or, Bool.true_or]

/-- No identifier goes on with a break. -/
theorem isIdentifierPart_of_isBreak (h : isBreak c = true) : isIdentifierPart c = false := by
  have hall : ∀ n ∈ [0x28, 0x29, 0x2C] ++ blanks, isIdentifierPart (Char.ofNat n) = false := by
    decide +kernel
  exact of_isBreak (p := fun c => isIdentifierPart c = false) hall h

/-- The start of an identifier is neither a blank nor the start of a number or a text. -/
theorem of_isIdentifierStart (h : isIdentifierStart c = true) :
    isBlank c = false ∧ isDigit c = false ∧ c ≠ '.' ∧ c ≠ '\'' ∧ c ≠ '"' := by
  have hne {d : Char} (hd : isIdentifierStart d = false) : c ≠ d := by
    rintro rfl
    rw [h] at hd
    cases hd
  refine ⟨?_, ?_, hne (by decide), hne (by decide), hne (by decide)⟩
  · cases hblank : isBlank c with
    | false => rfl
    | true =>
      have hpart := isIdentifierPart_of_isBreak (isBreak_of_isBlank hblank)
      rw [isIdentifierPart_of_isIdentifierStart h] at hpart
      cases hpart
  · cases hdigit : isDigit c with
    | false => rfl
    | true =>
      have hall : ∀ n < 0x80, isDigit (Char.ofNat n) = true →
          isIdentifierStart (Char.ofNat n) = false := by decide +kernel
      exact absurd rfl (hne (of_isAscii (p := fun c => isDigit c = true →
        isIdentifierStart c = false) hall (isAscii_of_isDigit hdigit) hdigit))

/-- **A word is taken as a whole.** -/
theorem first?_word (h : IsIdentifier word) (hrest : Breaks rest) :
    first? (word ++ rest) = some (ofWord word, word.length) := by
  obtain @⟨c, cs, hstart, hparts⟩ := h
  obtain ⟨-, hdigit, hpoint, hquote, hquote'⟩ := of_isIdentifierStart hstart
  have htake : (cs ++ rest).takeWhile isIdentifierPart = cs :=
    takeWhile_append_of_head hparts fun c hc => isIdentifierPart_of_isBreak (hrest c hc)
  rw [List.cons_append, first?_cons hdigit hpoint, if_neg (not_or.2 ⟨hquote, hquote'⟩), if_pos hstart,
    htake, List.length_cons]

theorem ofWord_name (h : s ∉ keywords) : ofWord s.toList = name s := by
  simp only [keywords, List.mem_cons, List.not_mem_nil, or_false, not_or] at h
  obtain ⟨htrue, hfalse, hand, hor, hnot⟩ := h
  rw [ofWord, String.ofList_toList]
  split
  · exact absurd rfl htrue
  · exact absurd rfl hfalse
  · exact absurd rfl hand
  · exact absurd rfl hor
  · exact absurd rfl hnot
  · rfl

/-! ## Symbols -/

/-- `<`, `>` and `!` are the start of a longer symbol, but no break makes them it. -/
theorem first?_short (hrest : Breaks rest) :
    first? ('<' :: rest) = some (symbol .less, 1) ∧
    first? ('>' :: rest) = some (symbol .greater, 1) ∧ first? ('!' :: rest) = some (not, 1) := by
  cases rest with
  | nil => exact ⟨rfl, rfl, rfl⟩
  | cons c cs =>
    have hc : c ≠ '=' := hrest.head (p := fun c => c ≠ '=') (by decide +kernel) c rfl
    simp only [first?_cons (by decide : isDigit '<' = false) (by decide),
      first?_cons (by decide : isDigit '>' = false) (by decide),
      first?_cons (by decide : isDigit '!' = false) (by decide)]
    simp [symbol?, hc, isIdentifierStart, isAsciiLetter]

/-- **A symbol is taken as a whole.** -/
theorem first?_symbol (s : Symbol) (hrest : (symbol s).isDelimiter = false → Breaks rest) :
    first? (s.text.toList ++ rest) = some (symbol s, s.text.toList.length) := by
  cases s with
  | less => exact (first?_short (hrest rfl)).1
  | greater => exact (first?_short (hrest rfl)).2.1
  | _ => rfl

theorem first?_quoted (h : '\'' ∉ s.toList) :
    first? ('\'' :: (s.toList ++ ['\'']) ++ rest) =
      some (.text s, ('\'' :: (s.toList ++ ['\''])).length) := by
  have htake : (s.toList ++ '\'' :: rest).takeWhile (fun c => c ≠ '\'') = s.toList :=
    takeWhile_append_of_head (fun c hc => decide_eq_true fun heq => h (heq ▸ hc)) (by simp)
  rw [List.cons_append, first?_cons (by decide) (by decide), if_pos (.inl rfl), List.append_assoc,
    List.singleton_append, quoted?, htake]
  simp

/-! ## All tokens -/

namespace Spelling

/-- **A spelling is taken as a whole.** -/
theorem first?_eq (h : Spelling t text) (hrest : t.isDelimiter = false → Breaks rest) :
    first? (text ++ rest) = some (t, text.length) := by
  cases h with
  | number hnumeral hread =>
    have hlength := numberLength_append hnumeral (hrest rfl)
    obtain ⟨c, cs, rfl, -⟩ := exists_cons_of_isNumeral hnumeral
    have hpos : (c :: cs).length ≠ 0 := Nat.succ_ne_zero _
    simp only [first?, hlength, if_pos hpos, List.take_left, hread, Option.getD_some]
  | text hquote => exact first?_quoted hquote
  | name hname =>
    rw [first?_word hname.1 (hrest rfl), ofWord_name hname.2]
  | bool b =>
    have hbreaks := hrest rfl
    cases b with
    | true => exact first?_word (.intro (by decide) (List.all_eq_true.1 (by decide))) hbreaks
    | false => exact first?_word (.intro (by decide) (List.all_eq_true.1 (by decide))) hbreaks
  | and | or | not =>
    exact first?_word (.intro (by decide) (List.all_eq_true.1 (by decide))) (hrest rfl)
  | ampersands | bars => rfl
  | bang => exact (first?_short (hrest rfl)).2.2
  | symbol s => exact first?_symbol s hrest

/-- A spelling starts with a character that is no blank. That of a delimiter is a break. -/
theorem exists_cons (h : Spelling t text) : ∃ c cs, text = c :: cs ∧ isBlank c = false ∧
    (t.isDelimiter = true → isBreak c = true) := by
  cases h with
  | number hnumeral =>
    obtain ⟨c, cs, rfl, hc⟩ := exists_cons_of_isNumeral hnumeral
    exact ⟨c, cs, rfl, hc, nofun⟩
  | text => exact ⟨_, _, rfl, by decide, nofun⟩
  | @name s hname =>
    obtain ⟨hidentifier, -⟩ := hname
    generalize s.toList = word at hidentifier
    obtain @⟨c, cs, hstart, -⟩ := hidentifier
    exact ⟨c, cs, rfl, (of_isIdentifierStart hstart).1, nofun⟩
  | bool b => cases b <;> exact ⟨_, _, rfl, by decide, nofun⟩
  | and | ampersands | or | bars | not | bang => exact ⟨_, _, rfl, by decide, nofun⟩
  | symbol s => cases s <;> exact ⟨_, _, rfl, by decide, by decide⟩

end Spelling

end Token

/-! ## What identifiers are made of -/

namespace IsIdentifier

theorem isIdentifierPart (h : IsIdentifier word) : ∀ c ∈ word, isIdentifierPart c = true := by
  cases h with
  | intro hstart hparts =>
    exact List.forall_mem_cons.2 ⟨Token.isIdentifierPart_of_isIdentifierStart hstart, hparts⟩

theorem not_mem (h : IsIdentifier word) (hc : Text.isIdentifierPart c = false) : c ∉ word := by
  intro hmem
  rw [h.isIdentifierPart c hmem] at hc
  cases hc

theorem isWordText (h : IsIdentifier word) : IsWordText word := by
  refine ⟨?_, fun c hc => Bool.eq_false_iff.2 fun hblank => ?_⟩
  · cases h
    exact List.cons_ne_nil _ _
  · exact h.not_mem (Token.isIdentifierPart_of_isBreak (isBreak_of_isBlank hblank)) hc

end IsIdentifier

end ReportQuery
