import ReportQuery.Proofs.Expr.Spelling
/-!
# The longest token

Which token stands at the start of a text is decided by the characters of the token and by
what could go on with it. So the text can be cut off anywhere behind the token and has the same
one (`Token.first?_take`), and a text that is a token as a whole has a token at its start, at
least as long, whatever follows (`Token.exists_first?_append`).
-/

namespace ReportQuery

open Text

variable {c quote : Char} {text rest lexeme : List Char} {t : Token} {n m : Nat}
variable {f g : List Char → Nat}

/-! ## Lengths -/

namespace Text

/-- A length function that measures the start of a text and reads no further than it
measures: behind that, the text can be cut off. -/
structure IsLocal (f : List Char → Nat) : Prop where
  le_length : ∀ text, f text ≤ text.length
  take : ∀ text m, f text ≤ m → f (text.take m) = f text

/-- Where a text is cut off in front, nothing is measured. -/
theorem isLocal_of_cons (hle : ∀ text, f text ≤ text.length)
    (htake : ∀ c cs m, f (c :: cs) ≤ m + 1 → f (c :: cs.take m) = f (c :: cs)) : IsLocal f := by
  refine ⟨hle, fun text m hm => ?_⟩
  cases m with
  | zero =>
    have hnil : f [] = 0 := Nat.le_zero.1 (hle [])
    rw [List.take_zero, hnil, Nat.le_zero.1 hm]
  | succ m =>
    cases text with
    | nil => rfl
    | cons c cs => exact htake c cs m hm

theorem isLocal_takeWhile (p : Char → Bool) : IsLocal fun text => (text.takeWhile p).length := by
  refine ⟨fun text => (List.takeWhile_prefix p).length_le, fun text m hm => ?_⟩
  rw [← List.take_takeWhile, List.take_of_length_le hm]

/-- One length behind another. -/
theorem IsLocal.andThen (hf : IsLocal f) (hg : IsLocal g) :
    IsLocal fun text => f text + g (text.drop (f text)) := by
  refine ⟨fun text => ?_, fun text m hm => ?_⟩
  · have hfirst := hf.le_length text
    have hsecond := hg.le_length (text.drop (f text))
    rw [List.length_drop] at hsecond
    omega
  · have hfirst := hf.take text m (by omega)
    have hsecond := hg.take (text.drop (f text)) (m - f text) (by omega)
    rw [hfirst, List.drop_take, hsecond]

end Text

namespace Token

theorem fractionLength_point (cs : List Char) : fractionLength ('.' :: cs) =
    if (cs.takeWhile isDigit).length = 0 then 0 else (cs.takeWhile isDigit).length + 1 := rfl

theorem fractionLength_of_ne (hc : c ≠ '.') (cs : List Char) : fractionLength (c :: cs) = 0 := by
  simp [fractionLength, hc]

theorem isLocal_fractionLength : IsLocal fractionLength := by
  have hdigits := isLocal_takeWhile isDigit
  refine isLocal_of_cons (fun text => ?_) fun c cs m hm => ?_
  · cases text with
    | nil => exact Nat.zero_le _
    | cons c cs =>
      by_cases hc : c = '.'
      · have hle := hdigits.le_length cs
        rw [hc, fractionLength_point, List.length_cons]
        split <;> omega
      · rw [fractionLength_of_ne hc]
        exact Nat.zero_le _
  · by_cases hc : c = '.'
    · have htake := hdigits.take cs m
      rw [hc, fractionLength_point] at hm ⊢
      rw [fractionLength_point, htake]
      split at hm <;> omega
    · rw [fractionLength_of_ne hc, fractionLength_of_ne hc]

/-- The length of a sign. -/
def signLength : List Char → Nat
  | c :: _ => if c = '+' ∨ c = '-' then 1 else 0
  | [] => 0

theorem signLength_le (text : List Char) : signLength text ≤ 1 := by
  unfold signLength
  split
  · split <;> omega
  · omega

theorem isLocal_signLength : IsLocal signLength := by
  refine isLocal_of_cons (fun text => ?_) fun c cs m _ => rfl
  cases text with
  | nil => exact Nat.le_refl 0
  | cons c cs => exact Nat.le_trans (signLength_le _) (Nat.succ_le_succ (Nat.zero_le _))

theorem exponentLength_cons (mark : Char) (rest : List Char) : exponentLength (mark :: rest) =
    if mark = 'e' ∨ mark = 'E' then
      if ((rest.drop (signLength rest)).takeWhile isDigit).length = 0 then 0
      else 1 + signLength rest + ((rest.drop (signLength rest)).takeWhile isDigit).length
    else 0 := by
  cases rest with
  | nil => rfl
  | cons c cs =>
    by_cases hplus : c = '+'
    · subst hplus
      rfl
    · by_cases hminus : c = '-'
      · subst hminus
        rfl
      · simp [exponentLength, signLength, hplus, hminus]

theorem isLocal_exponentLength : IsLocal exponentLength := by
  have hsigned := isLocal_signLength.andThen (isLocal_takeWhile isDigit)
  refine isLocal_of_cons (fun text => ?_) fun mark rest m hm => ?_
  · cases text with
    | nil => exact Nat.zero_le _
    | cons mark rest =>
      have hle := hsigned.le_length rest
      rw [exponentLength_cons, List.length_cons]
      split
      · split <;> omega
      · exact Nat.zero_le _
  · rw [exponentLength_cons] at hm ⊢
    rw [exponentLength_cons]
    by_cases hmark : mark = 'e' ∨ mark = 'E'
    · rw [if_pos hmark] at hm
      rw [if_pos hmark, if_pos hmark]
      cases m with
      | zero =>
        -- an exponent is no shorter than a mark and a digit
        rw [List.take_zero, signLength]
        split at hm
        · next hnone => simp [hnone]
        · omega
      | succ m =>
        have hsign := signLength_le rest
        have hdigits := (isLocal_takeWhile isDigit).take (rest.drop (signLength rest))
          (m + 1 - signLength rest)
        rw [isLocal_signLength.take rest (m + 1) (by omega), List.drop_take, hdigits]
        split at hm <;> omega
    · rw [if_neg hmark, if_neg hmark]

/-- **A number does not depend on what follows it.** -/
theorem isLocal_numberLength : IsLocal numberLength := by
  have hmantissa := (isLocal_takeWhile isDigit).andThen isLocal_fractionLength
  have hnumber := hmantissa.andThen isLocal_exponentLength
  refine ⟨fun text => ?_, fun text m hm => ?_⟩
  · have hle := hnumber.le_length text
    simp only [numberLength]
    split <;> omega
  · have hwhole := hmantissa.take text m
    simp only [numberLength] at hm ⊢
    generalize (text.takeWhile isDigit).length + fractionLength
      (text.drop (text.takeWhile isDigit).length) = mantissa at hm hwhole ⊢
    rw [hwhole (by split at hm <;> omega)]
    split at hm
    · next hnone => rw [if_pos hnone, if_pos hnone]
    · next hsome =>
      have hexponent := isLocal_exponentLength.take (text.drop mantissa) (m - mantissa) (by omega)
      rw [if_neg hsome, if_neg hsome, List.drop_take, hexponent]

/-! ## Symbols and quoted texts -/

/-- A symbol that is the start of a longer one stands where this does not go on. -/
theorem symbol?_short (h : ∀ cs, rest ≠ '=' :: cs) :
    symbol? ('<' :: rest) = some (symbol .less, 1) ∧
    symbol? ('>' :: rest) = some (symbol .greater, 1) ∧ symbol? ('!' :: rest) = some (not, 1) := by
  simp [symbol?]

theorem take_ne_cons (h : ∀ cs, rest ≠ c :: cs) (k : Nat) : ∀ cs, rest.take k ≠ c :: cs := by
  intro cs hcs
  obtain ⟨ds, hds⟩ : c :: cs <+: rest := hcs ▸ List.take_prefix k rest
  exact h (cs ++ ds) hds.symm

theorem symbol?_take (h : symbol? text = some (t, n)) (hn : n ≤ m) :
    symbol? (text.take m) = some (t, n) := by
  unfold symbol? at h
  split at h
  case h_21 => cases h
  all_goals
    cases h
    obtain ⟨k, rfl⟩ := Nat.exists_eq_add_of_le' hn
  case h_7 _ rest hne => exact (symbol?_short (take_ne_cons hne k)).1
  case h_8 _ rest hne => exact (symbol?_short (take_ne_cons hne k)).2.1
  case h_9 _ rest hne => exact (symbol?_short (take_ne_cons hne k)).2.2
  all_goals rfl

/-- The length of a symbol is that of its characters. -/
theorem length_of_symbol? (h : symbol? text = some (t, n)) : 0 < n ∧ n ≤ text.length := by
  unfold symbol? at h
  split at h
  case h_21 => cases h
  all_goals
    cases h
    simp

/-- A quoted text ends with the first quote. -/
theorem quoted?_eq_some : quoted? quote rest = some (t, n) ↔
    ∃ body after, rest = body ++ quote :: after ∧ quote ∉ body ∧ t = .text (String.ofList body) ∧
      n = body.length + 2 := by
  unfold quoted?
  constructor
  · intro h
    simp only [Option.ite_none_right_eq_some, Option.some.injEq, Prod.mk.injEq] at h
    obtain ⟨hlt, rfl, rfl⟩ := h
    have hsplit := List.takeWhile_append_dropWhile (p := fun c => c ≠ quote) (l := rest)
    have hnot : quote ∉ rest.takeWhile fun c => c ≠ quote := by
      intro hmem
      simpa using List.mem_takeWhile_imp hmem
    cases hdrop : rest.dropWhile fun c => c ≠ quote with
    | nil =>
      rw [hdrop, List.append_nil] at hsplit
      rw [hsplit] at hlt
      exact absurd hlt (Nat.lt_irrefl _)
    | cons c after =>
      have hc := List.head?_dropWhile_not (fun c => c ≠ quote) rest
      rw [hdrop] at hc
      obtain rfl : c = quote := by simpa using hc
      exact ⟨_, after, by rw [← hdrop, hsplit], hnot, rfl, rfl⟩
  · rintro ⟨body, after, rfl, hbody, rfl, rfl⟩
    have htake : (body ++ quote :: after).takeWhile (fun c => c ≠ quote) = body :=
      takeWhile_append_of_head (fun c hc => decide_eq_true fun heq => hbody (heq ▸ hc)) (by simp)
    rw [htake, if_pos (by simp)]

theorem quoted?_take (h : quoted? quote rest = some (t, n)) (hn : n ≤ m + 1) :
    quoted? quote (rest.take m) = some (t, n) := by
  obtain ⟨body, after, rfl, hbody, rfl, rfl⟩ := quoted?_eq_some.1 h
  have hlength : body.length + 1 ≤ m := by omega
  obtain ⟨k, rfl⟩ := Nat.exists_eq_add_of_le hlength
  refine quoted?_eq_some.2 ⟨body, after.take k, ?_, hbody, rfl, rfl⟩
  rw [Nat.add_assoc, List.take_length_add_append, Nat.add_comm 1 k, List.take_succ_cons]

/-! ## The token at the start of a text -/

/-- A token has a character, and no more than the text. -/
theorem length_of_first? (h : first? text = some (t, n)) : 0 < n ∧ n ≤ text.length := by
  unfold first? at h
  simp only at h
  split at h
  · next hdigits =>
    cases h
    exact ⟨Nat.pos_of_ne_zero hdigits, isLocal_numberLength.le_length text⟩
  · split at h
    · cases h
    · next c rest _ =>
      split at h
      · obtain ⟨body, after, rfl, -, -, rfl⟩ := quoted?_eq_some.1 h
        simp
      · split at h
        · cases h
          simpa using (List.takeWhile_prefix isIdentifierPart).length_le
        · exact length_of_symbol? h

/-- **A token does not depend on what follows it.** -/
theorem first?_take (h : first? text = some (t, n)) (hn : n ≤ m) :
    first? (text.take m) = some (t, n) := by
  have hpos := (length_of_first? h).1
  unfold first? at h ⊢
  simp only at h ⊢
  split at h
  · next hdigits =>
    cases h
    rw [isLocal_numberLength.take text m hn, if_pos hdigits, List.take_take, Nat.min_eq_left hn]
  · next hdigits =>
    rw [isLocal_numberLength.take text m (by omega), if_neg hdigits]
    obtain ⟨k, rfl⟩ : ∃ k, m = k + 1 := ⟨m - 1, by omega⟩
    cases text with
    | nil => cases h
    | cons c rest =>
      simp only [List.take_succ_cons] at h ⊢
      split at h
      · next hquote =>
        rw [if_pos hquote]
        exact quoted?_take h hn
      · next hquote =>
        rw [if_neg hquote]
        split at h
        · next hstart =>
          cases h
          have hword : (rest.takeWhile isIdentifierPart).length ≤ k := by simpa using hn
          rw [if_pos hstart, ← List.take_takeWhile, List.take_of_length_le hword]
        · next hstart =>
          rw [if_neg hstart]
          exact symbol?_take h hn

theorem isSome_symbol?_append (h : symbol? text = some (t, n)) :
    (symbol? (text ++ rest)).isSome = true := by
  have hstart (c : Char) (hc : c ∈ ['<', '>', '!']) (tail : List Char) :
      (symbol? (c :: tail)).isSome = true := by
    simp only [List.mem_cons, List.not_mem_nil, or_false] at hc
    cases tail with
    | nil => rcases hc with rfl | rfl | rfl <;> rfl
    | cons d ds =>
      by_cases hd : d = '='
      · rcases hc with rfl | rfl | rfl <;> rw [hd] <;> rfl
      · rcases hc with rfl | rfl | rfl <;> simp [symbol?, hd]
  unfold symbol? at h
  split at h
  case h_21 => cases h
  case h_7 | h_8 | h_9 => exact hstart _ (by decide) _
  all_goals rfl

/-- A token at the start of a text may go on with what follows, but does not disappear. -/
theorem isSome_first?_append (h : first? text = some (t, n)) (rest : List Char) :
    (first? (text ++ rest)).isSome = true := by
  by_cases hdigits : numberLength (text ++ rest) = 0
  · have hnone : numberLength text = 0 := by
      have htake := isLocal_numberLength.take (text ++ rest) text.length (by omega)
      rwa [List.take_left, hdigits] at htake
    unfold first? at h ⊢
    simp only [hdigits, hnone, ne_eq, not_true_eq_false, if_false] at h ⊢
    cases text with
    | nil => cases h
    | cons c cs =>
      simp only [List.cons_append] at h ⊢
      split at h
      · next hquote =>
        obtain ⟨body, after, rfl, hbody, -, -⟩ := quoted?_eq_some.1 h
        have hquoted : quoted? c (body ++ c :: after ++ rest) =
            some (.text (String.ofList body), body.length + 2) :=
          quoted?_eq_some.2 ⟨body, after ++ rest, by simp, hbody, rfl, rfl⟩
        rw [if_pos hquote, hquoted]
        rfl
      · next hquote =>
        rw [if_neg hquote]
        split at h
        · next hstart => rw [if_pos hstart]; rfl
        · next hstart =>
          rw [if_neg hstart]
          exact isSome_symbol?_append h
  · simp [first?, hdigits]

/-- **Where a token as a whole starts a text**, the token found there is at least as long. -/
theorem exists_first?_append (h : first? lexeme = some (t, lexeme.length)) (rest : List Char) :
    ∃ t' n, first? (lexeme ++ rest) = some (t', n) ∧ lexeme.length ≤ n := by
  obtain ⟨⟨t', n⟩, hfirst⟩ := Option.isSome_iff_exists.1 (isSome_first?_append h rest)
  refine ⟨t', n, hfirst, Nat.le_of_not_lt fun hlt => ?_⟩
  have htake := first?_take hfirst (Nat.le_of_lt hlt)
  rw [List.take_left, h] at htake
  cases htake
  exact absurd hlt (Nat.lt_irrefl _)

/-- Behind the start of a token, the scanner passes over its other characters. -/
theorem scanFrom_length (text rest : List Char) (offset : Nat) :
    scanFrom text.length offset (text ++ rest) = scanFrom 0 (offset + byteLength text) rest := by
  induction text generalizing offset with
  | nil => rfl
  | cons c cs ih => rw [List.length_cons, List.cons_append, scanFrom, ih, byteLength, Nat.add_assoc]

end Token
end ReportQuery
