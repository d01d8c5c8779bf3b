import ReportQuery.Proofs.Expr.Longest
/-!
# Spans of tokens

Lexing loses nothing (`Token.scan_accounts`). The tokens of a source lie one behind the other,
all that is not blank belongs to one of them, and each is the longest text that is a token by
itself at its place. A source that has other characters is read up to the first of them, and the
error says where that is. The argument runs along the source as it is read (`Token.Reads`): past
blanks, and past the token that is found at each other place.
-/

namespace ReportQuery

open Text

variable {c : Char} {source text read rest before after lexeme cs : List Char}
variable {t t' : Token} {tokens : List Located} {offset : Nat}

namespace Text

theorem byteLength_append (left right : List Char) :
    byteLength (left ++ right) = byteLength left + byteLength right := by
  induction left with
  | nil => simp [byteLength]
  | cons c cs ih => rw [List.cons_append, byteLength, byteLength, ih, Nat.add_assoc]

theorem byteLength_cons_pos (c : Char) (cs : List Char) : 0 < byteLength (c :: cs) :=
  Nat.lt_of_lt_of_le c.utf8Size_pos (Nat.le_add_right _ _)

theorem eq_nil_of_byteLength (h : byteLength text = 0) : text = [] := by
  cases text with
  | nil => rfl
  | cons c cs => exact absurd h (byteLength_cons_pos c cs).ne'

end Text

/-! ## What the tokens of a source are -/

/-- A text that is one token, from its first character to its last. -/
def Token.IsLexeme (t : Token) (lexeme : List Char) : Prop :=
  Token.scan lexeme = .ok [⟨t, 0, byteLength lexeme⟩]

/-- A located token covers a text of the source that is this token by itself, and the longest one
at its place. -/
def Located.IsIn (l : Located) (source : List Char) : Prop :=
  ∃ before lexeme after, source = before ++ (lexeme ++ after) ∧ l.start = byteLength before ∧
    l.stop = byteLength before + byteLength lexeme ∧ l.token.IsLexeme lexeme ∧
    ∀ t longer, longer <+: lexeme ++ after → Token.IsLexeme t longer → longer.length ≤ lexeme.length

namespace Token

/-- **The tokens account for the source.** Their spans have characters, lie one behind the other
and within the source, and cover the tokens; what no span covers is blank. -/
structure Accounts (source : List Char) (tokens : List Located) : Prop where
  nonempty : ∀ l ∈ tokens, l.start < l.stop
  ordered : tokens.Pairwise fun l next => l.stop ≤ next.start
  within : ∀ l ∈ tokens, l.stop ≤ byteLength source
  lexemes : ∀ l ∈ tokens, l.IsIn source
  blank_outside : ∀ before c after, source = before ++ c :: after →
    (∀ l ∈ tokens, byteLength before < l.start ∨ l.stop ≤ byteLength before) → isBlank c = true

/-- **The source has no token at a place.** What is before the place has tokens, which are those
of the source; what stands there is no blank, and no start of it is a token by itself. Half of a
symbol of two characters is reported at the place of the other half. -/
def FailsAt (source : List Char) (offset : Nat) : Prop :=
  ∃ before c after tokens, source = before ++ c :: after ∧ isBlank c = false ∧
    (∀ t lexeme, lexeme <+: c :: after → ¬ IsLexeme t lexeme) ∧
    scan before = .ok tokens ∧ (∀ l ∈ tokens, l.IsIn source) ∧
    offset = byteLength before + (if c = '=' ∨ c = '&' ∨ c = '|' then 1 else 0)

/-! ## A source as it is read -/

/-- **A source read up to a place**, from a byte offset on. Blanks are passed over, and elsewhere
the token is taken that is found there, in view of the rest. -/
inductive Reads : (offset : Nat) → (read rest : List Char) → List Located → Prop
  | nil {offset : Nat} {rest : List Char} : Reads offset [] rest []
  | blank {offset : Nat} {c : Char} {read rest : List Char} {tokens : List Located} :
      isBlank c = true → Reads (offset + c.utf8Size) read rest tokens →
      Reads offset (c :: read) rest tokens
  | token {offset : Nat} {c : Char} {cs read rest : List Char} {t : Token} {tokens : List Located} :
      isBlank c = false → first? (c :: cs ++ (read ++ rest)) = some (t, (c :: cs).length) →
      Reads (offset + byteLength (c :: cs)) read rest tokens →
      Reads offset (c :: cs ++ read) rest (⟨t, offset, offset + byteLength (c :: cs)⟩ :: tokens)

theorem scanFrom_token (hc : isBlank c = false)
    (hfirst : first? (c :: cs ++ text) = some (t, (c :: cs).length)) :
    scanFrom 0 offset (c :: cs ++ text) =
      (scanFrom 0 (offset + byteLength (c :: cs)) text).map
        (⟨t, offset, offset + byteLength (c :: cs)⟩ :: ·) := by
  have hskip := scanFrom_length cs text (offset + c.utf8Size)
  have htake : (c :: (cs ++ text)).take (cs.length + 1) = c :: cs := by simp
  rw [List.cons_append] at hfirst ⊢
  rw [scanFrom, if_neg (by simp [hc]), hfirst]
  simp only [List.length_cons, hskip, htake, byteLength, Nat.add_assoc]
  rfl

namespace Reads

/-- **Past what is read, the scanner goes on with the rest.** -/
theorem scanFrom_eq (h : Reads offset read rest tokens) :
    scanFrom 0 offset (read ++ rest) =
      (scanFrom 0 (offset + byteLength read) rest).map (tokens ++ ·) := by
  induction h with
  | @nil offset rest =>
    rw [List.nil_append, byteLength, Nat.add_zero]
    cases scanFrom 0 offset rest <;> rfl
  | blank hc _ ih => rw [List.cons_append, scanFrom, if_pos hc, ih, byteLength, Nat.add_assoc]
  | @token offset c cs read rest t tokens hc hfirst _ ih =>
    rw [List.append_assoc, scanFrom_token hc hfirst, ih, byteLength_append, Nat.add_assoc]
    cases scanFrom 0 (offset + (byteLength (c :: cs) + byteLength read)) rest <;> rfl

/-- What is read has the same tokens without the rest. -/
theorem without_rest (h : Reads offset read rest tokens) : Reads offset read [] tokens := by
  induction h with
  | nil => exact .nil
  | blank hc _ ih => exact .blank hc ih
  | @token offset c cs read rest t tokens hc hfirst _ ih =>
    refine .token hc ?_ ih
    have htake := first?_take hfirst (m := (c :: cs ++ read).length) (by simp)
    rwa [← List.append_assoc, List.take_left, ← List.append_nil (c :: cs ++ read),
      List.append_assoc] at htake

theorem scan_eq (h : Reads 0 read rest tokens) : scan read = .ok tokens := by
  have hscan := h.without_rest.scanFrom_eq
  rw [List.append_nil] at hscan
  rw [scan, hscan, scanFrom]
  simp [Except.map]

end Reads

/-- A token covers the start of the text. -/
theorem exists_lexeme_of_first? {n : Nat} (h : first? (c :: text) = some (t, n)) :
    ∃ cs rest, text = cs ++ rest ∧ n = (c :: cs).length := by
  obtain ⟨hpos, hle⟩ := length_of_first? h
  rw [List.length_cons] at hle
  refine ⟨text.take (n - 1), text.drop (n - 1), (List.take_append_drop _ _).symm, ?_⟩
  rw [List.length_cons, List.length_take]
  omega

/-- **Every source is read** to its end, or up to a place where there is neither a blank nor a
token. -/
theorem exists_reads (text : List Char) (offset : Nat) :
    ∃ read rest tokens, text = read ++ rest ∧ Reads offset read rest tokens ∧
      ∀ c cs, rest = c :: cs → isBlank c = false ∧ first? rest = none := by
  induction hlength : text.length using Nat.strong_induction_on generalizing text offset with
  | _ length ih =>
    subst hlength
    cases text with
    | nil => exact ⟨[], [], [], rfl, .nil, nofun⟩
    | cons c text =>
      cases hc : isBlank c with
      | true =>
        obtain ⟨read, rest, tokens, rfl, hreads, hrest⟩ := ih text.length (by simp) text
          (offset + c.utf8Size) rfl
        exact ⟨c :: read, rest, tokens, rfl, .blank hc hreads, hrest⟩
      | false =>
        cases hfirst : first? (c :: text) with
        | none =>
          refine ⟨[], c :: text, [], rfl, .nil, fun d ds heq => ?_⟩
          cases heq
          exact ⟨hc, hfirst⟩
        | some found =>
          obtain ⟨cs, text, rfl, hn⟩ := exists_lexeme_of_first? hfirst
          have hshorter : text.length < (c :: cs ++ text).length := by
            rw [List.length_append, List.length_cons]
            omega
          obtain ⟨read, rest, tokens, rfl, hreads, hrest⟩ := ih text.length hshorter text
            (offset + byteLength (c :: cs)) rfl
          have htoken : first? (c :: cs ++ (read ++ rest)) = some (found.1, (c :: cs).length) := by
            rw [List.cons_append, hfirst, ← hn]
          exact ⟨c :: cs ++ read, rest, _, by simp, .token hc htoken hreads, hrest⟩

/-! ## The places of the tokens -/

namespace Reads

theorem within (h : Reads offset read rest tokens) :
    ∀ l ∈ tokens, offset ≤ l.start ∧ l.start < l.stop ∧ l.stop ≤ offset + byteLength read := by
  induction h with
  | nil => exact nofun
  | @blank offset c read rest tokens _ _ ih =>
    intro l hl
    have hplace := ih l hl
    rw [byteLength]
    omega
  | @token offset c cs read rest t tokens _ _ _ ih =>
    have hpos := byteLength_cons_pos c cs
    rw [byteLength_append]
    refine List.forall_mem_cons.2 ⟨⟨Nat.le_refl _, by simpa using hpos, by simp⟩, fun l hl => ?_⟩
    have hplace := ih l hl
    omega

theorem ordered (h : Reads offset read rest tokens) :
    tokens.Pairwise fun l next => l.stop ≤ next.start := by
  induction h with
  | nil => exact .nil
  | blank _ _ ih => exact ih
  | token _ _ hreads ih => exact List.pairwise_cons.2 ⟨fun l hl => (hreads.within l hl).1, ih⟩

/-- **What no token covers is blank.** -/
theorem blank_outside (h : Reads offset read rest tokens) (hread : read = before ++ c :: after)
    (hout : ∀ l ∈ tokens,
      offset + byteLength before < l.start ∨ l.stop ≤ offset + byteLength before) :
    isBlank c = true := by
  induction h generalizing before with
  | nil => simp at hread
  | @blank offset d read rest tokens hd hreads ih =>
    cases before with
    | nil =>
      cases hread
      exact hd
    | cons b before =>
      obtain ⟨rfl, rfl⟩ := List.cons.inj hread
      refine ih rfl fun l hl => ?_
      have hplace := hout l hl
      rw [byteLength] at hplace
      omega
  | @token offset d cs read rest t tokens _ _ hreads ih =>
    obtain ⟨hfirst, hout⟩ := List.forall_mem_cons.1 hout
    simp only at hfirst
    -- the character stands behind the token, or its place were that of the token
    obtain ⟨between, rfl, hsplit⟩ :
        ∃ between, before = d :: cs ++ between ∧ read = between ++ c :: after := by
      rcases List.append_eq_append_iff.1 hread with hbehind | ⟨between, hlexeme, hafter⟩
      · exact hbehind
      · have hlength := congrArg byteLength hlexeme
        rw [byteLength_append] at hlength
        obtain rfl : between = [] := eq_nil_of_byteLength (by omega)
        exact ⟨[], by simpa using hlexeme.symm, by simpa using hafter.symm⟩
    refine ih hsplit fun l hl => ?_
    have hplace := hout l hl
    rw [byteLength_append] at hplace
    omega

end Reads

/-! ## Texts that are one token -/

theorem isLexeme_of_first? (hc : isBlank c = false)
    (hfirst : first? (c :: cs) = some (t, (c :: cs).length)) : IsLexeme t (c :: cs) := by
  have hreads : Reads 0 (c :: cs ++ []) [] [⟨t, 0, 0 + byteLength (c :: cs)⟩] :=
    .token hc (by simpa using hfirst) .nil
  rw [List.append_nil, Nat.zero_add] at hreads
  exact hreads.scan_eq

/-- **A text that is one token is found as a whole.** -/
theorem IsLexeme.first?_eq (h : IsLexeme t lexeme) : first? lexeme = some (t, lexeme.length) := by
  obtain ⟨read, rest, tokens, rfl, hreads, hrest⟩ := exists_reads lexeme 0
  cases rest with
  | cons c cs =>
    -- a place without a token is an error
    obtain ⟨hc, hnone⟩ := hrest c cs rfl
    rw [IsLexeme, scan, hreads.scanFrom_eq, scanFrom, if_neg (by simp [hc]), hnone] at h
    cases h
  | nil =>
    rw [List.append_nil] at h ⊢
    rw [IsLexeme, hreads.scan_eq, Except.ok.injEq] at h
    cases hreads with
    | nil => cases h
    | @blank _ c read _ _ hc hreads =>
      -- the token would start behind the blank
      have hstart := (hreads.within ⟨t, 0, byteLength (c :: read)⟩ (by simp [h])).1
      have hpos := c.utf8Size_pos
      simp only at hstart
      omega
    | @token _ c cs read _ t' tokens hc hfirst hreads =>
      simp only [List.cons.injEq, Located.mk.injEq] at h
      obtain ⟨⟨rfl, -, hstop⟩, -⟩ := h
      rw [byteLength_append, Nat.zero_add] at hstop
      obtain rfl : read = [] := eq_nil_of_byteLength (by omega)
      simpa using hfirst

/-- Where a token is found, no longer text is a token. -/
theorem IsLexeme.length_le {n : Nat} (h : IsLexeme t lexeme) (hfirst : first? text = some (t', n))
    (hstart : lexeme <+: text) : lexeme.length ≤ n := by
  obtain ⟨after, rfl⟩ := hstart
  obtain ⟨found, k, hfound, hle⟩ := exists_first?_append h.first?_eq after
  rw [hfirst] at hfound
  cases hfound
  exact hle

/-- Where no token is found, no text is a token. -/
theorem not_isLexeme_of_first? (hnone : first? text = none) (hstart : lexeme <+: text) :
    ¬ IsLexeme t lexeme := by
  intro h
  obtain ⟨after, rfl⟩ := hstart
  obtain ⟨found, k, hfound, -⟩ := exists_first?_append h.first?_eq after
  rw [hnone] at hfound
  cases hfound

/-- **Each token that is read is the longest at its place.** -/
theorem Reads.isIn (h : Reads offset read rest tokens) (before : List Char)
    (hoffset : offset = byteLength before) : ∀ l ∈ tokens, l.IsIn (before ++ (read ++ rest)) := by
  induction h generalizing before with
  | nil => exact nofun
  | @blank offset c read rest tokens _ _ ih =>
    have hin := ih (before ++ [c]) (by rw [hoffset, byteLength_append]; rfl)
    simpa using hin
  | @token offset c cs read rest t tokens hc hfirst _ ih =>
    refine List.forall_mem_cons.2 ⟨?_, ?_⟩
    · have hlexeme : first? (c :: cs) = some (t, (c :: cs).length) := by
        have htake := first?_take hfirst (Nat.le_refl _)
        rwa [List.take_left] at htake
      refine ⟨before, c :: cs, read ++ rest, by simp, hoffset, by rw [hoffset],
        isLexeme_of_first? hc hlexeme, fun t' longer hstart hlonger => ?_⟩
      exact hlonger.length_le hfirst hstart
    · have hin := ih (before ++ c :: cs) (by rw [hoffset, byteLength_append])
      simpa using hin

/-! ## All sources -/

/-- **Lexing loses nothing.** Where a source has tokens, they account for it; where it has none,
the error says where the first character is that no token matches. -/
theorem scan_accounts (source : List Char) :
    match scan source with
    | .ok tokens => Accounts source tokens
    | .error offset => FailsAt source offset := by
  obtain ⟨read, rest, tokens, rfl, hreads, hrest⟩ := exists_reads source 0
  have hin := hreads.isIn [] rfl
  cases rest with
  | nil =>
    rw [List.append_nil] at hin ⊢
    rw [hreads.scan_eq]
    refine ⟨fun l hl => (hreads.within l hl).2.1, hreads.ordered, fun l hl => ?_, hin, ?_⟩
    · simpa using (hreads.within l hl).2.2
    · intro before c after hread hout
      exact hreads.blank_outside hread (by simpa using hout)
  | cons c after =>
    obtain ⟨hc, hnone⟩ := hrest c after rfl
    have hscan : scan (read ++ c :: after) =
        .error (byteLength read + if c = '=' ∨ c = '&' ∨ c = '|' then 1 else 0) := by
      have hoffset : (byteLength read + if c = '=' ∨ c = '&' ∨ c = '|' then 1 else 0) =
          if c = '=' ∨ c = '&' ∨ c = '|' then byteLength read + 1 else byteLength read := by
        split <;> rfl
      rw [scan, hreads.scanFrom_eq, scanFrom, if_neg (by simp [hc]), hnone, Nat.zero_add, hoffset]
      rfl
    rw [hscan]
    exact ⟨read, c, after, tokens, rfl, hc, fun t lexeme => not_isLexeme_of_first? hnone,
      hreads.scan_eq, hin, rfl⟩

/-- A single `=` is half of a symbol. -/
example : scan "'a' = b".toList = .error 5 := by rfl

end Token
end ReportQuery
