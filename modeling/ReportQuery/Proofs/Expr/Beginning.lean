import ReportQuery.Proofs.Expr.Language
/-!
# Where reading stops

A list of tokens begins an expression if some sentence of the grammar starts with it
(`Begins`). Whatever the reader is waiting for, there are tokens that bring it to an end
(`exists_finish`): from the top of the stack down, an open parenthesis is closed, and a
conditional gets its last part. So the reader goes on just as long as what it has read
begins an expression (`begins_iff`), and the token that it stops at is the first that no
expression has at its place (`parse_error_offset`).
-/

namespace ReportQuery.Expr

open Text

variable {s s' : State} {e : Expr} {stack : List Frame} {ts ts' : List Token}
variable {t : Located} {tokens before after : List Located} {stop : Nat}

/-! ## Every state leads to an end -/

/-- Some tokens lead from a state to one in which an expression can end. -/
def State.Finishes (s : State) : Prop := ∃ rest s' e, steps s rest = some s' ∧ finish? s' = some e

theorem State.Finishes.of_steps (h : steps s ts = some s') (hs : s'.Finishes) : s.Finishes := by
  obtain ⟨rest, last, e, hrest, hfinish⟩ := hs
  exact ⟨ts ++ rest, last, e, by rw [steps_append, h, Option.bind_some, hrest], hfinish⟩

theorem State.Finishes.of_step {t : Token} (h : step t s = some s') (hs : s'.Finishes) :
    s.Finishes :=
  @of_steps _ _ [t] (by simp [h]) hs

/-- **An operand can be the last one.** The induction is on the frames that wait for it: an
operator takes it, and what is open is closed. -/
theorem State.Stands.finishes (h : s.Stands 0 e stack) : s.Finishes := by
  induction stack generalizing s e with
  | nil => exact ⟨[], s, e, rfl, h.finish?_eq⟩
  | cons frame stack ih =>
    cases frame with
    | unary op => exact ih (h.trans (.unary op (Nat.zero_le _)) (Nat.le_refl _))
    | left l op => exact ih (h.trans (.binary (Nat.zero_le _)) (Nat.le_refl _))
    | no c y => exact ih (h.trans .conditional (Nat.le_refl _))
    | paren => exact .of_step h.step_parenClose (ih HasRead.complete.stands)
    | call f before => exact .of_step h.step_callClose (ih HasRead.complete.stands)
    | yes c =>
      -- any operand will do as the last part
      have hlast : (State.name "a" (.no c e :: stack)).Stands 0 (.var "a") (.no c e :: stack) :=
        HasRead.name.stands
      have hname : step (.name "a") (.operand (.no c e :: stack)) =
          some (.name "a" (.no c e :: stack)) := rfl
      exact .of_step h.step_colon
        (.of_step hname (ih (hlast.trans .conditional (Nat.le_refl _))))

theorem State.HasRead.finishes (h : s.HasRead e stack) : s.Finishes :=
  State.Stands.finishes h.stands

/-- **Every state leads to an end.** -/
theorem exists_finish (s : State) : s.Finishes := by
  cases s with
  | operand stack =>
    have hname : step (.name "a") (.operand stack) = some (.name "a" stack) := rfl
    exact .of_step hname State.HasRead.name.finishes
  | args f stack =>
    have hclose : step (.symbol .parenClose) (.args f stack) =
        some (.complete (.call f []) stack) := rfl
    exact .of_step hclose State.HasRead.complete.finishes
  | name name stack => exact State.HasRead.name.finishes
  | complete e stack => exact State.HasRead.complete.finishes

/-! ## What begins an expression -/

/-- Some expression begins with these tokens. -/
def Begins (ts : List Token) : Prop := ∃ rest e, Derives .ternary (ts ++ rest) e

theorem Derives.exists_steps (h : Derives .ternary ts e) :
    ∃ s, steps (.operand []) ts = some s := by
  obtain ⟨s, hsteps, -⟩ := h.steps_eq [] (Nat.le_refl _)
  exact ⟨s, hsteps⟩

/-- **The reader goes on as long as an expression does.** -/
theorem begins_iff : Begins ts ↔ ∃ s, steps (.operand []) ts = some s := by
  constructor
  · rintro ⟨rest, e, h⟩
    obtain ⟨last, hsteps⟩ := h.exists_steps
    rw [steps_append] at hsteps
    obtain ⟨s, hs, -⟩ := Option.bind_eq_some_iff.1 hsteps
    exact ⟨s, hs⟩
  · rintro ⟨s, hs⟩
    obtain ⟨rest, last, e, hrest, hfinish⟩ := exists_finish s
    have hsteps : steps (.operand []) (ts ++ rest) = some last := by
      rw [steps_append, hs, Option.bind_some, hrest]
    exact ⟨rest, e, ((Holds.operand .nil).steps hsteps).derives_of_finish? hfinish⟩

/-- What begins an expression and is none is a beginning of a longer one. -/
theorem Begins.exists_further (h : Begins ts) (hnot : ∀ e, ¬ Derives .ternary ts e) :
    ∃ rest e, rest ≠ [] ∧ Derives .ternary (ts ++ rest) e := by
  obtain ⟨rest, e, he⟩ := h
  refine ⟨rest, e, ?_, he⟩
  rintro rfl
  exact hnot e (by simpa using he)

/-! ## The place of an error -/

/-- The reader goes on behind tokens that it has taken. -/
theorem parseFrom_append (h : steps s (before.map Located.token) = some s') :
    parseFrom stop s (before ++ after) = parseFrom stop s' after := by
  induction before generalizing s with
  | nil =>
    cases h
    rfl
  | cons t before ih =>
    rw [List.map_cons, steps_cons] at h
    obtain ⟨next, hnext, hsteps⟩ := Option.bind_eq_some_iff.1 h
    rw [List.cons_append, parseFrom, hnext]
    exact ih hsteps

/-- The reader takes all tokens, or there is a first one that it refuses. -/
theorem exists_steps_or_refused (s : State) (tokens : List Located) :
    (∃ s', steps s (tokens.map Located.token) = some s') ∨
      ∃ before t after s', tokens = before ++ t :: after ∧
        steps s (before.map Located.token) = some s' ∧ step t.token s' = none := by
  induction tokens generalizing s with
  | nil => exact .inl ⟨s, rfl⟩
  | cons t tokens ih =>
    cases hstep : step t.token s with
    | none => exact .inr ⟨[], t, tokens, s, rfl, rfl, hstep⟩
    | some next =>
      rcases ih next with ⟨s', hsteps⟩ | ⟨before, t', after, s', rfl, hsteps, hrefused⟩
      · exact .inl ⟨s', by simp [hstep, hsteps]⟩
      · exact .inr ⟨t :: before, t', after, s', rfl, by simp [hstep, hsteps], hrefused⟩

/-- A token that no expression has behind others is refused there. -/
theorem ofTokens_of_not_begins (hbegins : Begins (before.map Located.token))
    (hnot : ¬ Begins ((before ++ [t]).map Located.token)) :
    ofTokens stop (before ++ t :: after) = .error t.start := by
  rw [begins_iff] at hbegins hnot
  obtain ⟨s, hsteps⟩ := hbegins
  have hrefused : step t.token s = none := by
    refine Option.eq_none_iff_forall_ne_some.2 fun next hnext => hnot ⟨next, ?_⟩
    simp [hsteps, hnext]
  rw [ofTokens, parseFrom_append hsteps, parseFrom, hrefused]

/-- What only begins an expression is refused at its end. -/
theorem ofTokens_of_begins (hbegins : Begins (tokens.map Located.token))
    (hnot : ∀ e, ¬ Derives .ternary (tokens.map Located.token) e) :
    ofTokens stop tokens = .error stop := by
  obtain ⟨s, hsteps⟩ := begins_iff.1 hbegins
  have hfinish : finish? s = none := Option.eq_none_iff_forall_ne_some.2 fun e he =>
    hnot e ((Holds.operand .nil).steps hsteps |>.derives_of_finish? he)
  have hrun := @parseFrom_append _ _ tokens [] stop hsteps
  rw [List.append_nil] at hrun
  rw [ofTokens, hrun, parseFrom, hfinish]

/-- Tokens that are no sentence begin one, or there is a first token that no expression has at
its place. -/
theorem begins_or_exists_first (tokens : List Located) : Begins (tokens.map Located.token) ∨
    ∃ before t after, tokens = before ++ t :: after ∧ Begins (before.map Located.token) ∧
      ¬ Begins ((before ++ [t]).map Located.token) := by
  rcases exists_steps_or_refused (.operand []) tokens with h | ⟨before, t, after, s, rfl, hs, hstep⟩
  · exact .inl (begins_iff.2 h)
  · refine .inr ⟨before, t, after, rfl, begins_iff.2 ⟨s, hs⟩, fun hbegins => ?_⟩
    obtain ⟨next, hnext⟩ := begins_iff.1 hbegins
    simp [hs, hstep] at hnext

/-- **Errors point at the right token.** A text whose tokens are no sentence of the grammar is
refused. The error is the start of the first token that no sentence has behind the tokens
before it; if every token of the text stands where some sentence has it, the tokens are the
beginning of a longer sentence, and the error is the end of the text. -/
theorem parse_error_offset (source : List Char) (tokens : List Located)
    (hscan : Token.scan source = .ok tokens)
    (hnot : ∀ e, ¬ Derives .ternary (tokens.map Located.token) e) :
    (∀ before t after, tokens = before ++ t :: after → Begins (before.map Located.token) →
      ¬ Begins ((before ++ [t]).map Located.token) → parse source = .error t.start) ∧
    ((∃ rest e, rest ≠ [] ∧ Derives .ternary (tokens.map Located.token ++ rest) e) →
      parse source = .error (byteLength source)) ∧
    ((∃ before t after, tokens = before ++ t :: after ∧ Begins (before.map Located.token) ∧
        ¬ Begins ((before ++ [t]).map Located.token)) ∨
      ∃ rest e, rest ≠ [] ∧ Derives .ternary (tokens.map Located.token ++ rest) e) := by
  have hparse : parse source = ofTokens (byteLength source) tokens := by
    rw [parse, hscan]
    rfl
  refine ⟨?_, ?_, ?_⟩
  · rintro before t after rfl hbegins hfirst
    rw [hparse, ofTokens_of_not_begins hbegins hfirst]
  · rintro ⟨rest, e, -, he⟩
    rw [hparse, ofTokens_of_begins ⟨rest, e, he⟩ hnot]
  · rcases begins_or_exists_first tokens with hbegins | hfirst
    · exact .inr (hbegins.exists_further hnot)
    · exact .inl hfirst

/-- A comparison behind a comparison, and a conditional that ends behind a name of two bytes. -/
theorem parse_error_offset_sample :
    Token.scan "a < b < c".toList = .ok [⟨.name "a", 0, 1⟩, ⟨.symbol .less, 2, 3⟩,
        ⟨.name "b", 4, 5⟩, ⟨.symbol .less, 6, 7⟩, ⟨.name "c", 8, 9⟩] ∧
      parse "a < b < c".toList = .error 6 ∧
      Token.scan "a ? é".toList = .ok [⟨.name "a", 0, 1⟩, ⟨.symbol .question, 2, 3⟩,
        ⟨.name "é", 4, 6⟩] ∧
      parse "a ? é".toList = .error 6 := by
  have hscan : Token.scan "a < b < c".toList = .ok [⟨.name "a", 0, 1⟩, ⟨.symbol .less, 2, 3⟩,
      ⟨.name "b", 4, 5⟩, ⟨.symbol .less, 6, 7⟩, ⟨.name "c", 8, 9⟩] := rfl
  have hscan' : Token.scan "a ? é".toList = .ok [⟨.name "a", 0, 1⟩, ⟨.symbol .question, 2, 3⟩,
      ⟨.name "é", 4, 6⟩] := rfl
  have hvar (p : Phrase) (s : String) : Derives p [.name s] (.var s) :=
    (Derives.var s).loosen (Phrase.level_le_primary p)
  have hrow {e : Expr} {rest : List Token} : ¬ Derives .ternary
      ([.name "a", .symbol .less, .name "b", .symbol .less] ++ rest) e :=
    @Derives.not_comparisons [.name "a"] [.name "b"] _ _ _ _ .lt .lt rfl rfl (hvar _ "a")
      (hvar _ "b")
  have hless : Derives .ternary [.name "a", .symbol .less, .name "b"]
      (.binary .lt (.var "a") (.var "b")) :=
    (@Derives.compare .lt [.name "a"] [.name "b"] _ _ rfl (hvar _ "a") (hvar _ "b")).loosen
      (Nat.zero_le _)
  have hconditional : Derives .ternary [.name "a", .symbol .question, .name "é", .symbol .colon,
      .name "b"] (.conditional (.var "a") (.var "é") (.var "b")) :=
    @Derives.conditional [.name "a"] [.name "é"] [.name "b"] _ _ _ (hvar _ "a") (hvar _ "é")
      (hvar _ "b")
  have hunfinished : ∀ e, ¬ Derives .ternary [.name "a", .symbol .question, .name "é"] e :=
    fun e he => nomatch (@ofTokens_eq_ok e 6
      [⟨.name "a", 0, 1⟩, ⟨.symbol .question, 2, 3⟩, ⟨.name "é", 4, 6⟩]).2 he
  refine ⟨hscan, ?_, hscan', ?_⟩
  · exact (parse_error_offset _ _ hscan fun e => @hrow e [.name "c"]).1
      [⟨.name "a", 0, 1⟩, ⟨.symbol .less, 2, 3⟩, ⟨.name "b", 4, 5⟩] ⟨.symbol .less, 6, 7⟩ _ rfl
      ⟨[], _, hless⟩ fun ⟨_, _, he⟩ => hrow he
  · exact (parse_error_offset _ _ hscan' hunfinished).2.1
      ⟨[.symbol .colon, .name "b"], _, by simp, hconditional⟩

end ReportQuery.Expr
