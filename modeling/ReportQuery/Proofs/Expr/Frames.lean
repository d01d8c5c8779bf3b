import ReportQuery.Proofs.Expr.Grammar
import ReportQuery.Proofs.Outcome
/-!
# Operands that wait in frames

While an expression is read, operators whose right operand may go on stay open in frames.
How tight the operator on top binds (`tightness`) decides what the next token closes
(`close_of_lt`). An operand on some frames amounts to an expression on fewer of them when
closing leads from both to the same (`Amounts`): what comes next cannot tell them apart,
as long as it binds no tighter. A state stands for an expression on a stack when it has
read an operand that amounts to it (`Stands`), and for such states this file says what
each token does.
-/

namespace ReportQuery.Expr

variable {level level' : Nat} {e e' x c y l r : Expr} {stack stack' rest : List Frame}
variable {s : State} {t : Token} {ts ts' : List Token} {op : BinaryOp}

/-! ## Runs -/

/-- The state after a list of tokens, if none of them is refused. -/
def steps (s : State) (ts : List Token) : Option State := ts.foldlM (fun s t => step t s) s

@[simp] theorem steps_nil : steps s [] = some s := rfl

@[simp] theorem steps_cons : steps s (t :: ts) = (step t s).bind fun s' => steps s' ts := by
  simp [steps]

@[simp] theorem steps_append : steps s (ts ++ ts') = (steps s ts).bind fun s' => steps s' ts' := by
  simp [steps]

/-- The reader accepts tokens that lead to a state in which an expression can end. -/
theorem parseFrom_eq_ok {stop : Nat} {tokens : List Located} :
    parseFrom stop s tokens = .ok e ↔
      ∃ s', steps s (tokens.map Located.token) = some s' ∧ finish? s' = some e := by
  induction tokens generalizing s with
  | nil =>
    rw [parseFrom]
    cases hfinish : finish? s <;> simp [hfinish]
  | cons t tokens ih =>
    rw [parseFrom]
    cases hstep : step t.token s with
    | none => simp [hstep]
    | some next => simp [hstep, ih]

/-! ## What the next token closes -/

/-- How tight the operator on top of a stack binds; 0 if no operator waits there. -/
def tightness : List Frame → Nat
  | .unary _ :: _ => 6
  | .left _ op :: _ => op.level
  | _ => 0

/-- What binds tighter than the operator on top closes nothing. -/
theorem close_of_lt (h : tightness stack < level) : close level e stack = (e, stack) := by
  cases stack with
  | nil => rw [close] <;> simp
  | cons frame stack =>
    cases frame with
    | unary op =>
      rw [tightness] at h
      rw [close, if_neg (by omega)]
    | left l op =>
      rw [tightness] at h
      rw [close, if_neg (by omega)]
    | _ => rw [close] <;> simp

/-- An operand with the frames `stack'` is as good as an expression with the frames
`stack`, for all that binds at most as tight as `level`. -/
structure Amounts (level : Nat) (e' : Expr) (stack' : List Frame) (e : Expr) (stack : List Frame) :
    Prop where
  close : ∀ bound, 0 < bound → bound ≤ level → close bound e' stack' = close bound e stack
  settle : settle e' stack' = settle e stack

namespace Amounts

theorem refl : Amounts level e stack e stack := ⟨fun _ _ _ => rfl, rfl⟩

theorem trans (h : Amounts level' e' stack' x rest) (hx : Amounts level x rest e stack)
    (hle : level ≤ level') : Amounts level e' stack' e stack :=
  ⟨fun bound hpos hbound => (h.close bound hpos (by omega)).trans (hx.close bound hpos hbound),
    h.settle.trans hx.settle⟩

theorem mono (h : Amounts level' e' stack' e stack) (hle : level ≤ level') :
    Amounts level e' stack' e stack := h.trans refl hle

/-- A unary operator is closed by all that binds no tighter. -/
theorem unary (op : UnaryOp) (hle : level ≤ 6) :
    Amounts level e (.unary op :: stack) (.unary op e) stack := by
  refine ⟨fun bound _ hbound => ?_, ?_⟩
  · rw [Expr.close, if_pos (by omega)]
  · rw [Expr.settle]

/-- A binary operator is closed by all that binds no tighter. -/
theorem binary (hle : level ≤ op.level) :
    Amounts level e (.left l op :: stack) (.binary op l e) stack := by
  refine ⟨fun bound _ hbound => ?_, ?_⟩
  · rw [Expr.close, if_pos (by omega)]
  · rw [Expr.settle]

/-- A conditional that has both its parts is closed by what ends an expression. -/
theorem conditional : Amounts 0 e (.no c y :: stack) (.conditional c y e) stack := by
  refine ⟨fun bound hpos hbound => by omega, ?_⟩
  rw [Expr.settle]

end Amounts

/-! ## States after an operand -/

/-- A state in which an operand has been read. A name may be a variable. -/
inductive State.HasRead : State → Expr → List Frame → Prop
  | complete {e : Expr} {stack : List Frame} : HasRead (.complete e stack) e stack
  | name {name : String} {stack : List Frame} : HasRead (.name name stack) (.var name) stack

/-- After an operand, a token but the opening parenthesis of a call goes on with it. -/
theorem State.HasRead.step_eq (h : s.HasRead e stack) (ht : t ≠ .symbol .parenOpen) :
    step t s = afterOperand t e stack := by
  cases h with
  | complete => rw [step]
  | name =>
    rw [step]
    exact ht

theorem State.HasRead.finish?_eq (h : s.HasRead e stack) :
    finish? s = match settle e stack with
      | (e, []) => some e
      | _ => none := by
  cases h <;> rfl

/-- A state that stands for an expression on a stack, for what binds at most as tight as
`level`. -/
def State.Stands (level : Nat) (s : State) (e : Expr) (stack : List Frame) : Prop :=
  ∃ e' stack', s.HasRead e' stack' ∧ Amounts level e' stack' e stack

namespace State.Stands

theorem mono (h : s.Stands level' e stack) (hle : level ≤ level') : s.Stands level e stack := by
  obtain ⟨e', stack', hread, hamounts⟩ := h
  exact ⟨e', stack', hread, hamounts.mono hle⟩

/-- What an operand amounts to may amount to more. -/
theorem trans (h : s.Stands level' x rest) (hx : Amounts level x rest e stack)
    (hle : level ≤ level') : s.Stands level e stack := by
  obtain ⟨e', stack', hread, hamounts⟩ := h
  exact ⟨e', stack', hread, hamounts.trans hx hle⟩

end State.Stands

theorem State.HasRead.stands (h : s.HasRead e stack) : s.Stands level e stack :=
  ⟨e, stack, h, .refl⟩

/-! ## Operators after an operand -/

/-- An operator after an operand takes it as its left one. -/
theorem afterOperand_token (op : BinaryOp) :
    afterOperand op.token e stack = pushOperator op e stack := by
  cases op <;> rfl

namespace State.Stands

/-- An operator of a chain closes what binds as tight as it. -/
theorem step_chain (h : s.Stands op.level l stack) (hop : op.phrase.isChain = true)
    (hstack : tightness stack < op.level) :
    step op.token s = some (.operand (.left l op :: stack)) := by
  obtain ⟨e', stack', hread, hamounts⟩ := h
  have hpos : 0 < op.level := by omega
  have hpush : pushOperator op e' stack' =
      some (.operand (.left (close op.level e' stack').1 op :: (close op.level e' stack').2)) := by
    cases op with
    | add | sub | mul | div | mod | and | or => rfl
    | pow | eq | ne | lt | le | gt | ge => cases hop
  rw [hread.step_eq op.token_ne_parenOpen, afterOperand_token, hpush,
    hamounts.close op.level hpos (Nat.le_refl _), close_of_lt hstack]

/-- A comparison closes sums, and does not follow another comparison. -/
theorem step_comparison (h : s.Stands 4 l stack) (hop : op.phrase = .comparison)
    (hstack : tightness stack < 3) :
    step op.token s = some (.operand (.left l op :: stack)) := by
  obtain ⟨e', stack', hread, hamounts⟩ := h
  have hlevel : op.level = 3 := by rw [← BinaryOp.level_phrase, hop]; rfl
  rw [hread.step_eq op.token_ne_parenOpen, afterOperand_token, pushOperator, if_pos hlevel,
    hamounts.close 4 (by decide) (Nat.le_refl _), close_of_lt (by omega)]
  split
  · next l' op' below heq =>
    cases heq
    rw [tightness] at hstack
    rw [if_neg (by omega)]
  · next below _ heq =>
    cases heq
    rfl

/-- A comparison is refused after another one. -/
theorem step_second_comparison {first : BinaryOp} (h : s.Stands 4 r (.left l first :: stack))
    (hfirst : first.phrase = .comparison) (hop : op.phrase = .comparison) :
    step op.token s = none := by
  obtain ⟨e', stack', hread, hamounts⟩ := h
  have hlevel : op.level = 3 := by rw [← BinaryOp.level_phrase, hop]; rfl
  have hbelow : first.level = 3 := by rw [← BinaryOp.level_phrase, hfirst]; rfl
  have htight : tightness (.left l first :: stack) < 4 := by rw [tightness]; omega
  rw [hread.step_eq op.token_ne_parenOpen, afterOperand_token, pushOperator, if_pos hlevel,
    hamounts.close 4 (by decide) (Nat.le_refl _), close_of_lt htight]
  exact if_pos hbelow

/-- A power closes nothing. -/
theorem step_power (h : s.Stands 8 l stack) :
    step BinaryOp.pow.token s = some (.operand (.left l .pow :: stack)) := by
  obtain ⟨e', stack', hread, hamounts⟩ := h
  have htight : tightness stack < 8 := by
    unfold tightness
    split
    · decide
    · next op _ => cases op <;> decide
    · decide
  rw [hread.step_eq (BinaryOp.token_ne_parenOpen _), afterOperand_token, pushOperator,
    if_neg (by decide), if_pos rfl, hamounts.close 8 (by decide) (Nat.le_refl _),
    close_of_lt htight]

end State.Stands

/-! ## The marks of conditionals, calls and parentheses -/

/-- Where no operator waits, nothing is settled but conditionals. -/
theorem settle_of_bracket (h : ∀ frame ∈ stack.head?, (∃ c, frame = .yes c) ∨ frame = .paren ∨
    ∃ f before, frame = .call f before) : settle e stack = (e, stack) := by
  cases stack with
  | nil => rw [settle] <;> simp
  | cons frame stack =>
    rcases h frame rfl with ⟨c, rfl⟩ | rfl | ⟨f, before, rfl⟩ <;> rw [settle] <;> simp

namespace State.Stands

theorem step_question (h : s.Stands 1 c stack) (hstack : tightness stack = 0) :
    step (.symbol .question) s = some (.operand (.yes c :: stack)) := by
  obtain ⟨e', stack', hread, hamounts⟩ := h
  rw [hread.step_eq (by simp), afterOperand, hamounts.close 1 (by decide) (Nat.le_refl _),
    close_of_lt (by omega)]

theorem step_colon (h : s.Stands 0 y (.yes c :: stack)) :
    step (.symbol .colon) s = some (.operand (.no c y :: stack)) := by
  obtain ⟨e', stack', hread, hamounts⟩ := h
  rw [hread.step_eq (by simp), afterOperand, hamounts.settle, settle_of_bracket (by simp)]

theorem step_comma {f : String} {before : List Expr} (h : s.Stands 0 e (.call f before :: stack)) :
    step (.symbol .comma) s = some (.operand (.call f (e :: before) :: stack)) := by
  obtain ⟨e', stack', hread, hamounts⟩ := h
  rw [hread.step_eq (by simp), afterOperand, hamounts.settle, settle_of_bracket (by simp)]

theorem step_parenClose (h : s.Stands 0 e (.paren :: stack)) :
    step (.symbol .parenClose) s = some (.complete e stack) := by
  obtain ⟨e', stack', hread, hamounts⟩ := h
  rw [hread.step_eq (by simp), afterOperand, hamounts.settle, settle_of_bracket (by simp)]

theorem step_callClose {f : String} {before : List Expr}
    (h : s.Stands 0 e (.call f before :: stack)) :
    step (.symbol .parenClose) s = some (.complete (.call f (e :: before).reverse) stack) := by
  obtain ⟨e', stack', hread, hamounts⟩ := h
  rw [hread.step_eq (by simp), afterOperand, hamounts.settle, settle_of_bracket (by simp)]

/-- A state that stands for an expression on the empty stack has read it. -/
theorem finish?_eq (h : s.Stands 0 e []) : finish? s = some e := by
  obtain ⟨e', stack', hread, hamounts⟩ := h
  rw [hread.finish?_eq, hamounts.settle, settle_of_bracket (by simp)]

end State.Stands

end ReportQuery.Expr
