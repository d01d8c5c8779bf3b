import ReportQuery.Proofs.Expr.Reading
/-!
# What the reader holds is derived

At any time the tokens read so far are those of the frames, one after the other, and of
the operand on top, if there is one; and each of these is derived by the grammar, as the
phrase that its place asks for. `Waits` says so of a stack, `Holds` of a state. One step
keeps it (`Holds.step`), and so does a run (`Holds.steps`); at the end nothing is left on
the stack, and the tokens are a sentence.
-/

namespace ReportQuery

/-- The phrase in front of an operator. -/
def BinaryOp.leftPhrase (op : BinaryOp) : Expr.Phrase :=
  match op.phrase with
  | .comparison => .sum
  | .power => .primary
  | p => p

/-- The phrase after an operator. -/
def BinaryOp.rightPhrase (op : BinaryOp) : Expr.Phrase :=
  match op.phrase with
  | .comparison => .sum
  | .power => .unary
  | p => p.tighter

namespace Expr

open Outcome

variable {p : Phrase} {e l r : Expr} {stack : List Frame} {s s' : State} {t : Token}
variable {ts ls rs front : List Token} {op : BinaryOp} {level : Nat}

/-- **Every operator joins its two phrases** into the one that it stands in. -/
theorem Derives.binary (hl : Derives op.leftPhrase ls l) (hr : Derives op.rightPhrase rs r) :
    Derives op.phrase (ls ++ op.token :: rs) (.binary op l r) := by
  cases op with
  | add | sub | mul | div | mod | and | or => exact snoc rfl hl hr
  | eq | ne | lt | le | gt | ge => exact compare rfl hl hr
  | pow => exact raise hl hr

/-- The tokens that have been read for a stack. An operator stands on a stack with room
for its phrase; a conditional stands where no operator waits. -/
inductive Waits : List Frame → List Token → Prop
  | nil : Waits [] []
  | unary {stack : List Frame} {ts : List Token} (op : UnaryOp) : Waits stack ts →
      Waits (.unary op :: stack) (ts ++ [op.token])
  | left {stack : List Frame} {ts ls : List Token} {l : Expr} {op : BinaryOp} : Waits stack ts →
      tightness stack ≤ op.phrase.room → Derives op.leftPhrase ls l →
      Waits (.left l op :: stack) (ts ++ (ls ++ [op.token]))
  | paren {stack : List Frame} {ts : List Token} : Waits stack ts →
      Waits (.paren :: stack) (ts ++ [.symbol .parenOpen])
  | call {stack : List Frame} {ts : List Token} {f : String} {args : List Argument} :
      Waits stack ts → (∀ arg ∈ args, Derives .ternary arg.1 arg.2) →
      Waits (.call f (args.map Prod.snd).reverse :: stack)
        (ts ++ (.name f :: .symbol .parenOpen :: args.flatMap fun arg => arg.1 ++ [.symbol .comma]))
  | yes {stack : List Frame} {ts cs : List Token} {c : Expr} : Waits stack ts →
      tightness stack = 0 → Derives .or cs c →
      Waits (.yes c :: stack) (ts ++ (cs ++ [.symbol .question]))
  | no {stack : List Frame} {ts cs ys : List Token} {c y : Expr} : Waits stack ts →
      tightness stack = 0 → Derives .or cs c → Derives .ternary ys y →
      Waits (.no c y :: stack) (ts ++ (cs ++ .symbol .question :: (ys ++ [.symbol .colon])))

/-- A phrase has been read on a stack that has room for it. -/
def Reached (p : Phrase) (e : Expr) (stack : List Frame) (ts : List Token) : Prop :=
  ∃ front es, ts = front ++ es ∧ Waits stack front ∧ Derives p es e ∧ tightness stack ≤ p.room

/-! ## Closing -/

theorem tightness_le (stack : List Frame) : tightness stack ≤ Phrase.primary.room := by
  unfold tightness
  split
  · decide
  · next op _ => cases op <;> decide
  · decide

/-- What stands right of an operator, if there is room for it, is tight enough. -/
theorem Phrase.min_le_level {n : Nat} (hpos : 0 < n) (h : n ≤ p.room) :
    min (n + 1) 6 ≤ p.level := by
  cases p <;> simp only [room, level] at h ⊢ <;> omega

theorem BinaryOp.level_rightPhrase (op : BinaryOp) :
    op.rightPhrase.level = min (op.level + 1) 6 := by
  cases op <;> rfl

theorem BinaryOp.level_pos (op : BinaryOp) : 0 < op.level := by
  cases op <;> decide

namespace Reached

/-- A phrase with a sign in front of it is a phrase with a sign. -/
theorem unary {sign : UnaryOp} (h : Reached p e (.unary sign :: stack) ts) :
    Reached .unary (.unary sign e) stack ts := by
  obtain ⟨front, es, rfl, hwaits, he, hroom⟩ := h
  cases hwaits with
  | @unary _ front _ hwaits =>
    have hlevel : Phrase.unary.level ≤ p.level := Phrase.min_le_level (by decide : 0 < 6) hroom
    exact ⟨front, sign.token :: es, by simp, hwaits, .sign (he.loosen hlevel), tightness_le stack⟩

/-- A phrase with an operator in front of it is the right part of the operator's phrase. -/
theorem binary (h : Reached p e (.left l op :: stack) ts) :
    Reached op.phrase (.binary op l e) stack ts := by
  obtain ⟨front, es, rfl, hwaits, he, hroom⟩ := h
  cases hwaits with
  | @left _ front ls _ _ hwaits hbelow hl =>
    have hlevel : op.rightPhrase.level ≤ p.level := by
      rw [BinaryOp.level_rightPhrase]
      exact Phrase.min_le_level (BinaryOp.level_pos op) hroom
    exact ⟨front, ls ++ op.token :: es, by simp, hwaits, .binary hl (he.loosen hlevel), hbelow⟩

/-- A phrase after the two first parts of a conditional is its last part. -/
theorem conditional {c y : Expr} (h : Reached p e (.no c y :: stack) ts) :
    Reached .ternary (.conditional c y e) stack ts := by
  obtain ⟨front, es, rfl, hwaits, he, -⟩ := h
  cases hwaits with
  | @no _ front cs ys _ _ hwaits hbelow hc hy =>
    exact ⟨front, cs ++ .symbol .question :: (ys ++ .symbol .colon :: es), by simp, hwaits,
      .conditional hc hy (he.loosen (Nat.zero_le _)), Nat.le_of_eq hbelow⟩

theorem loosen {q : Phrase} (h : Reached p e stack ts) (hlevel : q.level ≤ p.level)
    (hroom : tightness stack ≤ q.room) : Reached q e stack ts := by
  obtain ⟨front, es, heq, hwaits, he, -⟩ := h
  exact ⟨front, es, heq, hwaits, he.loosen hlevel, hroom⟩

/-- **What is closed is derived**, as a phrase that is at least as tight as what closes it;
and nothing as tight is left on top. -/
theorem close (h : Reached p e stack ts) (hpos : 0 < level) (hlevel : level ≤ p.level) :
    ∃ q, Reached q (close level e stack).1 (close level e stack).2 ts ∧ level ≤ q.level ∧
      tightness (Expr.close level e stack).2 < level := by
  induction stack generalizing p e with
  | nil => exact ⟨p, h, hlevel, hpos⟩
  | cons frame stack ih =>
    rcases Nat.lt_or_ge (tightness (frame :: stack)) level with hlt | hge
    · rw [close_of_lt hlt]
      exact ⟨p, h, hlevel, hlt⟩
    · -- the frame on top is closed, and what it makes is as tight as it
      cases frame with
      | unary sign =>
        have hle : level ≤ 6 := hge
        rw [Expr.close, if_pos hle]
        exact ih h.unary hle
      | left l op =>
        have hle : level ≤ op.level := hge
        rw [Expr.close, if_pos hle]
        exact ih h.binary (by rwa [BinaryOp.level_phrase])
      | paren | call _ _ | yes _ | no _ _ => exact absurd hpos (Nat.not_lt.2 hge)

/-- **What is settled is derived** as a whole expression. -/
theorem settle (h : Reached p e stack ts) :
    Reached .ternary (settle e stack).1 (settle e stack).2 ts := by
  induction stack generalizing p e with
  | nil => exact h.loosen (Nat.zero_le _) (Nat.le_refl _)
  | cons frame stack ih =>
    cases frame with
    | unary sign => exact ih h.unary
    | left l op => exact ih h.binary
    | no c y => exact ih h.conditional
    | paren | call _ _ | yes _ => exact h.loosen (Nat.zero_le _) (Nat.le_refl _)

end Reached

/-! ## States -/

/-- The tokens that have been read when the reader is in a state. -/
inductive Holds : State → List Token → Prop
  | operand {stack : List Frame} {ts : List Token} : Waits stack ts → Holds (.operand stack) ts
  | args {stack : List Frame} {ts : List Token} {f : String} : Waits stack ts →
      Holds (.args f stack) (ts ++ [.name f, .symbol .parenOpen])
  | name {stack : List Frame} {ts : List Token} {name : String} : Waits stack ts →
      Holds (.name name stack) (ts ++ [.name name])
  | complete {stack : List Frame} {ts es : List Token} {e : Expr} : Waits stack ts →
      Derives .primary es e → Holds (.complete e stack) (ts ++ es)

/-- The operand that has been read is a primary one. -/
theorem Holds.reached (h : Holds s ts) (hread : s.HasRead e stack) :
    Reached .primary e stack ts := by
  cases hread with
  | complete =>
    cases h with
    | complete hwaits he => exact ⟨_, _, rfl, hwaits, he, tightness_le _⟩
  | name =>
    cases h with
    | name hwaits => exact ⟨_, _, rfl, hwaits, .var _, tightness_le _⟩

theorem eq_token_of_binaryOp? (h : binaryOp? t = some op) : t = op.token := by
  unfold binaryOp? at h
  split at h <;> cases h <;> rfl

theorem eq_token_of_unaryOp? {sign : UnaryOp} (h : unaryOp? t = some sign) : t = sign.token := by
  unfold unaryOp? at h
  split at h <;> cases h <;> rfl

/-- A token that starts an operand. -/
theorem Waits.startOperand (h : Waits stack ts) (hstep : startOperand t stack = some s) :
    Holds s (ts ++ [t]) := by
  unfold Expr.startOperand at hstep
  split at hstep
  · cases hstep
    exact .complete h (.number _)
  · cases hstep
    exact .complete h (.text _)
  · cases hstep
    exact .complete h (.bool _)
  · cases hstep
    exact .name h
  · cases hstep
    exact .operand h.paren
  · obtain ⟨sign, hsign, rfl⟩ := Option.map_eq_some_iff.1 hstep
    rw [eq_token_of_unaryOp? hsign]
    exact .operand (h.unary sign)

/-- An operator takes what it closes as its left part. -/
theorem Reached.left (h : Reached p e stack ts) (hroom : tightness stack ≤ op.phrase.room)
    (hlevel : op.leftPhrase.level ≤ p.level) :
    Holds (.operand (.left e op :: stack)) (ts ++ [op.token]) := by
  obtain ⟨front, es, rfl, hwaits, he, -⟩ := h
  rw [List.append_assoc]
  exact .operand (.left hwaits hroom (he.loosen hlevel))

/-- A comparison closes sums, and is refused after another comparison. -/
theorem pushOperator_comparison (hlevel : op.level = 3) (h : pushOperator op e stack = some s) :
    s = .operand (.left (close 4 e stack).1 op :: (close 4 e stack).2) ∧
      tightness (close 4 e stack).2 ≠ 3 := by
  rw [pushOperator, if_pos hlevel] at h
  split at h
  · next e' l op' below heq =>
    split at h
    · cases h
    · next hne =>
      cases h
      rw [heq]
      exact ⟨rfl, hne⟩
  · next e' below hother heq =>
    cases h
    rw [heq]
    refine ⟨rfl, ?_⟩
    cases below with
    | nil => simp [tightness]
    | cons frame below =>
      cases frame with
      | left l op' => exact absurd rfl (hother l op' below)
      | unary _ | paren | call _ _ | yes _ | no _ _ => simp [tightness]

/-- **An operator takes what it closes**: that binds as tight as its left phrase, and what
is left on the stack leaves room for it. -/
theorem pushOperator_eq_some (h : pushOperator op e stack = some s) :
    s = .operand (.left (close op.leftPhrase.level e stack).1 op ::
        (close op.leftPhrase.level e stack).2) ∧
      (tightness (close op.leftPhrase.level e stack).2 < op.leftPhrase.level →
        tightness (close op.leftPhrase.level e stack).2 ≤ op.phrase.room) := by
  cases op with
  | add | sub | mul | div | mod | and | or | pow =>
    cases h
    exact ⟨rfl, Nat.le_of_lt_succ⟩
  | eq | ne | lt | le | gt | ge =>
    obtain ⟨hs, hne⟩ := pushOperator_comparison rfl h
    exact ⟨hs, fun hlt => Nat.le_of_lt_succ (Nat.lt_of_le_of_ne (Nat.le_of_lt_succ hlt) hne)⟩

theorem Reached.pushOperator (h : Reached .primary e stack ts)
    (hstep : pushOperator op e stack = some s) : Holds s (ts ++ [op.token]) := by
  obtain ⟨rfl, hroom⟩ := pushOperator_eq_some hstep
  have hpos : 0 < op.leftPhrase.level := by cases op <;> decide
  obtain ⟨q, hclosed, hq, htight⟩ := h.close hpos (Phrase.level_le_primary _)
  exact hclosed.left (hroom htight) hq

theorem Argument.list_append (args : List Argument) (arg : Argument) :
    Argument.list (args ++ [arg]) = (args.flatMap fun a => a.1 ++ [.symbol .comma]) ++ arg.1 := by
  induction args with
  | nil => simp [Argument.list, List.intercalate]
  | cons first args ih =>
    obtain ⟨next, rest, hrest⟩ := List.exists_cons_of_ne_nil (show args ++ [arg] ≠ [] by simp)
    rw [List.cons_append, hrest, Argument.list_cons, ← hrest, ih]
    simp

/-- **A token after an operand.** -/
theorem Reached.afterOperand (h : Reached .primary e stack ts)
    (hstep : afterOperand t e stack = some s) : Holds s (ts ++ [t]) := by
  unfold Expr.afterOperand at hstep
  split at hstep
  · -- `?`: what is closed is the condition
    obtain ⟨q, ⟨front, es, rfl, hwaits, he, -⟩, hq, htight⟩ :=
      h.close (by decide : 0 < 1) (by decide)
    cases hstep
    rw [List.append_assoc]
    exact .operand (.yes hwaits (Nat.lt_one_iff.1 htight) (he.loosen hq))
  · -- `:`: what is settled is the part between the marks
    obtain ⟨front, es, rfl, hwaits, he, -⟩ := h.settle
    split at hstep
    · next settled c below heq =>
      rw [heq] at hwaits he
      cases hstep
      cases hwaits with
      | yes hwaits hbelow hc => simpa using Holds.operand (.no hwaits hbelow hc he)
    · cases hstep
  · -- a comma: what is settled is an argument
    obtain ⟨front, es, rfl, hwaits, he, -⟩ := h.settle
    split at hstep
    · next settled f before below heq =>
      rw [heq] at hwaits he
      cases hstep
      cases hwaits with
      | @call _ front _ args hwaits hargs =>
        have hall : ∀ arg ∈ args ++ [(es, settled)], Derives .ternary arg.1 arg.2 :=
          List.forall_mem_append.2 ⟨hargs, List.forall_mem_singleton.2 he⟩
        simpa using Holds.operand (@Waits.call below front f _ hwaits hall)
    · cases hstep
  · -- a closing parenthesis: of a whole expression, or of a call after its last argument
    obtain ⟨front, es, rfl, hwaits, he, -⟩ := h.settle
    split at hstep
    · next settled below heq =>
      rw [heq] at hwaits he
      cases hstep
      cases hwaits with
      | paren hwaits => simpa using Holds.complete hwaits he.paren
    · next settled f before below heq =>
      rw [heq] at hwaits he
      cases hstep
      cases hwaits with
      | @call _ front _ args hwaits hargs =>
        have hall : ∀ arg ∈ args ++ [(es, settled)], Derives .ternary arg.1 arg.2 :=
          List.forall_mem_append.2 ⟨hargs, List.forall_mem_singleton.2 he⟩
        simpa [Argument.list_append] using Holds.complete hwaits (@Derives.call f _ hall)
    · cases hstep
  · obtain ⟨op, hop, hpush⟩ := Option.bind_eq_some_iff.1 hstep
    rw [eq_token_of_binaryOp? hop]
    exact h.pushOperator hpush

/-- **One step keeps what is held.** -/
theorem Holds.step (h : Holds s ts) (hstep : step t s = some s') : Holds s' (ts ++ [t]) := by
  cases h with
  | operand hwaits => exact hwaits.startOperand hstep
  | @args stack front f hwaits =>
    by_cases ht : t = .symbol .parenClose
    · subst ht
      cases hstep
      simpa [Argument.list] using Holds.complete hwaits (@Derives.call f [] (by simp))
    · have hcall : Waits (.call f [] :: stack) (front ++ [.name f, .symbol .parenOpen]) := by
        simpa using @Waits.call stack front f [] hwaits (by simp)
      rw [Expr.step] at hstep
      · exact hcall.startOperand hstep
      · exact ht
  | @name stack front name hwaits =>
    by_cases ht : t = .symbol .parenOpen
    · subst ht
      cases hstep
      simpa using Holds.args hwaits
    · rw [State.HasRead.name.step_eq ht] at hstep
      exact ((Holds.name hwaits).reached .name).afterOperand hstep
  | complete hwaits he =>
    exact ((Holds.complete hwaits he).reached .complete).afterOperand hstep

/-- **A run keeps what is held.** -/
theorem Holds.steps (h : Holds s ts) (hsteps : steps s rs = some s') : Holds s' (ts ++ rs) := by
  induction rs generalizing s ts with
  | nil =>
    cases hsteps
    simpa using h
  | cons t rs ih =>
    rw [steps_cons] at hsteps
    obtain ⟨next, hnext, hrest⟩ := Option.bind_eq_some_iff.1 hsteps
    simpa using ih (h.step hnext) hrest

/-- Where an expression can end, all the tokens are derived. -/
theorem Holds.derives_of_finish? (h : Holds s ts) (hfinish : finish? s = some e) :
    Derives .ternary ts e := by
  obtain ⟨x, stack, hread⟩ : ∃ x stack, s.HasRead x stack := by
    cases h with
    | operand _ | args _ => cases hfinish
    | name _ => exact ⟨_, _, .name⟩
    | complete _ _ => exact ⟨_, _, .complete⟩
  obtain ⟨front, es, rfl, hwaits, he, -⟩ := (h.reached hread).settle
  rw [hread.finish?_eq] at hfinish
  split at hfinish
  · next settled heq =>
    cases hfinish
    rw [heq] at hwaits he
    cases hwaits
    exact he
  · cases hfinish

end Expr
end ReportQuery
