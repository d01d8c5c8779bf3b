import ReportQuery.Proofs.Expr.Frames
/-!
# Every phrase is read

The reader takes the tokens of every phrase, with its tree, wherever the operators that
wait leave room for the phrase (`Derives.steps_eq`). The induction is on the derivation;
the stack below is arbitrary, so that the same statement serves an operand, an argument
and what stands in parentheses.
-/

namespace ReportQuery.Expr

variable {p : Phrase} {e : Expr} {stack : List Frame} {s : State} {ts : List Token}
variable {links : List Link} {args : List Argument}

/-- How tight an operator may bind in front of a phrase without taking a part of it. -/
def Phrase.room : Phrase → Nat
  | .ternary | .or => 0
  | .and => 1
  | .comparison => 2
  | .sum => 3
  | .product => 4
  | .unary | .power | .primary => 7

/-- What binds at most as tight as this closes a phrase, once it has been read. The exponent
of a power is closed before the power is, and so is a sign in front of it. -/
def Phrase.closing : Phrase → Nat
  | .power => 6
  | p => p.level

theorem Phrase.closing_le_tighter (p : Phrase) : p.closing ≤ p.tighter.closing := by
  cases p <;> decide

theorem Phrase.closing_of_isChain (h : p.isChain = true) : p.closing = p.level := by
  cases p <;> simp_all [isChain, closing]

theorem Phrase.room_le_tighter (p : Phrase) : p.room ≤ p.tighter.room := by
  cases p <;> decide

theorem Phrase.level_le_room_tighter (h : p.isChain = true) : p.level ≤ p.tighter.room := by
  cases p <;> simp_all [isChain, level, tighter, room]

theorem Phrase.room_lt_level (h : p.isChain = true) : p.room < p.level := by
  cases p <;> simp_all [isChain, level, room]

/-- That the reader takes the tokens of a phrase on every stack that has room for it. -/
def Reads (p : Phrase) (ts : List Token) (e : Expr) : Prop :=
  ∀ stack, tightness stack ≤ p.room →
    ∃ s, steps (.operand stack) ts = some s ∧ s.Stands p.closing e stack

/-- The links of a chain are read one by one, and close what stands to their left. -/
theorem steps_links (hp : p.isChain = true) (hops : ∀ link ∈ links, link.op.phrase = p)
    (hlinks : ∀ link ∈ links, Reads p.tighter link.tokens link.operand)
    (hstack : tightness stack ≤ p.room) (h : s.Stands p.closing e stack) :
    ∃ s', steps s (links.flatMap Link.text) = some s' ∧
      s'.Stands p.closing (links.foldl Link.join e) stack := by
  induction links generalizing s e with
  | nil => exact ⟨s, rfl, h⟩
  | cons link links ih =>
    have hphrase : link.op.phrase = p := hops link (by simp)
    have hlevel : link.op.level = p.level := by rw [← BinaryOp.level_phrase, hphrase]
    have hclosing := Phrase.closing_of_isChain hp
    have hroom := Phrase.room_lt_level hp
    have hoperator : step link.op.token s = some (.operand (.left e link.op :: stack)) :=
      State.Stands.step_chain (h.mono (by omega)) (hphrase ▸ hp) (by omega)
    obtain ⟨mid, hmid, hstands⟩ := hlinks link (by simp) (.left e link.op :: stack)
      (by rw [tightness, hlevel]; exact Phrase.level_le_room_tighter hp)
    obtain ⟨s', hsteps, hs'⟩ := ih (fun l hl => hops l (by simp [hl]))
      (fun l hl => hlinks l (by simp [hl]))
      (hstands.trans (.binary (by omega)) p.closing_le_tighter)
    exact ⟨s', by simp [Link.text, hoperator, hmid, hsteps], hs'⟩

/-! ## Arguments -/

/-- After its opening parenthesis, a call goes on as in front of any argument, unless the
parenthesis is closed at once. -/
theorem steps_args {f : String} (hts : ts ≠ [])
    (h : steps (.operand (.call f [] :: stack)) ts = some s) :
    steps (.args f stack) ts = some s := by
  obtain ⟨t, ts, rfl⟩ := List.exists_cons_of_ne_nil hts
  rw [steps_cons] at h ⊢
  have ht : t ≠ .symbol .parenClose := by
    rintro rfl
    cases h
  have hstep : step t (.args f stack) = step t (.operand (.call f [] :: stack)) := by
    rw [step, step]
    exact ht
  rw [hstep, h]

theorem Argument.list_cons {arg next : Argument} :
    Argument.list (arg :: next :: args) =
      arg.1 ++ .symbol .comma :: Argument.list (next :: args) := by
  simp [Argument.list, List.intercalate]

/-- The arguments of a call are read up to the parenthesis that closes it. -/
theorem steps_arguments {f : String} {before : List Expr} (hne : args ≠ [])
    (hargs : ∀ arg ∈ args, Reads .ternary arg.1 arg.2) :
    steps (.operand (.call f before :: stack)) (Argument.list args ++ [.symbol .parenClose]) =
      some (.complete (.call f (before.reverse ++ args.map Prod.snd)) stack) := by
  induction args generalizing before with
  | nil => exact absurd rfl hne
  | cons arg args ih =>
    obtain ⟨s, hsteps, hstands⟩ := hargs arg (by simp) (.call f before :: stack) (Nat.le_refl _)
    cases args with
    | nil =>
      have hclose := hstands.step_callClose
      simp [Argument.list, List.intercalate, hsteps, hclose]
    | cons next args =>
      have hcomma := hstands.step_comma
      have hrest := @ih (arg.2 :: before) (by simp) fun a ha => hargs a (by simp [ha])
      rw [Argument.list_cons, List.append_assoc, List.cons_append, steps_append, hsteps,
        Option.bind_some, steps_cons, hcomma, Option.bind_some, hrest]
      simp

/-! ## All phrases -/

/-- **Every phrase is read**, wherever there is room for it. -/
theorem Derives.steps_eq (h : Derives p ts e) : Reads p ts e := by
  induction h with
  | ternary _ ih =>
    intro stack hstack
    obtain ⟨s, hsteps, hstands⟩ := ih stack hstack
    exact ⟨s, hsteps, hstands.mono (by decide)⟩
  | @conditional cs ys ns c y n _ _ _ ihc ihy ihn =>
    intro stack hstack
    have hbracket : tightness stack = 0 := Nat.le_zero.1 hstack
    obtain ⟨sc, hsc, hc⟩ := ihc stack hstack
    obtain ⟨sy, hsy, hy⟩ := ihy (.yes c :: stack) (Nat.le_refl _)
    obtain ⟨sn, hsn, hn⟩ := ihn (.no c y :: stack) (Nat.le_refl _)
    exact ⟨sn, by simp [hsc, hc.step_question hbracket, hsy, hy.step_colon, hsn],
      hn.trans .conditional (Nat.le_refl _)⟩
  | @chain p ts e links hp _ hops _ ih ihlinks =>
    intro stack hstack
    obtain ⟨first, hfirst, hstands⟩ := ih stack (Nat.le_trans hstack p.room_le_tighter)
    obtain ⟨s, hsteps, hs⟩ := steps_links hp hops ihlinks hstack (hstands.mono p.closing_le_tighter)
    exact ⟨s, by simp [hfirst, hsteps], hs⟩
  | comparison _ ih =>
    intro stack hstack
    obtain ⟨s, hsteps, hstands⟩ := ih stack (Nat.le_trans hstack (by decide))
    exact ⟨s, hsteps, hstands.mono (by decide)⟩
  | @compare op ls rs l r hop _ _ ihl ihr =>
    intro stack hstack
    have hlevel : op.level = 3 := by rw [← BinaryOp.level_phrase, hop]; rfl
    obtain ⟨sl, hsl, hl⟩ := ihl stack (Nat.le_trans hstack (by decide))
    obtain ⟨sr, hsr, hr⟩ := ihr (.left l op :: stack) (Nat.le_of_eq hlevel)
    exact ⟨sr, by simp [hsl, hl.step_comparison hop (Nat.lt_succ_of_le hstack), hsr],
      hr.trans (.binary (Nat.le_of_eq hlevel.symm)) (by decide)⟩
  | unary _ ih =>
    intro stack hstack
    obtain ⟨s, hsteps, hstands⟩ := ih stack hstack
    exact ⟨s, hsteps, hstands.mono (by decide)⟩
  | @sign op ts e _ ih =>
    intro stack _
    obtain ⟨s, hsteps, hstands⟩ := ih (.unary op :: stack) (Nat.le_succ 6)
    have hsign : step op.token (.operand stack) = some (.operand (.unary op :: stack)) := by
      cases op <;> rfl
    exact ⟨s, by simp [hsign, hsteps], hstands.trans (.unary op (Nat.le_refl _)) (Nat.le_refl _)⟩
  | power _ ih =>
    intro stack hstack
    obtain ⟨s, hsteps, hstands⟩ := ih stack hstack
    exact ⟨s, hsteps, hstands.mono (by decide)⟩
  | @raise bs es b e _ _ ihb ihe =>
    intro stack hstack
    obtain ⟨sb, hsb, hb⟩ := ihb stack hstack
    obtain ⟨se, hse, he⟩ := ihe (.left b .pow :: stack) (Nat.le_refl 7)
    exact ⟨se, by simp [hsb, hb.step_power, hse], he.trans (.binary (by decide)) (Nat.le_refl _)⟩
  | number x => exact fun stack _ => ⟨_, rfl, State.HasRead.complete.stands⟩
  | text s => exact fun stack _ => ⟨_, rfl, State.HasRead.complete.stands⟩
  | bool b => exact fun stack _ => ⟨_, rfl, State.HasRead.complete.stands⟩
  | var s => exact fun stack _ => ⟨_, rfl, State.HasRead.name.stands⟩
  | @call f args _ ih =>
    intro stack _
    refine ⟨.complete (.call f (args.map Prod.snd)) stack, ?_, State.HasRead.complete.stands⟩
    by_cases hargs : args = []
    · subst hargs
      rfl
    · have hrun := @steps_arguments stack args f [] hargs ih
      have hopen : steps (.args f stack) (Argument.list args ++ [.symbol .parenClose]) =
          some (.complete (.call f (args.map Prod.snd)) stack) :=
        steps_args (by simp) (by simpa using hrun)
      rw [steps_cons]
      exact hopen
  | @paren ts e _ ih =>
    intro stack _
    obtain ⟨s, hsteps, hstands⟩ := ih (.paren :: stack) (Nat.le_refl _)
    refine ⟨.complete e stack, ?_, State.HasRead.complete.stands⟩
    have hopen : step (.symbol .parenOpen) (.operand stack) =
        some (.operand (.paren :: stack)) := rfl
    simp [hopen, hsteps, hstands.step_parenClose]

end ReportQuery.Expr
