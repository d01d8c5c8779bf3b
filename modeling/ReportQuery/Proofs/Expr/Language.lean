import ReportQuery.Proofs.Expr.Held
/-!
# The language of expressions

The reader accepts the sentences of the grammar and nothing else, each with its tree
(`ofTokens_eq_ok`). It takes one token at a time and never goes back, so a list of tokens
has one tree at most (`Derives.unique`), and the trees of operators in a row follow:
those of a chain associate to the left, powers to the right, a sign stands outside a
power and inside a product, and comparisons do not stand in a row.
-/

namespace ReportQuery.Expr

variable {p : Phrase} {ts as bs cs : List Token} {e e' x y z : Expr} {op op' : BinaryOp}

/-- **The reader and the grammar agree.** -/
theorem ofTokens_eq_ok {stop : Nat} {tokens : List Located} :
    ofTokens stop tokens = .ok e ↔ Derives .ternary (tokens.map Located.token) e := by
  rw [ofTokens, parseFrom_eq_ok]
  constructor
  · rintro ⟨s, hsteps, hfinish⟩
    exact ((Holds.operand .nil).steps hsteps).derives_of_finish? hfinish
  · intro h
    obtain ⟨s, hsteps, hstands⟩ := h.steps_eq [] (Nat.le_refl _)
    exact ⟨s, hsteps, hstands.finish?_eq⟩

namespace Derives

/-- **A phrase has one tree.** -/
theorem unique (h : Derives p ts e) (h' : Derives p ts e') : e = e' := by
  have hternary : Derives .ternary ts e := h.loosen (Nat.zero_le _)
  have hternary' : Derives .ternary ts e' := h'.loosen (Nat.zero_le _)
  obtain ⟨s, hsteps, hs⟩ := hternary.steps_eq [] (Nat.le_refl _)
  obtain ⟨s', hsteps', hs'⟩ := hternary'.steps_eq [] (Nat.le_refl _)
  -- both trees are read in one run
  obtain rfl : s = s' := Option.some.inj (hsteps.symm.trans hsteps')
  exact Option.some.inj (hs.finish?_eq.symm.trans hs'.finish?_eq)

/-- The tree of a phrase is its tree as a whole expression. -/
theorem ternary_iff (h : Derives p ts e) : Derives .ternary ts e' ↔ e' = e := by
  have hternary : Derives .ternary ts e := h.loosen (Nat.zero_le _)
  exact ⟨fun h' => h'.unique hternary, fun heq => heq ▸ hternary⟩

/-- The operators of a chain associate to the left. -/
theorem left_assoc (hp : p.isChain = true) (hop : op.phrase = p) (hop' : op'.phrase = p)
    (hx : Derives p.tighter as x) (hy : Derives p.tighter bs y) (hz : Derives p.tighter cs z) :
    Derives p (as ++ op.token :: (bs ++ op'.token :: cs)) (.binary op' (.binary op x y) z) := by
  subst hop
  have hfirst : Derives op.phrase (as ++ op.token :: bs) (.binary op x y) := snoc hp hx.pass hy
  rw [← hop'] at hp hfirst hz
  simpa [hop'] using snoc hp hfirst hz

/-- Powers associate to the right. -/
theorem right_assoc (hx : Derives .primary as x) (hy : Derives .primary bs y)
    (hz : Derives .unary cs z) :
    Derives .power (as ++ BinaryOp.pow.token :: (bs ++ BinaryOp.pow.token :: cs))
      (.binary .pow x (.binary .pow y z)) :=
  raise hx (unary (raise hy hz))

/-- A sign in front of a power is a sign of the power. -/
theorem sign_power (sign : UnaryOp) (hx : Derives .primary as x) (hy : Derives .unary bs y) :
    Derives .unary (sign.token :: (as ++ BinaryOp.pow.token :: bs))
      (.unary sign (.binary .pow x y)) :=
  .sign (unary (raise hx hy))

/-- A sign in front of a product is a sign of its first operand. -/
theorem sign_product (sign : UnaryOp) (hop : op.phrase = .product) (hx : Derives .unary as x)
    (hy : Derives .unary bs y) :
    Derives .product (sign.token :: (as ++ op.token :: bs)) (.binary op (.unary sign x) y) := by
  have hsign : Derives .product (sign.token :: as) (.unary sign x) := pass (.sign hx)
  rw [← hop] at hsign ⊢
  exact snoc (by rw [hop]; rfl) hsign (by rw [hop]; exact hy)

/-- Comparisons do not stand in a row. -/
theorem not_comparisons (hop : op.phrase = .comparison) (hop' : op'.phrase = .comparison)
    (hx : Derives .sum as x) (hy : Derives .sum bs y) :
    ¬ Derives .ternary (as ++ op.token :: (bs ++ op'.token :: cs)) e := by
  intro h
  obtain ⟨s, hsteps, -⟩ := h.steps_eq [] (Nat.le_refl _)
  have hlevel : op.level = 3 := by rw [← BinaryOp.level_phrase, hop]; rfl
  obtain ⟨sx, hsx, hstandsx⟩ := hx.steps_eq [] (Nat.zero_le _)
  obtain ⟨sy, hsy, hstandsy⟩ := hy.steps_eq [.left x op] (Nat.le_of_eq hlevel)
  have hopen := hstandsx.step_comparison hop (by decide)
  have hrefused := hstandsy.step_second_comparison hop hop'
  simp [hsx, hopen, hsy, hrefused] at hsteps

end Derives

/-- **The reader reads the grammar.** It returns a tree just for the lists of tokens that the
grammar derives, and then that tree; every phrase has one tree at most; the operators of
one chain associate to the left and powers to the right; a sign takes a power
as a whole, and only the first operand of a product; and a comparison is no operand of
another one. -/
theorem ofTokens_reads_grammar :
    (∀ (stop : Nat) (tokens : List Located) (e : Expr),
      ofTokens stop tokens = .ok e ↔ Derives .ternary (tokens.map Located.token) e) ∧
    (∀ (p : Phrase) (ts : List Token) (e e' : Expr), Derives p ts e → Derives p ts e' → e = e') ∧
    (∀ (p : Phrase) (op op' : BinaryOp) (as bs cs : List Token) (x y z e : Expr),
      p.isChain = true → op.phrase = p → op'.phrase = p →
      Derives p.tighter as x → Derives p.tighter bs y → Derives p.tighter cs z →
      (Derives .ternary (as ++ op.token :: (bs ++ op'.token :: cs)) e ↔
        e = .binary op' (.binary op x y) z)) ∧
    (∀ (as bs cs : List Token) (x y z e : Expr),
      Derives .primary as x → Derives .primary bs y → Derives .unary cs z →
      (Derives .ternary (as ++ BinaryOp.pow.token :: (bs ++ BinaryOp.pow.token :: cs)) e ↔
        e = .binary .pow x (.binary .pow y z))) ∧
    (∀ (sign : UnaryOp) (as bs : List Token) (x y e : Expr),
      Derives .primary as x → Derives .unary bs y →
      (Derives .ternary (sign.token :: (as ++ BinaryOp.pow.token :: bs)) e ↔
        e = .unary sign (.binary .pow x y))) ∧
    (∀ (sign : UnaryOp) (op : BinaryOp) (as bs : List Token) (x y e : Expr),
      op.phrase = .product → Derives .unary as x → Derives .unary bs y →
      (Derives .ternary (sign.token :: (as ++ op.token :: bs)) e ↔
        e = .binary op (.unary sign x) y)) ∧
    (∀ (op op' : BinaryOp) (as bs cs : List Token) (x y e : Expr),
      op.phrase = .comparison → op'.phrase = .comparison → Derives .sum as x → Derives .sum bs y →
      ¬ Derives .ternary (as ++ op.token :: (bs ++ op'.token :: cs)) e) := by
  refine ⟨fun _ _ _ => ofTokens_eq_ok, fun _ _ _ _ => Derives.unique, ?_, ?_, ?_, ?_, ?_⟩
  · intro p op op' as bs cs x y z e hp hop hop' hx hy hz
    exact (Derives.left_assoc hp hop hop' hx hy hz).ternary_iff
  · intro as bs cs x y z e hx hy hz
    exact (Derives.right_assoc hx hy hz).ternary_iff
  · intro sign as bs x y e hx hy
    exact (Derives.sign_power sign hx hy).ternary_iff
  · intro sign op as bs x y e hop hx hy
    exact (Derives.sign_product sign hop hx hy).ternary_iff
  · intro op op' as bs cs x y e hop hop' hx hy
    exact Derives.not_comparisons hop hop' hx hy

/-- `a - b - c`, `a ^ b ^ c`, `-a ^ b` and `-a * b` with their trees, and `a < b < c`, which
has none. -/
theorem ofTokens_reads_grammar_names :
    ofTokens 5 [⟨.name "a", 0, 1⟩, ⟨.symbol .minus, 2, 3⟩, ⟨.name "b", 4, 5⟩] =
        .ok (.binary .sub (.var "a") (.var "b")) ∧
    Derives .ternary
        [.name "a", .symbol .minus, .name "b", .symbol .minus, .name "c"]
        (.binary .sub (.binary .sub (.var "a") (.var "b")) (.var "c")) ∧
    ¬ Derives .ternary
        [.name "a", .symbol .minus, .name "b", .symbol .minus, .name "c"]
        (.binary .sub (.var "a") (.binary .sub (.var "b") (.var "c"))) ∧
    Derives .ternary
        [.name "a", .symbol .caret, .name "b", .symbol .caret, .name "c"]
        (.binary .pow (.var "a") (.binary .pow (.var "b") (.var "c"))) ∧
    Derives .ternary [.symbol .minus, .name "a", .symbol .caret, .name "b"]
        (.unary .neg (.binary .pow (.var "a") (.var "b"))) ∧
    Derives .ternary [.symbol .minus, .name "a", .symbol .star, .name "b"]
        (.binary .mul (.unary .neg (.var "a")) (.var "b")) ∧
    ¬ Derives .ternary [.name "a", .symbol .less, .name "b", .symbol .less, .name "c"]
        (.binary .lt (.binary .lt (.var "a") (.var "b")) (.var "c")) := by
  have hvar (p : Phrase) (s : String) : Derives p [.name s] (.var s) :=
    (Derives.var s).loosen (Phrase.level_le_primary p)
  obtain ⟨hreads, hunique, hleft, hright, hpower, hproduct, hrow⟩ := ofTokens_reads_grammar
  have hsub : Derives .sum [.name "a", .symbol .minus, .name "b"]
      (.binary .sub (.var "a") (.var "b")) :=
    @Derives.snoc [.name "a"] [.name "b"] _ _ .sub rfl (hvar _ "a") (hvar _ "b")
  have hleft' := (hleft .sum .sub .sub [_] [_] [_] _ _ _ _ rfl rfl rfl (hvar _ "a") (hvar _ "b")
    (hvar _ "c")).2 rfl
  refine ⟨(hreads 5 _ _).2 (hsub.loosen (by decide)), hleft', fun h => ?_, ?_, ?_, ?_, ?_⟩
  · nomatch hunique .ternary _ _ _ h hleft'
  · exact (hright [_] [_] [_] _ _ _ _ (hvar _ "a") (hvar _ "b") (hvar _ "c")).2 rfl
  · exact (hpower .neg [_] [_] _ _ _ (hvar _ "a") (hvar _ "b")).2 rfl
  · exact (hproduct .neg .mul [_] [_] _ _ _ rfl (hvar _ "a") (hvar _ "b")).2 rfl
  · exact hrow .lt .lt [_] [_] [_] _ _ _ rfl rfl (hvar _ "a") (hvar _ "b")

end ReportQuery.Expr
