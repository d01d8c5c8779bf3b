import ReportQuery.Expr.Parse
/-!
# The grammar of expressions

The grammar as a relation: which lists of tokens a phrase derives, and with which tree
(`Derives`). It has one rule for each alternative of

```text
ternary := or ('?' ternary ':' ternary)?
or      := and ('or' and)*
and     := cmp ('and' cmp)*
cmp     := add (('==' | '!=' | '<' | '<=' | '>' | '>=') add)?
add     := mul (('+' | '-') mul)*
mul     := unary (('*' | '/' | '%') unary)*
unary   := ('-' | '+' | 'not') unary | pow
pow     := primary ('^' unary)?
primary := number | text | 'true' | 'false' | name | name '(' args ')' | '(' ternary ')'
```

and says nothing of how tokens are read. A repetition is a chain of operands that is put
together from the left. Every phrase is also a looser one (`Derives.loosen`), and a chain
can be made longer at its end (`Derives.snoc`).
-/

namespace ReportQuery

/-- The token of a binary operator. -/
def BinaryOp.token : BinaryOp → Token
  | add => .symbol .plus
  | sub => .symbol .minus
  | mul => .symbol .star
  | div => .symbol .slash
  | mod => .symbol .percent
  | pow => .symbol .caret
  | eq => .symbol .equal
  | ne => .symbol .notEqual
  | lt => .symbol .less
  | le => .symbol .lessEqual
  | gt => .symbol .greater
  | ge => .symbol .greaterEqual
  | and => .and
  | or => .or

theorem BinaryOp.token_ne_parenOpen (op : BinaryOp) : op.token ≠ .symbol .parenOpen := by
  cases op <;> simp [token]

/-- The token of a unary operator. -/
def UnaryOp.token : UnaryOp → Token
  | neg => .symbol .minus
  | plus => .symbol .plus
  | not => .not

namespace Expr

/-- The phrases of the language, from the loosest to the tightest. -/
inductive Phrase where
  | ternary
  | or
  | and
  | comparison
  | sum
  | product
  | unary
  | power
  | primary
deriving DecidableEq

namespace Phrase

/-- The place of a phrase, from the loosest to the tightest. -/
def level : Phrase → Nat
  | ternary => 0
  | or => 1
  | and => 2
  | comparison => 3
  | sum => 4
  | product => 5
  | unary => 6
  | power => 7
  | primary => 8

/-- The next tighter phrase. -/
def tighter : Phrase → Phrase
  | ternary => or
  | or => and
  | and => comparison
  | comparison => sum
  | sum => product
  | product => unary
  | unary => power
  | power | primary => primary

/-- Whether a phrase is a chain of operands of the next tighter phrase. -/
def isChain : Phrase → Bool
  | or | and | sum | product => true
  | _ => false

theorem level_injective {p q : Phrase} (h : p.level = q.level) : p = q := by
  cases p <;> cases q <;> simp_all [level]

theorem level_tighter {p : Phrase} (h : p ≠ primary) : p.tighter.level = p.level + 1 := by
  cases p <;> simp_all [level, tighter]

theorem level_le_primary (p : Phrase) : p.level ≤ primary.level := by
  cases p <;> decide

end Phrase

end Expr

/-- The phrase that an operator stands in. -/
def BinaryOp.phrase : BinaryOp → Expr.Phrase
  | or => .or
  | and => .and
  | eq | ne | lt | le | gt | ge => .comparison
  | add | sub => .sum
  | mul | div | mod => .product
  | pow => .power

/-- An operator binds as tight as its phrase. -/
theorem BinaryOp.level_phrase (op : BinaryOp) : op.phrase.level = op.level := by
  cases op <;> rfl

namespace Expr

/-- A further operand of a chain, with the operator in front of it. -/
structure Link where
  op : BinaryOp
  tokens : List Token
  operand : Expr

/-- The tokens of a link. -/
def Link.text (link : Link) : List Token := link.op.token :: link.tokens

/-- Puts a link behind what stands to its left. -/
def Link.join (left : Expr) (link : Link) : Expr := .binary link.op left link.operand

/-- An argument of a call: its tokens and its tree. -/
abbrev Argument := List Token × Expr

/-- The tokens of the arguments of a call, with commas between them. -/
def Argument.list (args : List Argument) : List Token :=
  List.intercalate [.symbol .comma] (args.map Prod.fst)

/-- **The grammar.** The tokens that a phrase derives, and their tree. -/
inductive Derives : Phrase → List Token → Expr → Prop
  | ternary {ts : List Token} {e : Expr} : Derives .or ts e → Derives .ternary ts e
  | conditional {cs ys ns : List Token} {c y n : Expr} : Derives .or cs c →
      Derives .ternary ys y → Derives .ternary ns n →
      Derives .ternary (cs ++ .symbol .question :: (ys ++ .symbol .colon :: ns))
        (.conditional c y n)
  /-- Disjunctions, conjunctions, sums and products are put together from the left. -/
  | chain {p : Phrase} {ts : List Token} {e : Expr} {links : List Link} : p.isChain = true →
      Derives p.tighter ts e → (∀ link ∈ links, link.op.phrase = p) →
      (∀ link ∈ links, Derives p.tighter link.tokens link.operand) →
      Derives p (ts ++ links.flatMap Link.text) (links.foldl Link.join e)
  | comparison {ts : List Token} {e : Expr} : Derives .sum ts e → Derives .comparison ts e
  /-- Comparisons do not chain. -/
  | compare {op : BinaryOp} {ls rs : List Token} {l r : Expr} : op.phrase = .comparison →
      Derives .sum ls l → Derives .sum rs r →
      Derives .comparison (ls ++ op.token :: rs) (.binary op l r)
  | unary {ts : List Token} {e : Expr} : Derives .power ts e → Derives .unary ts e
  | sign {op : UnaryOp} {ts : List Token} {e : Expr} : Derives .unary ts e →
      Derives .unary (op.token :: ts) (.unary op e)
  | power {ts : List Token} {e : Expr} : Derives .primary ts e → Derives .power ts e
  | raise {bs es : List Token} {b e : Expr} : Derives .primary bs b → Derives .unary es e →
      Derives .power (bs ++ BinaryOp.pow.token :: es) (.binary .pow b e)
  | number (x : Float) : Derives .primary [.number x] (.number x)
  | text (s : String) : Derives .primary [.text s] (.text s)
  | bool (b : Bool) : Derives .primary [.bool b] (.bool b)
  | var (s : String) : Derives .primary [.name s] (.var s)
  | call {f : String} {args : List Argument} : (∀ arg ∈ args, Derives .ternary arg.1 arg.2) →
      Derives .primary
        (.name f :: .symbol .parenOpen :: (Argument.list args ++ [.symbol .parenClose]))
        (.call f (args.map Prod.snd))
  | paren {ts : List Token} {e : Expr} : Derives .ternary ts e →
      Derives .primary (.symbol .parenOpen :: (ts ++ [.symbol .parenClose])) e

namespace Derives

variable {p q : Phrase} {ts ls rs : List Token} {e l r : Expr} {op : BinaryOp}

/-- A phrase is the next looser one too. -/
theorem pass (h : Derives p.tighter ts e) : Derives p ts e := by
  have hchain (hp : p.isChain = true) : Derives p ts e := by
    simpa using @chain p ts e [] hp h (by simp) (by simp)
  cases p with
  | ternary => exact ternary h
  | comparison => exact comparison h
  | unary => exact unary h
  | power => exact power h
  | primary => exact h
  | or | and | sum | product => exact hchain rfl

/-- **A phrase is every looser one too.** -/
theorem loosen (h : Derives p ts e) (hle : q.level ≤ p.level) : Derives q ts e := by
  generalize hn : p.level - q.level = n
  induction n generalizing q with
  | zero =>
    have hpq : q = p := Phrase.level_injective (by omega)
    exact hpq ▸ h
  | succ n ih =>
    have hq : q ≠ .primary := by
      rintro rfl
      have := Phrase.level_le_primary p
      omega
    have hlevel := Phrase.level_tighter hq
    exact pass (ih (by omega) (by omega))

/-- A chain is one operand, and links behind it. -/
theorem exists_chain (hp : p.isChain = true) (h : Derives p ts e) :
    ∃ first x links, ts = first ++ List.flatMap Link.text links ∧ e = links.foldl Link.join x ∧
      Derives p.tighter first x ∧ (∀ link ∈ links, link.op.phrase = p) ∧
      ∀ link ∈ links, Derives p.tighter link.tokens link.operand := by
  cases h with
  | @chain _ first x links _ hfirst hops hlinks =>
    exact ⟨first, x, links, rfl, rfl, hfirst, hops, hlinks⟩
  | _ => cases hp

/-- **A chain goes on at its end**: its operators associate to the left. -/
theorem snoc (hp : op.phrase.isChain = true) (hl : Derives op.phrase ls l)
    (hr : Derives op.phrase.tighter rs r) :
    Derives op.phrase (ls ++ op.token :: rs) (.binary op l r) := by
  obtain ⟨first, x, links, rfl, rfl, hfirst, hops, hlinks⟩ := exists_chain hp hl
  have h := @chain _ _ _ (links ++ [⟨op, rs, r⟩]) hp hfirst
    (by simpa [or_imp, forall_and] using hops) (by simpa [or_imp, forall_and] using ⟨hlinks, hr⟩)
  simpa [Link.text, Link.join] using h

end Derives
end Expr
end ReportQuery
