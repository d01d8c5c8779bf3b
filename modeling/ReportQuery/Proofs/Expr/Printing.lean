import Mathlib.Data.List.Forall2
import Mathlib.Data.List.Induction
import ReportQuery.Proofs.Expr.Held
/-!
# Printing expressions

The tokens of a tree, with parentheses where the grammar needs them and nowhere else. A tree
has a phrase of its own, that of its outermost operator, and the grammar asks for a phrase at
each place; parentheses stand where the place asks for a tighter one. The grammar reads the
tree back from its tokens (`derives_print`), and these tokens are among those of every other
phrase for the tree, in the same order (`Derives.print_sublist`), so no parentheses can be
left out.
-/

namespace ReportQuery.Expr

variable {p q : Phrase} {ts ls rs : List Token} {e l r : Expr} {op : BinaryOp}

/-- The phrase of an expression without parentheses around it. -/
def phrase : Expr → Phrase
  | number _ | text _ | bool _ | var _ | call _ _ => .primary
  | unary _ _ => .unary
  | binary op _ _ => op.phrase
  | conditional _ _ _ => .ternary

/-- The tokens of an own phrase at a place that asks for `place`. -/
def enclose (place own : Phrase) (ts : List Token) : List Token :=
  if place.level ≤ own.level then ts
  else .symbol .parenOpen :: (ts ++ [.symbol .parenClose])

mutual

/-- The tokens of an expression, without parentheses around it. -/
def bare : Expr → List Token
  | number x => [.number x]
  | text s => [.text s]
  | bool b => [.bool b]
  | var name => [.name name]
  | unary op e => op.token :: enclose .unary e.phrase (bare e)
  | binary op l r =>
    enclose op.leftPhrase l.phrase (bare l) ++
      op.token :: enclose op.rightPhrase r.phrase (bare r)
  | call f args =>
    .name f :: .symbol .parenOpen ::
      (List.intercalate [.symbol .comma] (bareAll args) ++ [.symbol .parenClose])
  | conditional c y n =>
    enclose .or c.phrase (bare c) ++ .symbol .question ::
      (bare y ++ .symbol .colon :: bare n)

/-- The tokens of each of a list of expressions. -/
def bareAll : List Expr → List (List Token)
  | [] => []
  | e :: rest => bare e :: bareAll rest

end

/-- The tokens of an expression at a place that asks for a phrase. -/
def print (place : Phrase) (e : Expr) : List Token := enclose place e.phrase (bare e)

theorem bareAll_eq (args : List Expr) : bareAll args = args.map bare := by
  induction args with
  | nil => rfl
  | cons e rest ih => rw [bareAll, ih, List.map_cons]

/-- Where anything can stand, no parentheses are needed. -/
@[simp] theorem print_ternary (e : Expr) : e.print .ternary = e.bare := by
  rw [print, enclose]
  exact if_pos (Nat.zero_le e.phrase.level)

/-- At a place for its own phrase, an operator stands without parentheses. -/
theorem print_binary (op : BinaryOp) (l r : Expr) : (binary op l r).print op.phrase =
    l.print op.leftPhrase ++ op.token :: r.print op.rightPhrase :=
  if_pos (Nat.le_refl op.phrase.level)

/-! ## The grammar reads what is printed -/

/-- A phrase is derived at every place, in parentheses if need be. -/
theorem Derives.enclose (h : Derives q ts e) (place : Phrase) :
    Derives place (enclose place q ts) e := by
  rw [Expr.enclose]
  split
  · next hle => exact h.loosen hle
  · exact (paren (h.loosen (Nat.zero_le _))).loosen (Phrase.level_le_primary place)

/-- **The grammar reads a tree back from its tokens**, at every place. -/
theorem derives_print (place : Phrase) (e : Expr) : Derives place (e.print place) e := by
  refine Derives.enclose ?_ place
  induction e using Expr.induction with
  | number x => exact .number x
  | text s => exact .text s
  | bool b => exact .bool b
  | var name => exact .var name
  | unary op e ih => exact .sign (ih.enclose _)
  | binary op l r ihl ihr => exact .binary (ihl.enclose _) (ihr.enclose _)
  | call f args ih =>
    have hargs : ∀ arg ∈ args.map fun a => (bare a, a), Derives .ternary arg.1 arg.2 := by
      intro arg harg
      obtain ⟨a, ha, rfl⟩ := List.mem_map.1 harg
      exact (ih a ha).loosen (Nat.zero_le _)
    simpa [bare, bareAll_eq, Argument.list, phrase, Function.comp_def] using Derives.call (f := f) hargs
  | conditional c y n ihc ihy ihn =>
    exact .conditional (ihc.enclose _) (ihy.loosen (Nat.zero_le _)) (ihn.loosen (Nat.zero_le _))

/-! ## No parentheses can be left out -/

/-- A looser place asks for no more tokens. -/
theorem print_sublist_print (h : p.level ≤ q.level) (e : Expr) :
    (e.print p).Sublist (e.print q) := by
  rw [print, print, enclose, enclose]
  split
  · split
    · exact .refl _
    · exact (List.sublist_append_left _ _).cons _
  · next hp => rw [if_neg (by omega)]

theorem intercalate_sublist {sep : List Token} {xs ys : List (List Token)}
    (h : List.Forall₂ List.Sublist xs ys) :
    (List.intercalate sep xs).Sublist (List.intercalate sep ys) := by
  induction h with
  | nil => exact .refl _
  | cons hfirst hrest ih =>
    cases hrest with
    | nil => simpa using hfirst
    | cons => simpa [List.intercalate_cons_cons] using hfirst.append ((List.Sublist.refl _).append ih)

/-- The operators of a chain ask for the chain on their left and for an operand on their
right. -/
theorem print_join (hp : op.phrase.isChain = true) (l r : Expr) :
    (binary op l r).print op.phrase = l.print op.phrase ++ op.token :: r.print op.phrase.tighter := by
  rw [print_binary]
  cases op with
  | add | sub | mul | div | mod | and | or => rfl
  | eq | ne | lt | le | gt | ge | pow => cases hp

/-- A chain needs the parentheses of its operands and no others. -/
theorem print_chain_sublist {links : List Link} (hp : p.isChain = true)
    (hops : ∀ link ∈ links, link.op.phrase = p) (hfirst : (e.print p).Sublist ts)
    (hlinks : ∀ link ∈ links, (link.operand.print p.tighter).Sublist link.tokens) :
    ((links.foldl Link.join e).print p).Sublist (ts ++ links.flatMap Link.text) := by
  -- the last link is the outermost operator
  induction links using List.reverseRecOn with
  | nil => simpa using hfirst
  | append_singleton links link ih =>
    obtain rfl : link.op.phrase = p := hops link (by simp)
    have hbefore := ih (fun m hm => hops m (by simp [hm])) (fun m hm => hlinks m (by simp [hm]))
    have hlast := hlinks link (by simp)
    rw [List.foldl_append, List.flatMap_append, ← List.append_assoc, List.foldl_cons, List.foldl_nil,
      List.flatMap_singleton, Link.join, Link.text, print_join hp]
    exact hbefore.append (hlast.cons_cons _)

/-- **No parentheses can be left out**: the tokens of a tree are among those of every phrase for
it, in the same order. -/
theorem Derives.print_sublist (h : Derives p ts e) : (e.print p).Sublist ts := by
  induction h with
  | ternary _ ih | comparison _ ih | unary _ ih | power _ ih =>
    exact (print_sublist_print (by decide) _).trans ih
  | conditional _ _ _ ihc ihy ihn =>
    rw [print_ternary] at ihy ihn ⊢
    exact ihc.append ((ihy.append (ihn.cons_cons _)).cons_cons _)
  | @chain p _ x _ hp _ hops _ ihfirst ihlinks =>
    have hle : p.level ≤ p.tighter.level := by cases p <;> decide
    exact print_chain_sublist hp hops ((print_sublist_print hle x).trans ihfirst) ihlinks
  | @compare op _ _ l r hop _ _ ihl ihr =>
    rw [← hop, print_binary, BinaryOp.leftPhrase, BinaryOp.rightPhrase, hop]
    exact ihl.append (ihr.cons_cons _)
  | sign _ ih => exact ih.cons_cons _
  | raise _ _ ihb ihe => exact ihb.append (ihe.cons_cons _)
  | number x | text s | bool b | var s => exact .refl _
  | @call f args _ ih =>
    have hargs : List.Forall₂ List.Sublist (bareAll (args.map Prod.snd)) (args.map Prod.fst) := by
      rw [bareAll_eq, List.map_map, List.forall₂_map_left_iff, List.forall₂_map_right_iff,
        List.forall₂_same]
      intro arg harg
      simpa using ih arg harg
    exact (((intercalate_sublist hargs).append (.refl _)).cons_cons _).cons_cons _
  | @paren ts e _ ih =>
    rw [print_ternary] at ih
    rw [print, Expr.enclose]
    split
    · exact (ih.trans (List.sublist_append_left _ _)).cons _
    · exact (ih.append (.refl _)).cons_cons _

end ReportQuery.Expr
