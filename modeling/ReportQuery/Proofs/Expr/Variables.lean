import ReportQuery.Expr.Eval
import ReportQuery.Proofs.Expr.Language
import ReportQuery.Proofs.Expr.Printing
/-!
# The variables of an expression

An expression has the value that its variables give it: two scopes in which these have the same
macros, or none, evaluate it alike (`eval_congr`). Parts that are not evaluated and constants
that a macro may hide are no exception. Every variable of the tree of a source is a name among
its tokens (`name_mem_of_mentions`), so what a source depends on can be read off before it is
parsed (`evaluate_congr`).
-/

namespace ReportQuery.Expr

open Outcome

variable {macros others : Macros} {now : Instant} {name : String} {e : Expr} {p q : Phrase}
variable {ts : List Token} {source : List Char}

/-- A name is a variable of an expression. The name of a function is none. -/
inductive Mentions (name : String) : Expr → Prop
  | var : Mentions name (.var name)
  | unary {op : UnaryOp} {e : Expr} : Mentions name e → Mentions name (.unary op e)
  | left {op : BinaryOp} {l r : Expr} : Mentions name l → Mentions name (.binary op l r)
  | right {op : BinaryOp} {l r : Expr} : Mentions name r → Mentions name (.binary op l r)
  | arg {f : String} {args : List Expr} {arg : Expr} : arg ∈ args → Mentions name arg →
      Mentions name (.call f args)
  | cond {c y n : Expr} : Mentions name c → Mentions name (.conditional c y n)
  | yes {c y n : Expr} : Mentions name y → Mentions name (.conditional c y n)
  | no {c y n : Expr} : Mentions name n → Mentions name (.conditional c y n)

/-! ## Evaluation reads variables -/

theorem evalAll_congr {scope scope' : Scope} {args : List Expr}
    (h : ∀ arg ∈ args, eval scope arg = eval scope' arg) :
    evalAll scope args = evalAll scope' args := by
  induction args with
  | nil => rfl
  | cons arg rest ih =>
    rw [evalAll, evalAll, h arg (by simp), ih fun a ha => h a (by simp [ha])]

/-- **An expression reads the macros of its variables**, and no others. -/
theorem eval_congr (h : ∀ name, Mentions name e → macros.find? name = others.find? name) :
    eval ⟨macros, now⟩ e = eval ⟨others, now⟩ e := by
  induction e using Expr.induction with
  | number _ | text _ | bool _ => simp only [eval]
  | var name => simp only [eval, lookup, h name .var]
  | unary op e ih => simp only [eval, ih fun name hname => h name (.unary hname)]
  | binary op l r ihl ihr =>
    have hl := ihl fun name hname => h name (.left hname)
    have hr := ihr fun name hname => h name (.right hname)
    cases op <;> simp only [eval, hl, hr]
  | call f args ih =>
    have hargs : ∀ arg ∈ args, eval ⟨macros, now⟩ arg = eval ⟨others, now⟩ arg :=
      fun arg harg => ih arg harg fun name hname => h name (.arg harg hname)
    simp only [eval, evalAll_congr hargs]
  | conditional c y n ihc ihy ihn =>
    have hc := ihc fun name hname => h name (.cond hname)
    have hy := ihy fun name hname => h name (.yes hname)
    have hn := ihn fun name hname => h name (.no hname)
    simp only [eval, hc, hy, hn]

/-! ## Variables are tokens -/

theorem mem_enclose {t : Token} (h : t ∈ ts) : t ∈ enclose p q ts := by
  rw [enclose]
  split
  · exact h
  · simp [h]

theorem mem_intercalate {sep : List Token} {lists : List (List Token)} {t : Token}
    (hts : ts ∈ lists) (h : t ∈ ts) : t ∈ List.intercalate sep lists := by
  induction lists with
  | nil => cases hts
  | cons first rest ih =>
    cases rest with
    | nil =>
      rw [List.mem_singleton.1 hts] at h
      simpa using h
    | cons second rest =>
      rw [List.intercalate_cons_cons]
      rcases List.mem_cons.1 hts with rfl | hrest
      · simp [h]
      · exact List.mem_append_right _ (ih hrest)

/-- A variable stands among the tokens of the tree. -/
theorem name_mem_bare (h : Mentions name e) : Token.name name ∈ e.bare := by
  induction h with
  | var => simp [bare]
  | unary _ ih => exact List.mem_cons_of_mem _ (mem_enclose ih)
  | left _ ih => exact List.mem_append_left _ (mem_enclose ih)
  | right _ ih => exact List.mem_append_right _ (List.mem_cons_of_mem _ (mem_enclose ih))
  | arg harg _ ih =>
    rw [bare, bareAll_eq]
    refine List.mem_cons_of_mem _ (List.mem_cons_of_mem _ (List.mem_append_left _ ?_))
    exact mem_intercalate (List.mem_map_of_mem harg) ih
  | cond _ ih => exact List.mem_append_left _ (mem_enclose ih)
  | yes _ ih => simp [bare, ih]
  | no _ ih => simp [bare, ih]

/-- **A variable of a tree is a name among the tokens that derive it**, however many
parentheses these have. -/
theorem name_mem_of_mentions (hts : Derives .ternary ts e) (h : Mentions name e) :
    Token.name name ∈ ts := by
  have hprinted := hts.print_sublist
  rw [print_ternary] at hprinted
  exact hprinted.subset (name_mem_bare h)

/-- **A source reads the macros of the names among its tokens**, and no others. -/
theorem evaluate_congr (h : ∀ tokens, Token.scan source = .ok tokens →
      ∀ t ∈ tokens, ∀ name, t.token = .name name → macros.find? name = others.find? name) :
    evaluate ⟨macros, now⟩ source = evaluate ⟨others, now⟩ source := by
  rw [evaluate, evaluate]
  cases hparse : parse source with
  | error offset => rfl
  | ok e =>
    obtain ⟨tokens, hscan, htokens⟩ := bind_eq_ok.1 hparse
    refine eval_congr fun name hname => ?_
    have hmem := name_mem_of_mentions (ofTokens_eq_ok.1 htokens) hname
    obtain ⟨t, ht, htoken⟩ := List.mem_map.1 hmem
    exact h tokens hscan t ht name htoken

end ReportQuery.Expr
