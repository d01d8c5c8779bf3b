import ReportQuery.Proofs.Expr.Language
import ReportQuery.Proofs.Expr.Longest
import ReportQuery.Proofs.Expr.Printing
/-!
# Printed expressions are read back

A printed expression is laid out as a text: a spelling of each token, with blanks
between words and operators and wherever else they are wanted (`Token.Laid`). The scanner finds
the tokens of such a text (`Token.Laid.scanFrom_eq`), and the grammar reads the tree back from
them. An expression can be printed if its numbers, texts and names can be spelled
(`Expr.Printable`).
-/

namespace ReportQuery

open Text Outcome

variable {text rest gap : List Char} {t : Token} {ts us : List Token} {words : List (List Char)}
variable {e : Expr}

namespace Token

/-! ## Layout -/

/-- A blank follows a word or an operator where another one is next. -/
def Apart (t : Token) (ts : List Token) (rest : List Char) : Prop :=
  t.isDelimiter = false → ∀ next ∈ ts.head?, next.isDelimiter = false →
    ∃ c ∈ rest.head?, isBlank c = true

/-- **The texts of a list of tokens.** Blanks can stand around every token, and stand between
words and operators. -/
inductive Laid : List Token → List Char → Prop
  | nil {gap : List Char} : (∀ c ∈ gap, isBlank c = true) → Laid [] gap
  | cons {gap word rest : List Char} {t : Token} {ts : List Token} :
      (∀ c ∈ gap, isBlank c = true) → Spelling t word → Laid ts rest → Apart t ts rest →
      Laid (t :: ts) (gap ++ (word ++ rest))

namespace Laid

/-- Behind a word or an operator, the text breaks. -/
theorem breaks (h : Laid ts rest) (ht : t.isDelimiter = false) (hapart : Apart t ts rest) :
    Breaks rest := by
  intro c hc
  cases h with
  | nil hgap => exact isBreak_of_isBlank (hgap c (List.mem_of_mem_head? hc))
  | @cons gap word rest next ts hgap hspelling _ _ =>
    cases hnext : next.isDelimiter with
    | false =>
      obtain ⟨d, hd, hblank⟩ := hapart ht next rfl hnext
      obtain rfl : c = d := Option.some.inj (hc.symm.trans hd)
      exact isBreak_of_isBlank hblank
    | true =>
      cases gap with
      | nil =>
        obtain ⟨d, ds, rfl, -, hbreak⟩ := hspelling.exists_cons
        cases hc
        exact hbreak hnext
      | cons d ds =>
        cases hc
        exact isBreak_of_isBlank (hgap c List.mem_cons_self)

end Laid

/-! ## The scanner -/

theorem scanFrom_gap (h : ∀ c ∈ gap, isBlank c = true) (offset : Nat) :
    ∃ offset', scanFrom 0 offset (gap ++ text) = scanFrom 0 offset' text := by
  induction gap generalizing offset with
  | nil => exact ⟨offset, rfl⟩
  | cons c cs ih =>
    rw [List.cons_append, scanFrom, if_pos (h c List.mem_cons_self)]
    exact ih (fun d hd => h d (List.mem_cons_of_mem c hd)) _

/-- **The scanner finds the tokens of a text.** -/
theorem Laid.scanFrom_eq (h : Laid ts text) (offset : Nat) :
    ∃ located, scanFrom 0 offset text = .ok located ∧ located.map Located.token = ts := by
  induction h generalizing offset with
  | @nil gap hgap =>
    obtain ⟨offset', hscan⟩ := @scanFrom_gap [] gap hgap offset
    rw [List.append_nil] at hscan
    exact ⟨[], by rw [hscan, scanFrom], rfl⟩
  | @cons gap word rest t ts hgap hspelling hrest hapart ih =>
    have hfirst : first? (word ++ rest) = some (t, word.length) :=
      hspelling.first?_eq fun ht => hrest.breaks ht hapart
    obtain ⟨c, cs, rfl, hc, -⟩ := hspelling.exists_cons
    -- past the gap, one token, and past its other characters
    obtain ⟨start, hstart⟩ := @scanFrom_gap (c :: cs ++ rest) gap hgap offset
    have hstop := scanFrom_length cs rest (start + c.utf8Size)
    obtain ⟨located, hscan, htokens⟩ := ih (start + c.utf8Size + byteLength cs)
    rw [List.cons_append] at hfirst
    rw [hstart, List.cons_append, scanFrom, if_neg (by simp [hc]), hfirst]
    simp only [List.length_cons, hstop, hscan]
    exact ⟨_, rfl, by rw [List.map_cons, htokens]⟩

/-- Spellings with a blank in front of each are a text. -/
theorem laid_spaced (h : List.Forall₂ Spelling ts words) :
    Laid ts (words.flatMap fun word => ' ' :: word) := by
  induction h with
  | nil => exact .nil (by simp)
  | @cons t word ts words hspelling hrest ih =>
    rw [List.flatMap_cons]
    refine @Laid.cons [' '] _ _ _ _ (by simp [isBlank]) hspelling ih fun _ next hnext _ => ?_
    cases hrest with
    | nil => cases hnext
    | cons => exact ⟨' ', rfl, by decide⟩

/-- Every token of a list has a spelling. -/
def Spellable (ts : List Token) : Prop := ∀ t ∈ ts, ∃ word, Spelling t word

namespace Spellable

theorem append (h : Spellable ts) (h' : Spellable us) : Spellable (ts ++ us) :=
  List.forall_mem_append.2 ⟨h, h'⟩

theorem cons (h : ∃ word, Spelling t word) (h' : Spellable ts) : Spellable (t :: ts) :=
  List.forall_mem_cons.2 ⟨h, h'⟩

theorem nil : Spellable [] := nofun

/-- **A list of tokens with spellings has a text.** -/
theorem exists_laid (h : Spellable ts) : ∃ text, Laid ts text := by
  have hwords : ∃ words, List.Forall₂ Spelling ts words := by
    induction ts with
    | nil => exact ⟨[], .nil⟩
    | cons t ts ih =>
      obtain ⟨⟨word, hword⟩, hts⟩ := List.forall_mem_cons.1 h
      obtain ⟨words, hwords⟩ := ih hts
      exact ⟨word :: words, .cons hword hwords⟩
  obtain ⟨words, hwords⟩ := hwords
  exact ⟨_, laid_spaced hwords⟩

end Spellable

end Token

namespace Expr

/-! ## Expressions that can be printed -/

/-- **Expressions that can be printed**: numbers have a decimal form that reads back to them,
texts have no single quote, and variables and functions have names. -/
inductive Printable : Expr → Prop
  | number {x : Float} {text : List Char} : IsNumeral text → Decimal.readFloat? text = some x →
      Printable (.number x)
  | text {s : String} : '\'' ∉ s.toList → Printable (.text s)
  | bool (b : Bool) : Printable (.bool b)
  | var {name : String} : Token.IsName name → Printable (.var name)
  | unary {e : Expr} (op : UnaryOp) : Printable e → Printable (.unary op e)
  | binary {l r : Expr} (op : BinaryOp) : Printable l → Printable r → Printable (.binary op l r)
  | call {f : String} {args : List Expr} : Token.IsName f → (∀ arg ∈ args, Printable arg) →
      Printable (.call f args)
  | conditional {c y n : Expr} : Printable c → Printable y → Printable n →
      Printable (.conditional c y n)

open Token

theorem exists_spelling_symbol (s : Symbol) : ∃ word, Spelling (.symbol s) word := ⟨_, .symbol s⟩

theorem spellable_enclose {place own : Phrase} (h : Spellable ts) :
    Spellable (enclose place own ts) := by
  rw [enclose]
  split
  · exact h
  · exact .cons (exists_spelling_symbol _) (h.append (.cons (exists_spelling_symbol _) .nil))

theorem spellable_intercalate {all : List (List Token)} (h : ∀ ts ∈ all, Spellable ts) :
    Spellable (List.intercalate [.symbol .comma] all) := by
  induction all with
  | nil => exact .nil
  | cons ts rest ih =>
    obtain ⟨hts, hrest⟩ := List.forall_mem_cons.1 h
    cases rest with
    | nil => simpa using hts
    | cons us rest =>
      rw [List.intercalate_cons_cons]
      exact (hts.append (.cons (exists_spelling_symbol _) .nil)).append (ih hrest)

theorem exists_spelling_unary (op : UnaryOp) : ∃ word, Spelling op.token word := by
  cases op with
  | neg | plus => exact exists_spelling_symbol _
  | not => exact ⟨_, .not⟩

theorem exists_spelling_binary (op : BinaryOp) : ∃ word, Spelling op.token word := by
  cases op with
  | and => exact ⟨_, .and⟩
  | or => exact ⟨_, .or⟩
  | _ => exact exists_spelling_symbol _

/-- **The tokens of an expression that can be printed have spellings.** -/
theorem Printable.spellable (h : Printable e) : Spellable e.bare := by
  induction h with
  | number hnumeral hread => exact .cons ⟨_, .number hnumeral hread⟩ .nil
  | text hquote => exact .cons ⟨_, .text hquote⟩ .nil
  | bool b => exact .cons ⟨_, .bool b⟩ .nil
  | var hname => exact .cons ⟨_, .name hname⟩ .nil
  | unary op _ ih => exact .cons (exists_spelling_unary op) (spellable_enclose ih)
  | binary op _ _ ihl ihr =>
    exact (spellable_enclose ihl).append
      (.cons (exists_spelling_binary op) (spellable_enclose ihr))
  | @call f args hname _ ih =>
    have hargs : ∀ ts ∈ bareAll args, Spellable ts := by
      rw [bareAll_eq, List.forall_mem_map]
      exact ih
    exact .cons ⟨_, .name hname⟩ (.cons (exists_spelling_symbol _)
      ((spellable_intercalate hargs).append (.cons (exists_spelling_symbol _) .nil)))
  | conditional _ _ _ ihc ihy ihn =>
    exact (spellable_enclose ihc).append (.cons (exists_spelling_symbol _)
      (ihy.append (.cons (exists_spelling_symbol _) ihn)))

/-! ## Reading back -/

/-- The tree of a text is what the grammar derives from its tokens. -/
theorem parse_of_laid (h : Laid ts text) : parse text = .ok e ↔ Derives .ternary ts e := by
  obtain ⟨located, hscan, rfl⟩ := h.scanFrom_eq 0
  rw [parse, Token.scan, hscan]
  exact ofTokens_eq_ok

/-- A name by itself is the expression of this name. -/
theorem parse_name {s : String} (h : IsName s) : parse s.toList = .ok (.var s) := by
  have hlaid : Laid [.name s] ([] ++ (s.toList ++ [])) :=
    .cons (List.forall_mem_nil _) (.name h) (.nil (List.forall_mem_nil _)) fun _ next hnext => by
      cases hnext
  rw [List.nil_append, List.append_nil] at hlaid
  exact (parse_of_laid hlaid).2 (derives_print .ternary (.var s))

/-- **Printing and reading back changes nothing.** An expression that can be printed has texts, with
parentheses where the grammar asks for a tighter phrase and with blanks between words and
operators; every such text is read as this very expression; and the grammar has no
tokens for it with fewer parentheses. -/
theorem parse_print (e : Expr) (h : e.Printable) :
    (∃ text, Laid (e.print .ternary) text) ∧
    (∀ text, Laid (e.print .ternary) text → parse text = .ok e) ∧
    ∀ ts, Derives .ternary ts e → (e.print .ternary).Sublist ts := by
  refine ⟨?_, fun text hlaid => (parse_of_laid hlaid).2 (derives_print .ternary e),
    fun ts => Derives.print_sublist⟩
  rw [print_ternary]
  exact h.spellable.exists_laid

/-- The expression `(a < b) == c ? (-x) ^ 2.5 : f('q', true)`. -/
def sample : Expr :=
  .conditional (.binary .eq (.binary .lt (.var "a") (.var "b")) (.var "c"))
    (.binary .pow (.unary .neg (.var "x")) (.number 2.5)) (.call "f" [.text "q", .bool true])

/-- A comparison that is compared and a negative number that is raised need parentheses, the parts
of a conditional and the arguments of a call do not. -/
theorem parse_print_sample :
    sample.Printable ∧
    parse " ( a < b ) == c ? ( - x ) ^ 2.5 : f ( 'q' , true )".toList = .ok sample := by
  have ha : IsName "a" := ⟨.intro (by decide) (List.forall_mem_nil _), by decide⟩
  have hb : IsName "b" := ⟨.intro (by decide) (List.forall_mem_nil _), by decide⟩
  have hc : IsName "c" := ⟨.intro (by decide) (List.forall_mem_nil _), by decide⟩
  have hf : IsName "f" := ⟨.intro (by decide) (List.forall_mem_nil _), by decide⟩
  have hx : IsName "x" := ⟨.intro (by decide) (List.forall_mem_nil _), by decide⟩
  have hnumeral : IsNumeral "2.5".toList :=
    @IsNumeral.intro ['2'] ['.', '5'] [] (by simp [isDigit]) (.some (by decide) (by simp [isDigit]))
      (by decide) .none
  have hread : Decimal.readFloat? "2.5".toList = some 2.5 := by decide +kernel
  have hprintable : sample.Printable :=
    .conditional (.binary .eq (.binary .lt (.var ha) (.var hb)) (.var hc))
      (.binary .pow (.unary .neg (.var hx)) (.number hnumeral hread))
      (.call hf (by simpa using ⟨.text (by decide), .bool true⟩))
  have htokens : List.Forall₂ Spelling (sample.print .ternary)
      (["(", "a", "<", "b", ")", "==", "c", "?", "(", "-", "x", ")", "^", "2.5", ":",
        "f", "(", "'q'", ",", "true", ")"].map String.toList) :=
    .cons (.symbol .parenOpen) <| .cons (.name ha) <| .cons (.symbol .less) <| .cons (.name hb) <|
    .cons (.symbol .parenClose) <| .cons (.symbol .equal) <| .cons (.name hc) <|
    .cons (.symbol .question) <|
    .cons (.symbol .parenOpen) <| .cons (.symbol .minus) <| .cons (.name hx) <|
    .cons (.symbol .parenClose) <| .cons (.symbol .caret) <| .cons (.number hnumeral hread) <|
    .cons (.symbol .colon) <|
    .cons (.name hf) <| .cons (.symbol .parenOpen) <| .cons (.text (by decide)) <|
    .cons (.symbol .comma) <| .cons (.bool true) <| .cons (.symbol .parenClose) .nil
  exact ⟨hprintable, (parse_print sample hprintable).2.1 _ (laid_spaced htokens)⟩

end Expr

end ReportQuery
