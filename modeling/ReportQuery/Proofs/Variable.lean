import ReportQuery.Proofs.Expr.Spelling
import ReportQuery.Proofs.Text.Piece
import ReportQuery.Settings.Variable
/-!
# References to variables

A path has one cut into segments (`Cut`): references to variables, and all other characters, which
stand for themselves. Putting in the values replaces the references of this cut and fails with the
first variable that is not set. There is one exception: a dollar sign with braces that
hold no name is no reference, but its braces are lost (`expand_references`). So a path is expanded as
its cut says just if it has no such braces.
-/

namespace ReportQuery.Variable

open ReportQuery.Text

/-! ## References -/

/-- What a path is cut into: a character that stands for itself, a reference with the name of its
variable, or a dollar sign with braces that hold no name. -/
inductive Segment where
  | kept (c : Char)
  | reference (source name : List Char)
  | hollow (source : List Char)
deriving DecidableEq

/-- The characters of a segment. -/
def Segment.source : Segment → List Char
  | kept c => [c]
  | reference source _ => source
  | hollow source => source

/-- The name of a segment, if it is a reference. -/
def Segment.name? : Segment → Option String
  | reference _ name => some (String.ofList name)
  | kept _ | hollow _ => none

/-- **The segments that start with a dollar sign, with what follows them.** A name without braces
reaches as far as there are characters of names. A name in braces has any characters but the closing
brace, which can be missing at the end. -/
inductive Marked : Segment → (rest : List Char) → Prop
  | bare {name rest : List Char} (hne : name ≠ []) (hname : ∀ c ∈ name, isNameChar c = true)
    (hrest : ∀ c ∈ rest.head?, isNameChar c = false) :
    Marked (.reference ('$' :: name) name) rest
  | braced {name rest : List Char} (hne : name ≠ []) (hname : '}' ∉ name) :
    Marked (.reference ('$' :: '{' :: (name ++ ['}'])) name) rest
  | unclosed {name : List Char} (hne : name ≠ []) (hname : '}' ∉ name) :
    Marked (.reference ('$' :: '{' :: name) name) []
  | hollow {rest : List Char} : Marked (.hollow ['$', '{', '}']) rest
  | hollowEnd : Marked (.hollow ['$', '{']) []

variable {s t : Segment} {name rest rest' text cs : List Char} {c : Char}
variable {segments segments' : List Segment} {value? : String → Option String}

theorem nameAfter_braces (hname : '}' ∉ name) (hrest : ∀ c ∈ rest.head?, c = '}') :
    nameAfter ('{' :: (name ++ rest)) = name :=
  takeWhile_append_of_head (fun _ hc => decide_eq_true fun heq => hname (heq ▸ hc))
    fun c hc => decide_eq_false (not_not_intro (hrest c hc))

theorem nameAfter_unclosed (hname : '}' ∉ name) : nameAfter ('{' :: name) = name := by
  have hafter : nameAfter ('{' :: (name ++ [])) = name := nameAfter_braces hname fun c hc => by cases hc
  rwa [List.append_nil] at hafter

/-- Without an opening brace, the name is a run of characters of names. -/
theorem nameAfter_of_head (h : ∀ c ∈ text.head?, c ≠ '{') :
    nameAfter text = text.takeWhile isNameChar := by
  rw [nameAfter]
  rintro cs rfl
  exact h '{' rfl rfl

theorem referenceLength_of_head (h : ∀ c ∈ text.head?, c ≠ '{') :
    referenceLength ('$' :: text) =
      if nameAfter text = [] then 0 else (nameAfter text).length + 1 := by
  rw [referenceLength]
  rintro cs rfl
  exact h '{' rfl rfl

/-- What starts with a character of names has no opening brace. -/
theorem ne_brace_of_isNameChar (hne : name ≠ []) (hname : ∀ c ∈ name, isNameChar c = true) :
    ∀ c ∈ (name ++ rest).head?, c ≠ '{' := by
  obtain ⟨c, cs, rfl⟩ := List.exists_cons_of_ne_nil hne
  rintro _ ⟨⟩ rfl
  exact absurd (hname '{' List.mem_cons_self) (by decide)

/-- A run of characters of names is a name as a whole. -/
theorem nameAfter_bare (hne : name ≠ []) (hname : ∀ c ∈ name, isNameChar c = true)
    (hrest : ∀ c ∈ rest.head?, isNameChar c = false) : nameAfter (name ++ rest) = name :=
  (nameAfter_of_head (ne_brace_of_isNameChar hne hname)).trans
    (takeWhile_append_of_head hname hrest)

namespace Marked

theorem source_ne_nil (h : Marked s rest) : s.source ≠ [] := by
  cases h <;> exact List.cons_ne_nil _ _

/-- **The scan takes a marked segment as a whole**, and finds its name. -/
theorem referenceLength_eq (h : Marked s rest) :
    referenceLength (s.source ++ rest) = s.source.length := by
  cases h with
  | @bare name rest hne hname hrest =>
    refine (referenceLength_of_head (ne_brace_of_isNameChar hne hname)).trans ?_
    rw [nameAfter_bare hne hname hrest, if_neg hne]
    rfl
  | @braced name rest hne hname =>
    have hafter : nameAfter ('{' :: (name ++ '}' :: rest)) = name :=
      nameAfter_braces hname fun c hc => (Option.some.inj hc).symm
    simp [Segment.source, referenceLength, hafter]
  | @unclosed name hne hname =>
    simp [Segment.source, referenceLength, nameAfter_unclosed hname]
  | hollow => simp [Segment.source, referenceLength, nameAfter]
  | hollowEnd => rfl

theorem name_source (h : Marked s rest) : Variable.name s.source = s.name?.getD "" := by
  cases h with
  | @bare name rest hne hname hrest =>
    have hafter : nameAfter (name ++ []) = name := nameAfter_bare hne hname fun c hc => by cases hc
    rw [List.append_nil] at hafter
    exact congrArg String.ofList hafter
  | @braced name rest hne hname =>
    have hafter : nameAfter ('{' :: (name ++ ['}'])) = name :=
      nameAfter_braces hname fun c hc => (Option.some.inj hc).symm
    exact congrArg String.ofList hafter
  | unclosed hne hname => exact congrArg String.ofList (nameAfter_unclosed hname)
  | hollow | hollowEnd => rfl

theorem name_ne_nil {source : List Char} (h : Marked (.reference source name) rest) : name ≠ [] := by
  cases h with
  | bare hne _ _ | braced hne _ | unclosed hne _ => exact hne

/-- A marked segment is known by its characters. -/
theorem eq_of_source (h : Marked s rest) (h' : Marked t rest') (heq : s.source = t.source) : s = t := by
  have hname : s.name?.getD "" = t.name?.getD "" := by rw [← h.name_source, ← h'.name_source, heq]
  cases s with
  | kept c => cases h
  | reference source name =>
    cases t with
    | kept c => cases h'
    | reference source' name' =>
      have hsame : name = name' := String.ofList_injective hname
      rw [hsame, show source = source' from heq]
    | hollow source' =>
      have hnil : name = [] := String.ofList_injective hname
      exact absurd hnil h.name_ne_nil
  | hollow source =>
    cases t with
    | kept c => cases h'
    | reference source' name' =>
      have hnil : [] = name' := String.ofList_injective hname
      exact absurd hnil.symm h'.name_ne_nil
    | hollow source' => exact congrArg Segment.hollow heq

/-- **A text starts with one marked segment at most.** -/
theorem unique (h : Marked s rest) (h' : Marked t rest') (heq : s.source ++ rest = t.source ++ rest') :
    s = t ∧ rest = rest' := by
  have hlength : s.source.length = t.source.length := by
    rw [← h.referenceLength_eq, ← h'.referenceLength_eq, heq]
  obtain ⟨hsource, hrest⟩ := List.append_inj heq hlength
  exact ⟨h.eq_of_source h' hsource, hrest⟩

end Marked

/-- **Where the scan takes something, a marked segment starts.** -/
theorem exists_marked (h : 0 < referenceLength text) :
    ∃ s rest, text = Segment.source s ++ rest ∧ Marked s rest := by
  unfold referenceLength at h
  split at h
  · next tail =>
    have hsplit : (tail.takeWhile fun c => c ≠ '}') ++ tail.dropWhile (fun c => c ≠ '}') = tail :=
      List.takeWhile_append_dropWhile
    have hstop := List.head?_dropWhile_not (fun c : Char => decide (c ≠ '}')) tail
    have hname : '}' ∉ tail.takeWhile fun c => c ≠ '}' := fun hmem => by
      simpa using List.mem_takeWhile_imp hmem
    generalize tail.takeWhile (fun c => decide (c ≠ '}')) = name at hsplit hname
    cases hdrop : tail.dropWhile fun c => c ≠ '}' with
    | nil =>
      rw [hdrop, List.append_nil] at hsplit
      subst hsplit
      by_cases hne : name = []
      · subst hne
        exact ⟨_, [], rfl, .hollowEnd⟩
      · exact ⟨_, [], (List.append_nil _).symm, .unclosed hne hname⟩
    | cons c rest =>
      rw [hdrop] at hsplit hstop
      obtain rfl : c = '}' := by simpa using hstop
      subst hsplit
      by_cases hne : name = []
      · subst hne
        exact ⟨_, rest, rfl, .hollow⟩
      · exact ⟨_, rest, by simp [Segment.source], .braced hne hname⟩
  · next tail hbrace =>
    split at h
    · cases h
    · next hne =>
      have hafter : nameAfter tail = tail.takeWhile isNameChar :=
        nameAfter_of_head fun c hc heq => by
          subst heq
          obtain ⟨cs, rfl⟩ := List.head?_eq_some_iff.1 hc
          exact hbrace cs rfl
      rw [hafter] at hne
      refine ⟨_, tail.dropWhile isNameChar, ?_,
        .bare hne (fun c hc => List.mem_takeWhile_imp hc) fun c hc => ?_⟩
      · simp [Segment.source, List.takeWhile_append_dropWhile]
      · have hstop := List.head?_dropWhile_not isNameChar tail
        rw [hc] at hstop
        simpa using hstop
  · cases h

/-! ## The cut of a path -/

/-- **The cut of a path from left to right.** A marked segment is taken where one starts, and else
the first character stands for itself. What follows is cut in the same way. -/
inductive Cut : List Char → List Segment → Prop
  | nil : Cut [] []
  | kept {c : Char} {cs : List Char} {segments : List Segment}
    (hno : ∀ s rest, c :: cs = Segment.source s ++ rest → ¬ Marked s rest) (hcut : Cut cs segments) :
    Cut (c :: cs) (.kept c :: segments)
  | marked {s : Segment} {rest text : List Char} {segments : List Segment}
    (htext : text = s.source ++ rest) (hs : Marked s rest) (hcut : Cut rest segments) :
    Cut text (s :: segments)

/-- What a segment stands for: a reference for the value of its variable, all else for itself. -/
def Segment.filled (value? : String → Option String) : Segment → List Char
  | reference _ name => ((value? (String.ofList name)).getD "").toList
  | s => s.source

/-- What a segment becomes. The braces around no name are lost. -/
def Segment.written (value? : String → Option String) : Segment → List Char
  | hollow _ => ['$']
  | s => s.filled value?

/-- Without references, all stands for itself. -/
theorem flatMap_filled_of_names (h : segments.filterMap Segment.name? = []) :
    segments.flatMap (Segment.filled value?) = segments.flatMap Segment.source := by
  rw [List.filterMap_eq_nil_iff] at h
  rw [List.flatMap_def, List.flatMap_def]
  refine congrArg List.flatten (List.map_congr_left fun s hs => ?_)
  cases s with
  | kept _ | hollow _ => rfl
  | reference source name => cases h _ hs

theorem referenceLength_le (text : List Char) : referenceLength text ≤ text.length := by
  rcases Nat.eq_zero_or_pos (referenceLength text) with hzero | hpos
  · omega
  · obtain ⟨s, rest, rfl, hs⟩ := exists_marked hpos
    rw [hs.referenceLength_eq, List.length_append]
    omega

/-- No marked segment starts where the scan takes nothing. -/
theorem referenceLength_eq_zero_iff :
    referenceLength text = 0 ↔ ∀ s rest, text = Segment.source s ++ rest → ¬ Marked s rest := by
  constructor
  · rintro hzero s rest rfl hs
    rw [hs.referenceLength_eq] at hzero
    exact hs.source_ne_nil (List.length_eq_zero_iff.1 hzero)
  · intro h
    rcases Nat.eq_zero_or_pos (referenceLength text) with hzero | hpos
    · exact hzero
    · obtain ⟨s, rest, htext, hs⟩ := exists_marked hpos
      exact absurd hs (h s rest htext)

theorem parts_marked (h : Marked s rest) :
    parts references (s.source ++ rest) = .piece s.source :: parts references rest :=
  parts_piece h.source_ne_nil h.referenceLength_eq

namespace Cut

theorem exists_cut (text : List Char) : ∃ segments, Cut text segments := by
  induction text using parts_induction referenceLength_le with
  | nil => exact ⟨[], .nil⟩
  | kept c cs hzero ih =>
    obtain ⟨segments, hcut⟩ := ih
    exact ⟨_, .kept (referenceLength_eq_zero_iff.1 hzero) hcut⟩
  | piece p text hp hlength ih =>
    obtain ⟨segments, hcut⟩ := ih
    obtain ⟨s, rest, heq, hs⟩ := exists_marked (hlength ▸ List.length_pos_iff.2 hp)
    have hsource : p.length = s.source.length := by
      rw [← hlength, heq, hs.referenceLength_eq]
    obtain ⟨rfl, rfl⟩ := List.append_inj heq hsource
    exact ⟨_, .marked rfl hs hcut⟩

theorem unique (h : Cut text segments) (h' : Cut text segments') : segments = segments' := by
  induction h generalizing segments' with
  | nil =>
    cases h' with
    | nil => rfl
    | marked htext hs _ => exact absurd (List.append_eq_nil_iff.1 htext.symm).1 hs.source_ne_nil
  | kept hno _ ih =>
    cases h' with
    | kept _ h' => rw [ih h']
    | marked htext hs _ => exact absurd hs (hno _ _ htext)
  | marked htext hs _ ih =>
    cases h' with
    | nil => exact absurd (List.append_eq_nil_iff.1 htext.symm).1 hs.source_ne_nil
    | kept hno _ => exact absurd hs (hno _ _ htext)
    | marked htext' hs' h' =>
      obtain ⟨rfl, rfl⟩ := hs.unique hs' (htext.symm.trans htext')
      rw [ih h']

/-- Nothing is lost in a cut. -/
theorem flatMap_source (h : Cut text segments) : segments.flatMap Segment.source = text := by
  induction h with
  | nil => rfl
  | kept _ _ ih => rw [List.flatMap_cons, ih, Segment.source, List.singleton_append]
  | marked htext _ _ ih => rw [List.flatMap_cons, ih, htext]

/-- **The first variable that is not set stops the expansion**, and without one every segment is
written. -/
theorem expandParts_eq (h : Cut text segments) : expandParts value? (parts references text) =
    match (segments.filterMap Segment.name?).find? fun n => (value? n).isNone with
    | some n => .error (.unsetVariable n)
    | none => .ok (segments.flatMap (Segment.written value?)) := by
  induction h with
  | nil => rfl
  | @kept c cs segments hno _ ih =>
    have hparts : parts references (c :: cs) = .kept c :: parts references cs :=
      parts_kept (referenceLength_eq_zero_iff.2 hno)
    rw [hparts, expandParts, ih, List.filterMap_cons_none rfl]
    split <;> rfl
  | @marked s rest text segments htext hs _ ih =>
    rw [htext, parts_marked hs, expandParts]
    cases s with
    | kept c => cases hs
    | reference source name =>
      have hname : Variable.name source = String.ofList name := hs.name_source
      have hne : String.ofList name ≠ "" := fun heq => hs.name_ne_nil (String.ofList_injective heq)
      have hnames : (Segment.reference source name :: segments).filterMap Segment.name? =
          String.ofList name :: segments.filterMap Segment.name? := rfl
      rw [Segment.source, hname, if_neg hne, hnames, List.find?_cons]
      cases hvalue : value? (String.ofList name) with
      | none => rfl
      | some value =>
        have hwritten : (Segment.reference source name).written value? = value.toList := by
          rw [Segment.written, Segment.filled, hvalue, Option.getD_some]
          rintro _ ⟨⟩
        rw [Option.isNone_some, List.flatMap_cons, hwritten]
        cases hfirst : (segments.filterMap Segment.name?).find? fun n => (value? n).isNone with
        | none | some n =>
          simp only [hfirst] at ih ⊢
          rw [ih]
          rfl
    | hollow source =>
      have hname : Variable.name source = "" := hs.name_source
      have hnames : (Segment.hollow source :: segments).filterMap Segment.name? =
          segments.filterMap Segment.name? := rfl
      rw [Segment.source, if_pos hname, hnames, ih]
      split <;> rfl

/-! ## Braces that are lost -/

/-- Nothing is longer for being written. -/
theorem length_written_le (h : Cut text segments) :
    (segments.flatMap (Segment.written value?)).length ≤
      (segments.flatMap (Segment.filled value?)).length := by
  induction h with
  | nil => exact Nat.le_refl _
  | kept _ _ ih => exact Nat.succ_le_succ ih
  | marked _ hs _ ih =>
    rw [List.flatMap_cons, List.flatMap_cons, List.length_append, List.length_append]
    refine Nat.add_le_add ?_ ih
    cases hs with
    | bare _ _ _ | braced _ _ | unclosed _ _ => exact Nat.le_refl _
    | hollow | hollowEnd => exact Nat.le_add_left _ _

/-- **What is written is what stands there just if there are no braces without a name.** -/
theorem written_eq_filled_iff (value? : String → Option String) (h : Cut text segments) :
    segments.flatMap (Segment.written value?) = segments.flatMap (Segment.filled value?) ↔
      ∀ source, .hollow source ∉ segments := by
  induction h with
  | nil => simp
  | @kept c cs segments _ _ ih =>
    have hcons : (Segment.kept c).written value? = (Segment.kept c).filled value? := rfl
    rw [List.flatMap_cons, List.flatMap_cons, hcons, List.append_right_inj, ih]
    simp
  | @marked s rest text segments _ hs hcut ih =>
    have hlength : (segments.flatMap (Segment.written value?)).length ≤
        (segments.flatMap (Segment.filled value?)).length := hcut.length_written_le
    rw [List.flatMap_cons, List.flatMap_cons]
    cases s with
    | kept c => cases hs
    | reference source name =>
      have hcons : (Segment.reference source name).written value? =
          (Segment.reference source name).filled value? := rfl
      rw [hcons, List.append_right_inj, ih]
      simp
    | hollow source =>
      -- the braces are missed in the length
      refine iff_of_false (fun heq => ?_) fun hno => hno source List.mem_cons_self
      have hsame := congrArg List.length heq
      have htwo : 2 ≤ source.length := by
        cases hs with
        | hollow | hollowEnd => decide
      have hone : ((Segment.hollow source).written value?).length = 1 := rfl
      have hself : ((Segment.hollow source).filled value?).length = source.length := rfl
      rw [List.length_append, List.length_append, hone, hself] at hsame
      omega

end Cut

/-! ## Expanding a path -/

/-- **Expanding a path.** The path has one cut into references, characters that stand for themselves,
and dollar signs with braces that hold no name; put together again, the segments are the path. If a
variable is not set, the path fails with the first such one. If all are set, every reference
becomes the value of its variable as it is, and all else stays, but for the braces that hold no name:
they are lost. So the path is expanded as its cut says if and only if it has no such braces;
in particular, a path without references stays as it is if and only if it has none. -/
theorem expand_references (value? : String → Option String) (path : String) :
    ∃ segments, (∀ other, Cut path.toList other ↔ other = segments) ∧
      segments.flatMap Segment.source = path.toList ∧
      (∀ n, (segments.filterMap Segment.name?).find? (fun n => (value? n).isNone) = some n →
        expand value? path = .error (.unsetVariable n)) ∧
      ((∀ n ∈ segments.filterMap Segment.name?, (value? n).isSome) →
        expand value? path = .ok (String.ofList (segments.flatMap (Segment.written value?))) ∧
        (expand value? path = .ok (String.ofList (segments.flatMap (Segment.filled value?))) ↔
          ∀ source, .hollow source ∉ segments)) ∧
      (segments.filterMap Segment.name? = [] →
        (expand value? path = .ok path ↔ ∀ source, .hollow source ∉ segments)) := by
  obtain ⟨segments, hcut⟩ := Cut.exists_cut path.toList
  have hset (h : ∀ n ∈ segments.filterMap Segment.name?, (value? n).isSome) :
      expand value? path = .ok (String.ofList (segments.flatMap (Segment.written value?))) := by
    have hnone : (segments.filterMap Segment.name?).find? (fun n => (value? n).isNone) = none :=
      List.find?_eq_none.2 fun n hn => by simp [Option.isSome_iff_ne_none.1 (h n hn)]
    rw [expand, hcut.expandParts_eq, hnone]
    rfl
  refine ⟨segments, fun other => ⟨fun h => h.unique hcut, fun h => h ▸ hcut⟩, hcut.flatMap_source,
    fun n hn => ?_, fun h => ⟨hset h, ?_⟩, fun h => ?_⟩
  · rw [expand, hcut.expandParts_eq, hn]
    rfl
  · rw [hset h, Except.ok.injEq, String.ofList_inj]
    exact hcut.written_eq_filled_iff value?
  · have hself : path = String.ofList (segments.flatMap (Segment.filled value?)) := by
      rw [flatMap_filled_of_names h, hcut.flatMap_source, String.ofList_toList]
    rw [hset (h ▸ List.forall_mem_nil _), Except.ok.injEq, ← hcut.written_eq_filled_iff value?,
      ← String.ofList_inj, ← hself]

/-- A value is not read for references again, and a dollar sign without a name stays, and so do braces
without a dollar sign. -/
example : expand (fun n => if n = "A" then some "$A" else none) "$A.\x7bA\x7d$$\x7bA\x7d$" =
    .ok "$A.\x7bA\x7d$$A$" := by decide +kernel

/-- Without a reference, braces that hold no name are lost all the same, closed or not. -/
theorem expand_loses_braces :
    (∀ segments, Cut "$\x7b\x7d".toList segments → segments.filterMap Segment.name? = []) ∧
      expand (fun _ => none) "$\x7b\x7d" = .ok "$" ∧
      (∀ segments, Cut "a$\x7b".toList segments → segments.filterMap Segment.name? = []) ∧
      expand (fun _ => none) "a$\x7b" = .ok "a$" := by
  have hclosed : Cut "$\x7b\x7d".toList [.hollow ['$', '{', '}']] := .marked rfl .hollow .nil
  have hopen : Cut "a$\x7b".toList [.kept 'a', .hollow ['$', '{']] :=
    .kept (referenceLength_eq_zero_iff.1 rfl) (.marked rfl .hollowEnd .nil)
  refine ⟨fun segments h => ?_, by decide +kernel, fun segments h => ?_, by decide +kernel⟩
  · rw [h.unique hclosed]
    rfl
  · rw [h.unique hopen]
    rfl

end ReportQuery.Variable
