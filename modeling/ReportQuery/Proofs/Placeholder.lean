import Mathlib.Data.List.Induction
import ReportQuery.Placeholder
import ReportQuery.Proofs.Text.Piece
/-!
# Where placeholders stand

A placeholder starts at a brace that a name and a closing brace follow (`Starts`). A scan
from the left takes one of a name just where every brace that was opened before it has been
closed (`Stands`, `mem_parts_iff`): a brace that is still open takes the name with it.

The scan itself is a relation between a text and the segments it is cut into (`Cut`). Every text has
one cut and no other, and the pieces of a pass are its placeholders (`Cut.partsFrom_eq`).
-/

namespace ReportQuery.Text

theorem mem_distinct {name : String} (names : List String) :
    name ∈ distinct names ↔ name ∈ names := by
  have hfold (seen : List String) :
      name ∈ names.foldl (fun seen name => if name ∈ seen then seen else seen ++ [name]) seen ↔
        name ∈ seen ∨ name ∈ names := by
    induction names generalizing seen with
    | nil => simp
    | cons first names ih =>
      rw [List.foldl_cons, ih]
      split
      · next hmem => grind
      · grind
  rw [distinct, hfold]
  simp

/-- Each name of a list once, in the order of first occurrence. -/
structure FirstOccurrences (names all : List String) : Prop where
  nodup : names.Nodup
  mem_iff : ∀ name, name ∈ names ↔ name ∈ all
  order : names.Pairwise fun name name' => all.idxOf name < all.idxOf name'

theorem distinct_concat (names : List String) (name : String) :
    distinct (names ++ [name]) = if name ∈ names then distinct names else distinct names ++ [name] := by
  have hfold : distinct (names ++ [name]) =
      if name ∈ distinct names then distinct names else distinct names ++ [name] := by
    rw [distinct, List.foldl_append]
    rfl
  simp only [hfold, mem_distinct]

theorem firstOccurrences_distinct (names : List String) : FirstOccurrences (distinct names) names := by
  induction names using List.reverseRecOn with
  | nil => exact ⟨List.nodup_nil, fun _ => Iff.rfl, .nil⟩
  | append_singleton names name ih =>
    refine ⟨?_, fun n => mem_distinct _, ?_⟩
    · rw [distinct_concat]
      split
      · exact ih.nodup
      · next hname =>
        refine List.nodup_append.2 ⟨ih.nodup, by simp, fun n hn n' hn' heq => hname ?_⟩
        rwa [← List.mem_singleton.1 hn', ← heq, ← mem_distinct]
    · -- the names that stand before the new one keep their places
      have hplace {n : String} (hn : n ∈ distinct names) :
          (names ++ [name]).idxOf n = names.idxOf n :=
        List.idxOf_append_of_mem ((mem_distinct names).1 hn)
      have horder : (distinct names).Pairwise fun n n' =>
          (names ++ [name]).idxOf n < (names ++ [name]).idxOf n' := by
        refine ih.order.imp_of_mem fun hn hn' hlt => ?_
        rwa [hplace hn, hplace hn']
      rw [distinct_concat]
      split
      · exact horder
      · next hname =>
        refine List.pairwise_append.2 ⟨horder, List.pairwise_singleton _ _, fun n hn n' hn' => ?_⟩
        rw [List.mem_singleton.1 hn', hplace hn, List.idxOf_append_of_notMem hname]
        have hlt := List.idxOf_lt_length_of_mem ((mem_distinct names).1 hn)
        omega

end ReportQuery.Text

namespace ReportQuery.Placeholder

open ReportQuery.Text

variable {name name' rest rest' text before p cs : List Char} {c : Char}

/-- The text starts with the placeholder of a name, and goes on with `rest`. -/
structure Starts (name rest text : List Char) : Prop where
  text_eq : text = '{' :: (name ++ '}' :: rest)
  name_ne_nil : name ≠ []
  not_mem : '}' ∉ name

theorem takeWhile_name (h : '}' ∉ name) :
    (name ++ '}' :: rest).takeWhile (fun c => c ≠ '}') = name := by
  have hkeep : ∀ c ∈ name, decide (c ≠ '}') = true := by
    intro c hc
    exact decide_eq_true fun heq => h (heq ▸ hc)
  rw [List.takeWhile_append_of_pos hkeep]
  simp

theorem length_of_starts (h : Starts name rest text) : length text = name.length + 2 := by
  rw [h.text_eq, length, takeWhile_name h.not_mem, if_pos ⟨h.name_ne_nil, by simp⟩]

theorem exists_starts (h : 0 < length text) : ∃ name rest, Starts name rest text := by
  unfold length at h
  split at h
  · next tail =>
    dsimp only at h
    split at h
    · next hname =>
      obtain ⟨hne, hlt⟩ := hname
      have hsplit := List.takeWhile_append_dropWhile (p := fun c : Char => c ≠ '}') (l := tail)
      have hstop := List.head?_dropWhile_not (fun c : Char => decide (c ≠ '}')) tail
      cases hdrop : tail.dropWhile fun c => c ≠ '}' with
      | nil =>
        rw [hdrop, List.append_nil] at hsplit
        rw [hsplit] at hlt
        exact absurd hlt (Nat.lt_irrefl _)
      | cons c rest =>
        rw [hdrop] at hsplit hstop
        obtain rfl : c = '}' := by simpa using hstop
        refine ⟨_, rest, by rw [hsplit], hne, fun hmem => ?_⟩
        simpa using List.mem_takeWhile_imp hmem
    · cases h
  · cases h

/-- No placeholder starts where the scan finds none. -/
theorem length_eq_zero_iff : length text = 0 ↔ ∀ name rest, ¬ Starts name rest text := by
  constructor
  · intro h name rest hstarts
    have hlength := length_of_starts hstarts
    omega
  · intro h
    rcases Nat.eq_zero_or_pos (length text) with hzero | hpos
    · exact hzero
    · obtain ⟨name, rest, hstarts⟩ := exists_starts hpos
      exact absurd hstarts (h name rest)

/-- A text starts with one placeholder at most. -/
theorem Starts.unique (h : Starts name rest text) (h' : Starts name' rest' text) :
    name = name' ∧ rest = rest' := by
  have heq : name ++ '}' :: rest = name' ++ '}' :: rest' :=
    (List.cons.inj (h.text_eq.symm.trans h'.text_eq)).2
  have hname : name = name' := by
    have htake := congrArg (List.takeWhile fun c => c ≠ '}') heq
    rwa [takeWhile_name h.not_mem, takeWhile_name h'.not_mem] at htake
  subst hname
  exact ⟨rfl, (List.cons.inj (List.append_cancel_left heq)).2⟩

theorem length_le (text : List Char) : length text ≤ text.length := by
  rcases Nat.eq_zero_or_pos (length text) with hzero | hpos
  · omega
  · obtain ⟨name, rest, hstarts⟩ := exists_starts hpos
    rw [length_of_starts hstarts, hstarts.text_eq]
    simp

/-- What is taken at the start of a text is a name in braces. -/
theorem exists_name_of_length (hp : p ≠ []) (h : length (p ++ text) = p.length) :
    ∃ name, p = '{' :: (name ++ ['}']) ∧ name ≠ [] ∧ '}' ∉ name := by
  have hpos : 0 < length (p ++ text) := by
    rw [h]
    exact List.length_pos_iff.2 hp
  obtain ⟨name, rest, hstarts⟩ := exists_starts hpos
  have hlength : p.length = ('{' :: (name ++ ['}'])).length := by
    rw [← h, length_of_starts hstarts]
    simp
  have heq : p ++ text = '{' :: (name ++ ['}']) ++ rest := by
    rw [hstarts.text_eq]
    simp
  exact ⟨name, (List.append_inj heq hlength).1, hstarts.name_ne_nil, hstarts.not_mem⟩

@[simp] theorem name_braces : Placeholder.name ('{' :: (name ++ ['}'])) = String.ofList name := by
  simp [Placeholder.name]

/-! ## The scan of a text -/

/-- **A text is kept characters and placeholders**, one after the other. -/
theorem scan_induction {P : List Char → Prop} (nil : P [])
    (kept : ∀ c cs, (∀ name rest, ¬ Starts name rest (c :: cs)) → P cs → P (c :: cs))
    (placeholder : ∀ name rest, name ≠ [] → '}' ∉ name → P rest → P ('{' :: (name ++ '}' :: rest)))
    (text : List Char) : P text := by
  induction text using parts_induction length_le with
  | nil => exact nil
  | kept c cs hzero ih => exact kept c cs (length_eq_zero_iff.1 hzero) ih
  | piece p t hp hlength ih =>
    obtain ⟨name, rfl, hne, hmem⟩ := exists_name_of_length hp hlength
    have h := placeholder name t hne hmem ih
    simpa using h

theorem parts_kept (h : ∀ name rest, ¬ Starts name rest (c :: cs)) :
    parts anywhere (c :: cs) = .kept c :: parts anywhere cs :=
  Text.parts_kept (length_eq_zero_iff.2 h)

theorem parts_starts (hne : name ≠ []) (hmem : '}' ∉ name) :
    parts anywhere ('{' :: (name ++ '}' :: rest)) =
      .piece ('{' :: (name ++ ['}'])) :: parts anywhere rest := by
  have hstarts : Starts name rest ('{' :: (name ++ ['}']) ++ rest) := ⟨by simp, hne, hmem⟩
  have hlength : length ('{' :: (name ++ ['}']) ++ rest) = ('{' :: (name ++ ['}'])).length := by
    rw [length_of_starts hstarts]
    simp
  have h := parts_piece (List.cons_ne_nil _ _) hlength
  rw [List.cons_append, List.append_assoc, List.singleton_append] at h
  exact h

/-! ## The names of a text -/

/-- The names of the placeholders of a text, one for each, from left to right. -/
def names (shape : Shape) (text : List Char) : List String :=
  (parts shape text).filterMap fun
    | .kept _ => none
    | .piece p => some (Placeholder.name p)

theorem mem_names {shape : Shape} {n : String} :
    n ∈ names shape text ↔ ∃ p, Part.piece p ∈ parts shape text ∧ Placeholder.name p = n := by
  rw [names, List.mem_filterMap]
  constructor
  · rintro ⟨part, hpart, hname⟩
    cases part with
    | kept c => cases hname
    | piece p => exact ⟨p, hpart, Option.some.inj hname⟩
  · rintro ⟨p, hp, rfl⟩
    exact ⟨.piece p, hp, rfl⟩

/-- The unknown names are those of the text without a value, each once. -/
theorem unknown_eq (shape : Shape) (known : String → Bool) (text : List Char) :
    unknown shape known text = distinct ((names shape text).filter fun n => !known n) := by
  rw [unknown, names, List.filter_filterMap]
  refine congrArg _ (List.filterMap_congr fun part _ => ?_)
  cases part with
  | kept c => rfl
  | piece p => cases hknown : known (Placeholder.name p) <;> simp [hknown, Option.filter_some]

theorem names_kept (h : ∀ name rest, ¬ Starts name rest (c :: cs)) :
    names anywhere (c :: cs) = names anywhere cs := by
  rw [names, parts_kept h, List.filterMap_cons_none rfl, names]

theorem names_starts (hne : name ≠ []) (hmem : '}' ∉ name) :
    names anywhere ('{' :: (name ++ '}' :: rest)) = String.ofList name :: names anywhere rest := by
  rw [names, parts_starts hne hmem, names]
  simp only [List.filterMap_cons, name_braces]

/-- A text without opening braces has no placeholder, and takes no part in one. -/
theorem names_append (h : '{' ∉ before) : names anywhere (before ++ text) = names anywhere text := by
  induction before with
  | nil => rfl
  | cons c before ih =>
    obtain ⟨hc, hbefore⟩ := List.ne_and_not_mem_of_not_mem_cons h
    have hno : ∀ name rest, ¬ Starts name rest (c :: (before ++ text)) := by
      intro name rest hstarts
      exact hc (List.cons.inj hstarts.text_eq).1.symm
    rw [List.cons_append, names_kept hno, ih hbefore]

/-! ## Where a placeholder stands -/

/-- A brace. -/
def isBrace (c : Char) : Bool := c = '{' || c = '}'

/-- The last brace is no opening one. -/
def Closed (text : List Char) : Prop := (text.filter isBrace).getLast? ≠ some '{'

theorem closed_nil : Closed [] := by simp [Closed]

theorem Closed.append (h : Closed text) : Closed (before ++ '}' :: text) := by
  have hclose : isBrace '}' = true := by decide
  unfold Closed at h ⊢
  rw [List.filter_append, List.filter_cons_of_pos hclose, List.getLast?_append, List.getLast?_cons]
  cases hlast : (text.filter isBrace).getLast? with
  | none => simp
  | some c => simpa [hlast] using h

theorem Closed.of_cons (h : Closed (c :: text)) : Closed text := by
  unfold Closed at h ⊢
  rw [List.filter_cons] at h
  split at h
  · rw [List.getLast?_cons] at h
    cases hlast : (text.filter isBrace).getLast? with
    | none => simp
    | some d => simpa [hlast] using h
  · exact h

theorem Closed.of_append (h : Closed (before ++ text)) : Closed text := by
  induction before with
  | nil => exact h
  | cons c before ih => exact ih h.of_cons

/-- An opening brace is not the last one where a text is closed. -/
theorem Closed.mem_of_open (h : Closed ('{' :: text)) : '}' ∈ text := by
  have hopen : isBrace '{' = true := by decide
  rw [Closed, List.filter_cons_of_pos hopen, List.getLast?_cons] at h
  cases hlast : (text.filter isBrace).getLast? with
  | none => simp [hlast] at h
  | some d =>
    have hmem := List.mem_of_getLast? hlast
    have hd : d ≠ '{' := by simpa [hlast] using h
    have hbrace : isBrace d = true := (List.mem_filter.1 hmem).2
    have hclose : d = '}' := by simpa [isBrace, hd] using hbrace
    exact hclose ▸ (List.mem_filter.1 hmem).1

theorem Closed.cons (h : Closed text) (hc : c = '{' → '}' ∈ text) : Closed (c :: text) := by
  have hlast : (text.filter isBrace).getLast? ≠ some '{' := h
  rw [Closed, List.filter_cons]
  split
  · rw [List.getLast?_cons]
    cases hbraces : (text.filter isBrace).getLast? with
    | none =>
      -- without a brace in the text, the character is no opening one
      have hnone : text.filter isBrace = [] := List.getLast?_eq_none_iff.1 hbraces
      have hno : '}' ∉ text := fun hmem =>
        List.not_mem_nil (hnone ▸ List.mem_filter.2 ⟨hmem, by decide⟩)
      simpa using fun heq => hno (hc heq)
    | some d => simpa [hbraces] using hlast
  · exact hlast

/-- The placeholder of a name stands in a text: every brace that is opened before it is
closed before it. -/
def Stands (name text : List Char) : Prop :=
  ∃ before rest after, text = before ++ rest ∧ Starts name after rest ∧ Closed before

/-- Where no placeholder starts, an opening brace is closed before the next placeholder. -/
theorem mem_of_not_starts (hstarts : Starts name rest text)
    (hno : ∀ name' rest', ¬ Starts name' rest' ('{' :: (before ++ text))) : '}' ∈ before := by
  refine Decidable.byContradiction fun hmem => hno (before ++ '{' :: name) rest ⟨?_, by simp, ?_⟩
  · rw [hstarts.text_eq]
    simp
  · simpa using ⟨hmem, hstarts.not_mem⟩

/-- What is closed goes on after the closing brace of a placeholder that it starts with. -/
theorem exists_after_name (hname : '}' ∉ name) (hbefore : '}' ∈ before)
    (h : name ++ '}' :: rest = before ++ text) :
    ∃ between, before = name ++ '}' :: between ∧ rest = between ++ text := by
  rcases List.append_eq_append_iff.1 h with ⟨tail, rfl, htail⟩ | ⟨tail, rfl, -⟩
  · cases tail with
    | nil => exact absurd (by simpa using hbefore) hname
    | cons c between =>
      obtain ⟨rfl, hrest⟩ := List.cons.inj htail
      exact ⟨between, rfl, hrest⟩
  · exact absurd (List.mem_append_left tail hbefore) hname

/-- **The scan takes the placeholders that stand in a text**, and no others. -/
theorem mem_parts_iff :
    Part.piece ('{' :: (name ++ ['}'])) ∈ parts anywhere text ↔ Stands name text := by
  induction text using scan_induction with
  | nil =>
    constructor
    · intro h
      cases h
    · rintro ⟨before, rest, after, htext, hstarts, -⟩
      rw [(List.append_eq_nil_iff.1 htext.symm).2] at hstarts
      cases hstarts.text_eq
  | kept c cs hno ih =>
    rw [parts_kept hno, List.mem_cons, or_iff_right (by simp), ih]
    constructor
    · rintro ⟨before, rest, after, rfl, hstarts, hclosed⟩
      refine ⟨c :: before, rest, after, rfl, hstarts, hclosed.cons ?_⟩
      rintro rfl
      exact mem_of_not_starts hstarts hno
    · rintro ⟨before, rest, after, htext, hstarts, hclosed⟩
      cases before with
      | nil => exact absurd (htext ▸ hstarts) (hno name after)
      | cons d before =>
        obtain ⟨rfl, hcs⟩ := List.cons.inj htext
        exact ⟨before, rest, after, hcs, hstarts, hclosed.of_cons⟩
  | placeholder name' rest' hne hmem ih =>
    rw [parts_starts hne hmem, List.mem_cons, ih]
    constructor
    · rintro (heq | ⟨before, rest, after, rfl, hstarts, hclosed⟩)
      · have hname : name = name' := by simpa using heq
        exact ⟨[], _, rest', rfl, ⟨by rw [hname], hname ▸ hne, hname ▸ hmem⟩, closed_nil⟩
      · exact ⟨'{' :: name' ++ '}' :: before, rest, after, by simp, hstarts, hclosed.append⟩
    · rintro ⟨before, rest, after, htext, hstarts, hclosed⟩
      cases before with
      | nil =>
        have hself : Starts name' rest' ('{' :: (name' ++ '}' :: rest')) := ⟨rfl, hne, hmem⟩
        rw [List.nil_append] at htext
        rw [← htext] at hstarts
        exact .inl (by rw [(hstarts.unique hself).1])
      | cons d before =>
        obtain ⟨rfl, htail⟩ := List.cons.inj htext
        -- the first closing brace is that of the placeholder at the start
        obtain ⟨between, rfl, hrest⟩ := exists_after_name hmem hclosed.mem_of_open htail
        have hbetween : Closed (name' ++ '}' :: between) := hclosed.of_cons
        exact .inr ⟨between, rest, after, hrest, hstarts, hbetween.of_append.of_cons⟩

/-- Every piece of the scan is a name in braces. -/
theorem exists_name_of_mem (h : Part.piece p ∈ parts anywhere text) :
    ∃ name, p = '{' :: (name ++ ['}']) := by
  induction text using scan_induction with
  | nil => cases h
  | kept c cs hno ih =>
    rw [parts_kept hno, List.mem_cons, or_iff_right (by simp)] at h
    exact ih h
  | placeholder name rest hne hmem ih =>
    rw [parts_starts hne hmem, List.mem_cons, Part.piece.injEq] at h
    rcases h with rfl | h
    · exact ⟨name, rfl⟩
    · exact ih h

/-- A name is unknown if a placeholder of the scan has it, and no value is known for it. -/
theorem mem_unknown {shape : Shape} {known : String → Bool} {n : String} :
    n ∈ unknown shape known text ↔
      known n = false ∧ ∃ p, Part.piece p ∈ parts shape text ∧ Placeholder.name p = n := by
  rw [unknown_eq, mem_distinct, List.mem_filter, mem_names, Bool.not_eq_true', and_comm]

/-- **The names that are reported** are those without a value whose placeholder stands in
the text. -/
theorem mem_unknown_anywhere {known : String → Bool} {n : String} :
    n ∈ unknown anywhere known text ↔ known n = false ∧ Stands n.toList text := by
  rw [mem_unknown]
  refine and_congr_right fun _ => ⟨?_, fun h => ?_⟩
  · rintro ⟨p, hp, rfl⟩
    obtain ⟨name, rfl⟩ := exists_name_of_mem hp
    rw [name_braces, String.toList_ofList]
    exact mem_parts_iff.1 hp
  · exact ⟨_, mem_parts_iff.2 h, by rw [name_braces, String.ofList_toList]⟩

/-! ## The cut of a text -/

/-- What a text is cut into: a character that is kept, or a placeholder by its name. -/
inductive Segment where
  | kept (c : Char)
  | placeholder (name : List Char)
deriving DecidableEq

/-- The part of a pass that a segment is. -/
def Segment.part : Segment → Part
  | .kept c => .kept c
  | .placeholder name => .piece ('{' :: (name ++ ['}']))

/-- The cut of a text from left to right, behind the character `previous`. A placeholder is taken
where one starts, unless the character in front of it is not free for it; else the first character
is kept. What follows is cut in the same way. -/
inductive Cut (free : Option Char → Bool) :
    (previous : Option Char) → List Char → List Segment → Prop
  | nil {previous : Option Char} : Cut free previous [] []
  | kept {previous : Option Char} {c : Char} {cs : List Char} {segments : List Segment} :
      (free previous = true → ∀ name rest, ¬ Starts name rest (c :: cs)) →
      Cut free (some c) cs segments → Cut free previous (c :: cs) (.kept c :: segments)
  | placeholder {previous : Option Char} {name rest text : List Char} {segments : List Segment} :
      free previous = true → Starts name rest text → Cut free (some '}') rest segments →
      Cut free previous text (.placeholder name :: segments)

/-- Placeholders behind free characters. -/
def behind (free : Option Char → Bool) : Shape := fun previous text =>
  if free previous then length text else 0

theorem behind_true : behind (fun _ => true) = anywhere := rfl

namespace Cut

variable {free : Option Char → Bool} {previous : Option Char} {segments segments' : List Segment}

theorem partsFrom_eq (h : Cut free previous text segments) :
    partsFrom (behind free) previous 0 text = segments.map Segment.part := by
  induction h with
  | nil => rfl
  | @kept previous c cs segments hno _ ih =>
    have hzero : behind free previous (c :: cs) = 0 := by
      rw [behind]
      split
      · next hfree => exact length_eq_zero_iff.2 (hno hfree)
      · rfl
    rw [partsFrom, hzero, ih]
    rfl
  | @placeholder previous name rest text segments hfree hstarts _ ih =>
    have hlength : behind free previous text = name.length + 2 := by
      rw [behind, if_pos hfree, length_of_starts hstarts]
    have hskip := partsFrom_skip (behind free) (some '{') (name ++ ['}']) rest
    rw [List.length_append, List.length_singleton, List.append_assoc, List.singleton_append,
      List.getLast?_concat, Option.some_or, ih] at hskip
    have htake : List.take (name.length + 1 + 1) ('{' :: (name ++ '}' :: rest)) =
        '{' :: (name ++ ['}']) := by
      have hsplit : '{' :: (name ++ '}' :: rest) = '{' :: (name ++ ['}']) ++ rest := by simp
      rw [hsplit]
      exact List.take_left' (by simp)
    rw [hstarts.text_eq] at hlength ⊢
    rw [partsFrom, hlength]
    simp only [hskip, htake]
    rfl

theorem exists_cut (free : Option Char → Bool) (previous : Option Char) (text : List Char) :
    ∃ segments, Cut free previous text segments := by
  induction hn : text.length using Nat.strongRecOn generalizing text previous with
  | ind n ih =>
    by_cases h : free previous = true ∧ ∃ name rest, Starts name rest text
    · obtain ⟨hfree, name, rest, hstarts⟩ := h
      have hlt : rest.length < n := by
        rw [← hn, hstarts.text_eq]
        simp
        omega
      obtain ⟨segments, hcut⟩ := ih _ hlt (some '}') rest rfl
      exact ⟨_, .placeholder hfree hstarts hcut⟩
    · cases text with
      | nil => exact ⟨[], .nil⟩
      | cons c cs =>
        obtain ⟨segments, hcut⟩ := ih _ (by rw [← hn]; exact Nat.lt_succ_self _) (some c) cs rfl
        exact ⟨_, .kept (fun hfree name rest hstarts => h ⟨hfree, name, rest, hstarts⟩) hcut⟩

theorem unique (h : Cut free previous text segments) (h' : Cut free previous text segments') :
    segments = segments' := by
  induction h generalizing segments' with
  | nil =>
    cases h' with
    | nil => rfl
    | placeholder _ hstarts _ => cases hstarts.text_eq
  | kept hno _ ih =>
    cases h' with
    | kept _ h' => rw [ih h']
    | placeholder hfree hstarts _ => exact absurd hstarts (hno hfree _ _)
  | placeholder hfree hstarts _ ih =>
    cases h' with
    | nil => cases hstarts.text_eq
    | kept hno _ => exact absurd hstarts (hno hfree _ _)
    | placeholder _ hstarts' h' =>
      obtain ⟨rfl, rfl⟩ := hstarts.unique hstarts'
      rw [ih h']

end Cut
end ReportQuery.Placeholder
