import ReportQuery.Proofs.Macro.Settled
/-!
# The segments of a text with macros

Placeholders are filled in with macros in one pass from left to right. The pass has one cut of the
text into kept characters and placeholders (`Cut`), where a brace behind a dollar sign starts no
placeholder. What comes out are the segments of this cut, one by one, and the names that are
reported are those of its placeholders (`fillPlaceholders_segments`). The brace of an expression
block is kept, and what stands in the block is cut as any text is (`Cut.of_kept_append`).
-/

namespace ReportQuery

open Text

namespace Placeholder

/-! ## The segments of a cut -/

/-- The characters of a segment. -/
def Segment.text : Segment → List Char
  | .kept c => [c]
  | .placeholder name => '{' :: (name ++ ['}'])

/-- The name of a segment, if it is a placeholder. -/
def Segment.name? : Segment → Option String
  | .kept _ => none
  | .placeholder name => some (String.ofList name)

variable {free : Option Char → Bool} {previous : Option Char} {c : Char}
variable {name left rest text : List Char} {segments before after : List Segment}

namespace Cut

/-- Nothing is lost in a cut. -/
theorem flatMap_text (h : Cut free previous text segments) :
    segments.flatMap Segment.text = text := by
  induction h with
  | nil => rfl
  | kept _ _ ih => rw [List.flatMap_cons, ih, Segment.text, List.singleton_append]
  | placeholder _ hstarts _ ih =>
    rw [List.flatMap_cons, ih, hstarts.text_eq]
    simp [Segment.text]

/-- Without an opening brace, all characters are kept. -/
theorem of_not_mem (h : '{' ∉ text) : Cut free previous text (text.map .kept) := by
  induction text generalizing previous with
  | nil => exact .nil
  | cons c cs ih =>
    obtain ⟨hc, hcs⟩ := List.ne_and_not_mem_of_not_mem_cons h
    exact .kept (fun _ name rest hstarts => hc (List.cons.inj hstarts.text_eq).1.symm) (ih hcs)

/-- The names of a text are those of its segments. -/
theorem names_eq (h : Cut free none text segments) :
    names (behind free) text = segments.filterMap Segment.name? := by
  rw [names, parts, h.partsFrom_eq, List.filterMap_map]
  refine List.filterMap_congr fun segment _ => ?_
  cases segment with
  | kept c => rfl
  | placeholder name => simp [Segment.part, Segment.name?]

/-- What follows some segments is cut as a text of its own, behind their last character. -/
theorem of_append (h : Cut free previous text (before ++ after)) :
    Cut free ((before.flatMap Segment.text).getLast?.or previous) (after.flatMap Segment.text)
      after := by
  induction before generalizing previous text with
  | nil =>
    rw [List.nil_append] at h
    simpa [h.flatMap_text] using h
  | cons segment before ih =>
    rw [List.flatMap_cons, List.getLast?_append, Option.or_assoc]
    cases h with
    | kept _ h => exact ih h
    | placeholder _ _ h =>
      rw [Segment.text, ← List.cons_append, List.getLast?_concat]
      exact ih h

/-- A placeholder stands behind a free character. -/
theorem free_of_placeholder (h : Cut free previous text (.placeholder name :: after)) :
    free previous = true := by
  cases h with
  | placeholder hfree _ _ => exact hfree

/-- **The first placeholder behind kept characters.** Characters that are no opening braces are
kept, and a name in braces behind a free character is a placeholder. -/
theorem of_kept_append (h : Cut free previous (left ++ '{' :: (name ++ '}' :: rest)) segments)
    (hleft : '{' ∉ left) (hfree : free (left.getLast?.or previous) = true) (hne : name ≠ [])
    (hname : '}' ∉ name) :
    ∃ further, segments = left.map .kept ++ .placeholder name :: further := by
  induction left generalizing previous segments with
  | nil =>
    cases h with
    | kept hno _ => exact absurd ⟨rfl, hne, hname⟩ (hno hfree name rest)
    | placeholder _ hstarts _ =>
      obtain ⟨rfl, -⟩ := hstarts.unique ⟨rfl, hne, hname⟩
      exact ⟨_, rfl⟩
  | cons c left ih =>
    obtain ⟨hc, hleft⟩ := List.ne_and_not_mem_of_not_mem_cons hleft
    cases h with
    | kept _ h =>
      rw [List.getLast?_cons] at hfree
      have hfree' : free (left.getLast?.or (some c)) = true := by
        cases hlast : left.getLast? <;> simpa [hlast] using hfree
      obtain ⟨further, rfl⟩ := ih h hleft hfree'
      exact ⟨further, rfl⟩
    | placeholder _ hstarts _ => exact absurd (List.cons.inj hstarts.text_eq).1.symm hc

end Cut

/-- Every character but a dollar sign is free for a placeholder behind it. -/
def isUnmarked (previous : Option Char) : Bool := previous ≠ some '$'

theorem behind_isUnmarked : behind isUnmarked = unmarked := by
  funext previous text
  by_cases h : previous = some '$' <;> simp [behind, unmarked, isUnmarked, h]

/-- What a segment becomes: a placeholder of a known macro becomes the text of the macro, and one of
any other name stays. -/
def Segment.filled (macros : Macros) : Segment → List Char
  | .kept c => [c]
  | .placeholder name => match macros.find? (String.ofList name) with
    | some value => value.display
    | none => '{' :: (name ++ ['}'])

end Placeholder

open Placeholder

variable {macros : Macros} {text : List Char} {segments : List Segment}

theorem fillPlaceholders_of_cut (h : Cut isUnmarked none text segments) :
    fillPlaceholders macros text = segments.flatMap (Segment.filled macros) := by
  rw [fillPlaceholders, replace, parts, ← behind_isUnmarked, h.partsFrom_eq, List.flatMap_map]
  refine congrArg segments.flatMap (funext fun segment => ?_)
  cases segment with
  | kept c => rfl
  | placeholder name =>
    cases hfind : macros.find? (String.ofList name) <;>
      simp [Segment.part, Segment.filled, name_braces, hfind]

/-- The names that are reported are the unknown names of the text, whatever its blocks become. -/
theorem unresolved_of_putInto {now : Instant} {e : Expansion}
    (h : macros.putInto now text = .ok e) :
    e.unresolved = unknown unmarked macros.has text := by
  obtain ⟨evaluated, -, he⟩ := Outcome.bind_eq_ok.1 h
  cases he
  rfl

/-- **Macros are put into a text segment by segment.** The text has one cut into kept characters and
placeholders; put together again, the segments are the text. What comes out are the segments with
the text of its macro for each placeholder of a known name, and the names of the other placeholders
are reported, each once and in the order of first occurrence. No placeholder starts at the brace
behind a dollar sign. Such a brace is kept, and the first name in braces behind it is a
placeholder. -/
theorem fillPlaceholders_segments (macros : Macros) (text : List Char) :
    ∃ segments, (∀ other, Cut isUnmarked none text other ↔ other = segments) ∧
      segments.flatMap Segment.text = text ∧
      fillPlaceholders macros text = segments.flatMap (Segment.filled macros) ∧
      FirstOccurrences (unknown unmarked macros.has text)
        ((segments.filterMap Segment.name?).filter fun n => !macros.has n) ∧
      (∀ now e, macros.putInto now text = .ok e →
        e.unresolved = unknown unmarked macros.has text) ∧
      (∀ before name after, segments = before ++ .placeholder name :: after →
        (before.flatMap Segment.text).getLast? ≠ some '$') ∧
      ∀ before after left name rest, segments = before ++ [.kept '$', .kept '{'] ++ after →
        after.flatMap Segment.text = left ++ '{' :: (name ++ '}' :: rest) → '{' ∉ left →
        left.getLast? ≠ some '$' → name ≠ [] → '}' ∉ name →
        ∃ further, after = left.map .kept ++ .placeholder name :: further := by
  obtain ⟨segments, hcut⟩ := Cut.exists_cut isUnmarked none text
  refine ⟨segments, fun other => ⟨fun h => h.unique hcut, fun h => h ▸ hcut⟩, hcut.flatMap_text,
    fillPlaceholders_of_cut hcut, ?_, fun now e he => unresolved_of_putInto he, ?_, ?_⟩
  · rw [unknown_eq, ← hcut.names_eq, behind_isUnmarked]
    exact firstOccurrences_distinct _
  · rintro before name after rfl hlast
    have hfree := hcut.of_append.free_of_placeholder
    rw [hlast] at hfree
    cases hfree
  · rintro before after left name rest rfl hafter hleft hlast hne hname
    have h := hcut.of_append
    rw [hafter] at h
    refine h.of_kept_append hleft ?_ hne hname
    rw [List.flatMap_append]
    cases hlast' : left.getLast? with
    | none => simp [Segment.text, isUnmarked]
    | some c => simpa [isUnmarked, hlast'] using hlast

/-- The brace of a block stays, also where a name in braces follows in the block. -/
example : fillPlaceholders [("a", .int 3)] "${ {a} * {b} }{a}".toList =
    "${ 3 * {b} }3".toList := by decide +kernel

end ReportQuery
