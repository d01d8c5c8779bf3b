import ReportQuery.Proofs.Text.Words
import ReportQuery.Text.Piece
/-!
# Passes that replace pieces

A pass whose shape does not look at the character before goes on after a piece, or
after a kept character, as it would on the rest alone (`replace_piece`,
`replace_kept`), and divides where no piece crosses (`replace_append`). A shape stops at a
separator when no piece reaches over one; such a pass treats the texts around separators one by
one (`replace_append_sep`, `replace_join`).
-/

namespace ReportQuery.Text

variable {length : List Char → Nat} {image : List Char → List Char}
variable {before : Option Char} {c sep : Char} {p run text cs : List Char}

/-- What is left after the skipped characters is cut as a text of its own. -/
theorem partsFrom_eq_parts (skip : Nat) :
    partsFrom (fun _ t => length t) before skip text =
      parts (fun _ t => length t) (text.drop skip) := by
  rw [parts]
  induction text generalizing before skip with
  | nil => simp [partsFrom]
  | cons c cs ih =>
    cases skip with
    | zero => rw [List.drop_zero, partsFrom, partsFrom]
    | succ skip => rw [partsFrom, ih, List.drop_succ_cons]

/-- Behind the skipped characters, the pass goes on with the last of them as the character before. -/
theorem partsFrom_skip (shape : Shape) (previous : Option Char) (left text : List Char) :
    partsFrom shape previous left.length (left ++ text) =
      partsFrom shape (left.getLast?.or previous) 0 text := by
  induction left generalizing previous with
  | nil => rfl
  | cons d left ih =>
    rw [List.length_cons, List.cons_append, partsFrom, ih, List.getLast?_cons]
    cases left.getLast? <;> rfl

theorem parts_kept (h : length (c :: cs) = 0) :
    parts (fun _ t => length t) (c :: cs) = .kept c :: parts (fun _ t => length t) cs := by
  rw [parts, partsFrom, h, partsFrom_eq_parts, List.drop_zero]

theorem parts_piece (hp : p ≠ []) (h : length (p ++ text) = p.length) :
    parts (fun _ t => length t) (p ++ text) = .piece p :: parts (fun _ t => length t) text := by
  obtain ⟨c, cs, rfl⟩ := List.exists_cons_of_ne_nil hp
  rw [List.cons_append, List.length_cons] at h
  rw [List.cons_append, parts, partsFrom, h]
  simp only [partsFrom_eq_parts, List.take_succ_cons, List.take_left, List.drop_left]

/-- A text of characters that start no piece has no pieces. -/
theorem parts_of_forall (h : ∀ c ∈ text, ∀ cs, length (c :: cs) = 0) :
    parts (fun _ t => length t) text = text.map .kept := by
  induction text with
  | nil => rfl
  | cons c cs ih =>
    rw [parts_kept (h c (by simp) cs), ih fun d hd => h d (by simp [hd]), List.map_cons]

@[simp] theorem replace_nil : replace (fun _ t => length t) image [] = [] := rfl

/-- A pass that replaces each piece by itself changes nothing. -/
theorem replace_eq_self {shape : Shape} (h : ∀ p, Part.piece p ∈ parts shape text → image p = p) :
    replace shape image text = text := by
  have hparts := parts_text shape text
  rw [List.flatMap_def] at hparts
  rw [replace, List.flatMap_def]
  nth_rewrite 2 [← hparts]
  refine congrArg _ (List.map_congr_left fun part hpart => ?_)
  cases part with
  | kept c => rfl
  | piece p => exact h p hpart

/-- A character that starts no piece is kept. -/
theorem replace_kept (h : length (c :: cs) = 0) :
    replace (fun _ t => length t) image (c :: cs) = c :: replace (fun _ t => length t) image cs := by
  rw [replace, parts_kept h, replace, List.flatMap_cons, List.singleton_append]

/-- A piece is replaced, and the pass goes on after it. -/
theorem replace_piece (hp : p ≠ []) (h : length (p ++ text) = p.length) :
    replace (fun _ t => length t) image (p ++ text) =
      image p ++ replace (fun _ t => length t) image text := by
  rw [replace, parts_piece hp h, replace, List.flatMap_cons]

/-- Where a piece starts, its image does. -/
theorem exists_replace_of_pos (h : 0 < length (c :: cs)) :
    ∃ p rest, replace (fun _ t => length t) image (c :: cs) = image p ++ rest := by
  rw [replace, parts, partsFrom]
  split
  · omega
  · exact ⟨_, _, by rw [List.flatMap_cons]⟩

/-- A run in which no piece starts is kept. -/
theorem replace_run (h : ∀ left c right, run = left ++ c :: right → length (c :: right ++ text) = 0) :
    replace (fun _ t => length t) image (run ++ text) =
      run ++ replace (fun _ t => length t) image text := by
  induction run with
  | nil => rfl
  | cons c cs ih =>
    rw [List.cons_append, replace_kept (by simpa using h [] c cs rfl), List.cons_append,
      ih fun left d right hcs => h (c :: left) d right (by rw [hcs, List.cons_append])]

/-- A run of characters that start no piece is kept. -/
theorem replace_run_of_forall (h : ∀ c ∈ run, ∀ cs, length (c :: cs) = 0) :
    replace (fun _ t => length t) image (run ++ text) =
      run ++ replace (fun _ t => length t) image text :=
  replace_run fun left c right hrun => by
    rw [List.cons_append]
    exact h c (by simp [hrun]) _

/-! ## Induction over the parts -/

/-- A text is made of kept characters and pieces, one after the other. -/
theorem parts_induction {P : List Char → Prop} (hbound : ∀ t, length t ≤ t.length) (nil : P [])
    (kept : ∀ c cs, length (c :: cs) = 0 → P cs → P (c :: cs))
    (piece : ∀ p t, p ≠ [] → length (p ++ t) = p.length → P t → P (p ++ t)) (text : List Char) :
    P text := by
  induction hn : text.length using Nat.strongRecOn generalizing text with
  | ind n ih =>
    cases text with
    | nil => exact nil
    | cons c cs =>
      rcases Nat.eq_zero_or_pos (length (c :: cs)) with hzero | hpos
      · exact kept c cs hzero (ih cs.length (by simp [← hn]) cs rfl)
      · have hle := hbound (c :: cs)
        have hlength : ((c :: cs).take (length (c :: cs))).length = length (c :: cs) := by
          rw [List.length_take]
          omega
        have hsplit := List.take_append_drop (length (c :: cs)) (c :: cs)
        rw [← hsplit]
        refine piece _ _ (fun hnil => ?_) (by rw [hsplit, hlength]) (ih _ ?_ _ rfl)
        · rw [hnil, List.length_nil] at hlength
          omega
        · rw [← hn, List.length_drop]
          omega

/-- **A pass divides where no piece crosses**: what starts in the front has the length that it has
without what follows the front. -/
theorem replace_append {front : List Char} (hbound : ∀ t, length t ≤ t.length)
    (hcut : ∀ left c right, front = left ++ c :: right →
      length (c :: right ++ text) = length (c :: right)) :
    replace (fun _ t => length t) image (front ++ text) =
      replace (fun _ t => length t) image front ++ replace (fun _ t => length t) image text := by
  induction front using parts_induction hbound with
  | nil => rfl
  | kept c cs hzero ih =>
    have hzero' : length (c :: (cs ++ text)) = 0 := (hcut [] c cs rfl).trans hzero
    rw [List.cons_append, replace_kept hzero', replace_kept hzero,
      ih fun left d right hcs => hcut (c :: left) d right (by rw [hcs, List.cons_append]),
      List.cons_append]
  | piece p t hp hlength ih =>
    have hlength' : length (p ++ (t ++ text)) = p.length := by
      obtain ⟨c, cs, rfl⟩ := List.exists_cons_of_ne_nil hp
      rw [← hlength, ← List.append_assoc]
      exact hcut [] c (cs ++ t) rfl
    rw [List.append_assoc, replace_piece hp hlength', replace_piece hp hlength,
      ih fun left c right ht => hcut (p ++ left) c right (by rw [ht, List.append_assoc]),
      List.append_assoc]

/-- What stands in a text after a pass stood in it before or stands in an image. -/
theorem mem_of_mem_replace {shape : Shape} (h : c ∈ replace shape image text) :
    c ∈ text ∨ ∃ p, c ∈ image p := by
  obtain ⟨part, hpart, hc⟩ := List.mem_flatMap.1 h
  cases part with
  | kept d =>
    have hmem : c ∈ (parts shape text).flatMap Part.text := List.mem_flatMap.2 ⟨_, hpart, hc⟩
    rw [parts_text] at hmem
    exact .inl hmem
  | piece p => exact .inr ⟨p, hc⟩

/-- **What a pass makes of a text starts as the text does**, up to the image of the first piece. -/
theorem replace_eq_append {left right : List Char} (hbound : ∀ t, length t ≤ t.length)
    (h : replace (fun _ t => length t) image text = left ++ right) :
    (∃ rest, text = left ++ rest ∧ replace (fun _ t => length t) image rest = right ∧
        ∀ before c after, left = before ++ c :: after → length (c :: after ++ rest) = 0) ∨
      ∃ front back rest, left = front ++ back ∧ back ≠ [] ∧ text = front ++ rest ∧
        0 < length rest ∧ replace (fun _ t => length t) image rest = back ++ right := by
  induction text using parts_induction hbound generalizing left with
  | nil =>
    obtain ⟨rfl, rfl⟩ := List.append_eq_nil_iff.1 h.symm
    exact .inl ⟨[], rfl, rfl, fun before c after hnil => by simp at hnil⟩
  | kept d ds hzero ih =>
    cases left with
    | nil => exact .inl ⟨d :: ds, rfl, h, fun before c after hnil => by simp at hnil⟩
    | cons e left =>
      rw [replace_kept hzero] at h
      obtain ⟨rfl, hds⟩ := List.cons.inj h
      rcases ih hds with ⟨rest, rfl, hrest, hfree⟩ | ⟨front, back, rest, rfl, hback, rfl, hpos, hrest⟩
      · refine .inl ⟨rest, rfl, hrest, fun before c after hleft => ?_⟩
        cases before with
        | nil =>
          obtain ⟨rfl, rfl⟩ := List.cons.inj hleft
          exact hzero
        | cons e before => exact hfree before c after (List.cons.inj hleft).2
      · exact .inr ⟨d :: front, back, rest, rfl, hback, rfl, hpos, hrest⟩
  | piece p t hp hlength ih =>
    cases left with
    | nil => exact .inl ⟨p ++ t, rfl, h, fun before c after hnil => by simp at hnil⟩
    | cons e left =>
      refine .inr ⟨[], e :: left, p ++ t, rfl, by simp, rfl, ?_, h⟩
      rw [hlength]
      exact List.length_pos_iff.2 hp

/-- A character that no image has stood in the text, and was kept. -/
theorem replace_eq_append_cons {left right : List Char} (hbound : ∀ t, length t ≤ t.length)
    (himage : ∀ p, c ∉ image p)
    (h : replace (fun _ t => length t) image text = left ++ c :: right) :
    ∃ front rest, text = front ++ c :: rest ∧ length (c :: rest) = 0 ∧
      replace (fun _ t => length t) image rest = right := by
  induction text using parts_induction hbound generalizing left with
  | nil => simp at h
  | kept d ds hzero ih =>
    rw [replace_kept hzero] at h
    cases left with
    | nil =>
      obtain ⟨rfl, hds⟩ := List.cons.inj h
      exact ⟨[], ds, rfl, hzero, hds⟩
    | cons e left =>
      obtain ⟨-, hds⟩ := List.cons.inj h
      obtain ⟨front, rest, rfl, hkept, hrest⟩ := ih hds
      exact ⟨d :: front, rest, rfl, hkept, hrest⟩
  | piece p t hp hlength ih =>
    rw [replace_piece hp hlength] at h
    obtain ⟨left', hleft⟩ : ∃ left', replace (fun _ t => length t) image t = left' ++ c :: right := by
      rcases List.append_eq_append_iff.1 h with ⟨between, -, ht⟩ | ⟨between, himg, hbetween⟩
      · exact ⟨between, ht⟩
      · cases between with
        | nil => exact ⟨[], hbetween.symm⟩
        | cons e between =>
          obtain ⟨rfl, -⟩ := List.cons.inj hbetween
          exact absurd (himg ▸ by simp) (himage p)
    obtain ⟨front, rest, rfl, hkept, hrest⟩ := ih hleft
    exact ⟨p ++ front, rest, by simp, hkept, hrest⟩

/-! ## Characters that no piece has -/

/-- Neither the pieces of a text nor their images have a marked character. -/
structure Clears (mark : Char → Bool) (length : List Char → Nat) (image : List Char → List Char)
    (text : List Char) : Prop where
  piece : ∀ p, Part.piece p ∈ parts (fun _ t => length t) text → ∀ c ∈ p, mark c = false
  image : ∀ p, Part.piece p ∈ parts (fun _ t => length t) text → ∀ c ∈ image p, mark c = false

namespace Clears

variable {mark : Char → Bool} {front : List Char}

theorem of_kept (h : Clears mark length image (c :: cs)) (hzero : length (c :: cs) = 0) :
    Clears mark length image cs := by
  obtain ⟨hpiece, himage⟩ := h
  rw [parts_kept hzero] at hpiece himage
  exact ⟨fun p hp => hpiece p (List.mem_cons_of_mem _ hp),
    fun p hp => himage p (List.mem_cons_of_mem _ hp)⟩

theorem of_piece (h : Clears mark length image (p ++ text)) (hp : p ≠ [])
    (hlength : length (p ++ text) = p.length) :
    p.filter mark = [] ∧ (image p).filter mark = [] ∧ Clears mark length image text := by
  obtain ⟨hpiece, himage⟩ := h
  rw [parts_piece hp hlength] at hpiece himage
  refine ⟨List.filter_eq_nil_iff.2 fun c hc => ?_, List.filter_eq_nil_iff.2 fun c hc => ?_,
    fun p hp => hpiece p (List.mem_cons_of_mem _ hp),
    fun p hp => himage p (List.mem_cons_of_mem _ hp)⟩
  · simp [hpiece p List.mem_cons_self c hc]
  · simp [himage p List.mem_cons_self c hc]

/-- **The marked characters stay**, in their order. -/
theorem filter_replace (h : Clears mark length image text) (hbound : ∀ t, length t ≤ t.length) :
    (replace (fun _ t => length t) image text).filter mark = text.filter mark := by
  induction text using parts_induction hbound with
  | nil => rfl
  | kept c cs hzero ih =>
    rw [replace_kept hzero, List.filter_cons, List.filter_cons, ih (h.of_kept hzero)]
  | piece p t hp hlength ih =>
    obtain ⟨hpiece, himage, ht⟩ := h.of_piece hp hlength
    rw [replace_piece hp hlength, List.filter_append, List.filter_append, ih ht, hpiece, himage]

/-- **A pass starts afresh at a marked character**, and what it makes of the text before
has the same marked characters. -/
theorem exists_replace_append (h : Clears mark length image (front ++ c :: cs))
    (hbound : ∀ t, length t ≤ t.length) (hc : mark c = true) :
    ∃ front', replace (fun _ t => length t) image (front ++ c :: cs) =
        front' ++ replace (fun _ t => length t) image (c :: cs) ∧
      front'.filter mark = front.filter mark := by
  generalize htext : front ++ c :: cs = text at h ⊢
  induction text using parts_induction hbound generalizing front with
  | nil => simp at htext
  | kept d ds hzero ih =>
    cases front with
    | nil => exact ⟨[], by rw [← htext]; rfl, rfl⟩
    | cons e front =>
      obtain ⟨rfl, hds⟩ := List.cons.inj htext
      obtain ⟨front', hreplace, hfilter⟩ := ih hds (h.of_kept hzero)
      exact ⟨e :: front', by rw [replace_kept hzero, hreplace, List.cons_append],
        by rw [List.filter_cons, List.filter_cons, hfilter]⟩
  | piece p t hp hlength ih =>
    obtain ⟨hpiece, himage, ht⟩ := h.of_piece hp hlength
    -- the marked character does not stand in the piece
    obtain ⟨between, rfl, hrest⟩ : ∃ between, front = p ++ between ∧ between ++ c :: cs = t := by
      rcases List.append_eq_append_iff.1 htext with ⟨tail, rfl, htail⟩ | ⟨tail, rfl, htail⟩
      · cases tail with
        | nil => exact ⟨[], by simp, by simpa using htail⟩
        | cons d ds =>
          obtain ⟨rfl, -⟩ := List.cons.inj htail
          exact absurd hc (List.filter_eq_nil_iff.1 hpiece c (by simp))
      · exact ⟨tail, rfl, htail.symm⟩
    obtain ⟨front', hreplace, hfilter⟩ := ih hrest ht
    refine ⟨image p ++ front', by rw [replace_piece hp hlength, hreplace, List.append_assoc], ?_⟩
    rw [List.filter_append, List.filter_append, hfilter, hpiece, himage]

end Clears

/-! ## Separators -/

/-- No piece reaches over a separator: the length of what starts before one is the
length it has without what follows. -/
structure StopsAt (sep : Char) (length : List Char → Nat) : Prop where
  le : ∀ t, length t ≤ t.length
  append : ∀ left right, length (left ++ sep :: right) = length left

namespace StopsAt

variable {left right : List Char}

theorem sep_eq_zero (h : StopsAt sep length) : length (sep :: right) = 0 := by
  have happend := h.append [] right
  have hle := h.le []
  rw [List.nil_append] at happend
  rw [List.length_nil] at hle
  omega

/-- A piece has no separator in it. -/
theorem not_mem_piece (h : StopsAt sep length) (hlength : length (p ++ text) = p.length) :
    sep ∉ p := by
  intro hmem
  obtain ⟨left, right, rfl⟩ := List.append_of_mem hmem
  have happend := h.append left (right ++ text)
  have hle := h.le left
  rw [← List.cons_append, ← List.append_assoc, hlength] at happend
  simp only [List.length_append, List.length_cons] at happend
  omega

theorem not_mem_of_piece (h : StopsAt sep length)
    (hpiece : Part.piece p ∈ parts (fun _ t => length t) text) : sep ∉ p := by
  induction text using parts_induction h.le with
  | nil => cases hpiece
  | kept c cs hzero ih =>
    rw [parts_kept hzero] at hpiece
    exact ih (by simpa using hpiece)
  | piece p' t hp hlength ih =>
    rw [parts_piece hp hlength, List.mem_cons, Part.piece.injEq] at hpiece
    rcases hpiece with rfl | hpiece
    · exact h.not_mem_piece hlength
    · exact ih hpiece

/-- **A pass does its work between the separators.** -/
theorem replace_append_sep (h : StopsAt sep length) :
    replace (fun _ t => length t) image (left ++ sep :: right) =
      replace (fun _ t => length t) image left ++ sep :: replace (fun _ t => length t) image right := by
  rw [replace_append h.le fun _ c rest _ => h.append (c :: rest) right,
    replace_kept h.sep_eq_zero]

/-- A pass over texts with separators between them is a pass over each. -/
theorem replace_join (h : StopsAt sep length) (texts : List (List Char)) :
    replace (fun _ t => length t) image (join [sep] texts) =
      join [sep] (texts.map (replace (fun _ t => length t) image)) := by
  induction texts with
  | nil => rfl
  | cons first rest ih =>
    by_cases hrest : rest = []
    · rw [hrest]
      rfl
    · rw [join_cons hrest, List.append_assoc, List.singleton_append, h.replace_append_sep, ih,
        List.map_cons, join_cons (by simpa using hrest), List.append_assoc, List.singleton_append]

end StopsAt

end ReportQuery.Text
