import ReportQuery.Json.Reader
import ReportQuery.Json.Writer
/-!
# Quoted texts are read back

Between its quotes, every character of a text is written as itself or as an escape (`Spells`), and
most characters can be written in several ways. The reader takes what a character is written as for
one unit, or for the two halves of a surrogate pair, and makes that character of it again
(`Spells.exists_units`). So a text is read back from its quotes, however it is spelled
(`read?_of_spelled`); the writer spells every text in one of these ways (`spelled_escaped`).
-/

namespace ReportQuery.Json

open ReportQuery.Text

variable {c : Char} {piece body text rest : List Char}

/-! ## Spellings -/

/-- **The ways to write a character between quotes.** A backslash stands before one letter, or
before `u` and the four hexadecimal digits of a code point; a code point of more digits is given by
the two halves of a surrogate pair. -/
inductive Spells : List Char → Char → Prop
  | plain {c : Char} (hquote : c ≠ '"') (hslash : c ≠ '\\') (hcontrol : 0x20 ≤ c.toNat) :
      Spells [c] c
  | short {e c : Char} (he : escapeUnit? e = some c.toNat) : Spells ['\\', e] c
  | hex {w x y z c : Char} (hunit : hexUnit? w x y z = some c.toNat) :
      Spells ['\\', 'u', w, x, y, z] c
  | pair {w x y z w' x' y' z' c : Char} {high low : Nat} (hhigh : hexUnit? w x y z = some high)
      (hlow : hexUnit? w' x' y' z' = some low) (hfirst : isHighHalf high = true)
      (hsecond : isLowHalf low = true)
      (hc : c.toNat = 0x10000 + (high - 0xD800) * 0x400 + (low - 0xDC00)) :
      Spells ['\\', 'u', w, x, y, z, '\\', 'u', w', x', y', z'] c

theorem Spells.ne_nil (h : Spells piece c) : piece ≠ [] := by
  cases h <;> exact List.cons_ne_nil _ _

/-- Every character of a text is spelled, one after the other. -/
inductive Spelled : (body text : List Char) → Prop
  | nil : Spelled [] []
  | cons {piece body text : List Char} {c : Char} (hpiece : Spells piece c)
      (hbody : Spelled body text) : Spelled (piece ++ body) (c :: text)

/-! ## Writing -/

/-- A control character is read back from the four digits of its escape. -/
theorem hexUnit?_control {n : Nat} (h : n < 0x20) :
    hexUnit? '0' '0' (hexDigit (n / 16)) (hexDigit (n % 16)) = some n := by
  revert n
  decide

/-- **The writer spells every character.** -/
theorem spells_escaped (c : Char) : Spells (escaped c) c := by
  unfold escaped
  iterate 7
    split
    · next hc => exact .short (by rw [hc]; rfl)
  split
  · next hc => exact .hex (hexUnit?_control hc)
  · next hquote hslash _ _ _ _ _ hcontrol => exact .plain hquote hslash (Nat.le_of_not_lt hcontrol)

theorem spelled_escaped (text : List Char) : Spelled (text.flatMap escaped) text := by
  induction text with
  | nil => exact .nil
  | cons c text ih => exact .cons (spells_escaped c) ih

/-! ## Reading -/

/-- No character is half a surrogate pair. -/
theorem not_half (c : Char) : isHighHalf c.toNat = false ∧ isLowHalf c.toNat = false := by
  have hvalid : c.toNat < 0xD800 ∨ 0xDFFF < c.toNat ∧ c.toNat < 0x110000 := c.valid
  simp only [isHighHalf, isLowHalf, Bool.and_eq_false_iff, decide_eq_false_iff_not]
  omega

/-- The code point of a character is that character. -/
theorem ofUnits?_char (c : Char) (units : List Nat) :
    ofUnits? (c.toNat :: units) = (ofUnits? units).map (c :: ·) := by
  obtain ⟨hhigh, hlow⟩ := not_half c
  cases units with
  | nil => simp [ofUnits?, hhigh, hlow]
  | cons next units => simp [ofUnits?, hhigh, hlow]

/-- **The reader takes what a character is spelled as for units of that character.** -/
theorem Spells.exists_units (h : Spells piece c) : ∃ units,
    (∀ read rest, units? read (piece ++ rest) = units? (units.reverse ++ read) rest) ∧
      ∀ others, ofUnits? (units ++ others) = (ofUnits? others).map (c :: ·) := by
  cases h with
  | plain hquote hslash hcontrol =>
    refine ⟨[c.toNat], fun read rest => ?_, ofUnits?_char c⟩
    rw [List.singleton_append, units?, if_neg (Nat.not_lt.2 hcontrol)]
    -- the other ways to read it start with a quote or a backslash
    · rfl
    · exact hquote
    · rintro _ _ _ _ _ rfl
      exact absurd rfl hslash
    · rintro _ _ rfl
      exact absurd rfl hslash
  | @short e c he =>
    refine ⟨[c.toNat], fun read rest => ?_, ofUnits?_char c⟩
    have hu : e ≠ 'u' := by
      rintro rfl
      cases he
    simp only [List.cons_append, List.nil_append]
    -- no `u` behind the backslash, so no digits are read
    rw [units?, he]
    · rfl
    · rintro _ _ _ _ _ rfl
      exact absurd rfl hu
  | hex hunit =>
    refine ⟨[c.toNat], fun read rest => ?_, ofUnits?_char c⟩
    simp only [List.cons_append, List.nil_append]
    rw [units?, hunit]
    rfl
  | @pair w x y z w' x' y' z' c high low hhigh hlow hfirst hsecond hc =>
    refine ⟨[high, low], fun read rest => ?_, fun others => ?_⟩
    · simp only [List.cons_append, List.nil_append]
      rw [units?, hhigh]
      simp only
      rw [units?, hlow]
      rfl
    · simp only [List.cons_append, List.nil_append]
      rw [ofUnits?, hfirst, hsecond, ← hc, Char.ofNat_toNat]
      rfl

/-- The units of a spelled text are those of its characters. -/
theorem Spelled.exists_units (h : Spelled body text) (rest : List Char) : ∃ units,
    (∀ read, units? read (body ++ '"' :: rest) = some (read.reverse ++ units, rest)) ∧
      ofUnits? units = some text := by
  induction h with
  | nil => exact ⟨[], fun read => by rw [List.nil_append, units?, List.append_nil], rfl⟩
  | @cons piece body text c hpiece _ ih =>
    obtain ⟨units, hread, hchar⟩ := hpiece.exists_units
    obtain ⟨others, hothers, htext⟩ := ih
    refine ⟨units ++ others, fun read => ?_, ?_⟩
    · rw [List.append_assoc, hread, hothers, List.reverse_append, List.reverse_reverse,
        List.append_assoc]
    · rw [hchar, htext, Option.map_some]

/-- What follows the opening quote is read as the text and what stands behind the closing one. -/
theorem quoted?_of_spelled (h : Spelled body text) (rest : List Char) :
    quoted? (body ++ '"' :: rest) = some (some (String.ofList text), rest) := by
  obtain ⟨units, hunits, htext⟩ := h.exists_units rest
  rw [quoted?, hunits, Option.map_some, List.reverse_nil, List.nil_append]
  dsimp only
  rw [htext, Option.map_some]

/-- **A text is read back from its quotes**, however it is spelled. -/
theorem read?_of_spelled (h : Spelled body text) :
    read? ('"' :: (body ++ ['"'])) = some (.string (String.ofList text)) := by
  have hvalue (fuel levels : Nat) : value? (fuel + 1) levels ('"' :: (body ++ ['"'])) =
      some (.string (String.ofList text), []) := by
    have hskip : skipSpace ('"' :: (body ++ ['"'])) = '"' :: (body ++ ['"']) := rfl
    rw [value?, hskip]
    simp only
    rw [quoted?_of_spelled h]
    rfl
  rw [read?, skim?, hvalue]
  rfl

end ReportQuery.Json
