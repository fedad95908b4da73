/-!
# Code points of texts

A host may hand over any code points as a text, surrogates that stand alone included, and no string
holds such a surrogate. A string spells each of them by two characters: a mark, and a character of
the last plane that tells which one it is. The mark itself is spelled twice, so `Text.points` gives
back exactly what `Text.spell` was given.
-/

namespace ShadeGraph

abbrev CodePoint := Fin 0x110000

namespace CodePoint

/-- The code point with this number; numbers beyond the last one start again. -/
def ofNat (n : Nat) : CodePoint := ⟨n % 0x110000, Nat.mod_lt n (by decide)⟩

def ofChar (c : Char) : CodePoint :=
  ⟨c.toNat, by
    have h : c.toNat < 0xd800 ∨ 0xdfff < c.toNat ∧ c.toNat < 0x110000 := c.valid
    omega⟩

/-- Half of a UTF-16 pair. -/
def IsSurrogate (p : CodePoint) : Prop := 0xd800 ≤ p.val ∧ p.val < 0xe000

instance (p : CodePoint) : Decidable p.IsSurrogate :=
  inferInstanceAs (Decidable (0xd800 ≤ p.val ∧ p.val < 0xe000))

end CodePoint

theorem toNat_charOfNat {n : Nat} (h : n.isValidChar) : (Char.ofNat n).toNat = n := by
  rw [Char.ofNat, dif_pos h]
  rfl

namespace Text

/-- The mark in front of a spelled surrogate: the last code point, which stands for no character. -/
def mark : Char := Char.ofNat 0x10ffff

/-- How far the characters for surrogates are from these. -/
def surrogateShift : Nat := 0x100000 - 0xd800

def spellPoint (p : CodePoint) : List Char :=
  if p.IsSurrogate then [mark, Char.ofNat (p.val + surrogateShift)]
  else if p.val = 0x10ffff then [mark, mark]
  else [Char.ofNat p.val]

/-- The string for code points. -/
def spell (points : List CodePoint) : String := String.ofList (points.flatMap spellPoint)

/-- What a character behind a mark stands for: a surrogate, or else itself. -/
def markedPoint (c : Char) : CodePoint :=
  if 0x100000 ≤ c.toNat ∧ c.toNat < 0x100800 then CodePoint.ofNat (c.toNat - surrogateShift)
  else CodePoint.ofChar c

def charPoints : List Char → List CodePoint
  | [] => []
  | [c] => [CodePoint.ofChar c]
  | c :: d :: rest =>
    if c = mark then markedPoint d :: charPoints rest
    else CodePoint.ofChar c :: charPoints (d :: rest)

theorem charPoints_cons {c : Char} (h : c ≠ mark) (rest : List Char) :
    charPoints (c :: rest) = CodePoint.ofChar c :: charPoints rest := by
  cases rest with
  | nil => rfl
  | cons d rest => simp only [charPoints, if_neg h]

/-- The code points of a text. -/
def points (s : String) : List CodePoint := charPoints s.toList

theorem charPoints_spellPoint (p : CodePoint) (rest : List Char) :
    charPoints (spellPoint p ++ rest) = p :: charPoints rest := by
  unfold spellPoint
  have hp := p.isLt
  by_cases hs : p.IsSurrogate
  · obtain ⟨low, high⟩ := hs
    have hv : (p.val + surrogateShift).isValidChar := by
      unfold surrogateShift
      exact .inr ⟨by omega, by omega⟩
    rw [if_pos ⟨low, high⟩]
    simp only [List.cons_append, List.nil_append, charPoints, ↓reduceIte, markedPoint,
      toNat_charOfNat hv, List.cons.injEq, and_true]
    unfold surrogateShift
    rw [if_pos (by omega)]
    ext
    simp only [CodePoint.ofNat]
    omega
  · rw [if_neg hs]
    by_cases hm : p.val = 0x10ffff
    · rw [if_pos hm]
      simp only [List.cons_append, List.nil_append, charPoints, ↓reduceIte, List.cons.injEq,
        and_true]
      ext
      rw [hm]
      decide
    · have hv : p.val.isValidChar := by
        unfold CodePoint.IsSurrogate at hs
        unfold Nat.isValidChar
        omega
      have hc : Char.ofNat p.val ≠ mark := fun h => by
        have := congrArg Char.toNat h
        rw [toNat_charOfNat hv] at this
        exact hm this
      rw [if_neg hm]
      rw [List.cons_append, List.nil_append, charPoints_cons hc]
      congr 1
      ext
      exact toNat_charOfNat hv

/-- Spelling loses nothing. -/
theorem points_spell (points : List CodePoint) : Text.points (spell points) = points := by
  simp only [Text.points, spell, String.toList_ofList]
  induction points with
  | nil => rfl
  | cons p points ih => rw [List.flatMap_cons, charPoints_spellPoint, ih]

end Text

end ShadeGraph
