import ShadeGraph.Text.Points

/-!
# Names of host materials

A name is a sequence of code points. One with a surrogate that stands alone has no UTF-16 form.
Decoding accepts exactly what encoding produces.
-/

namespace ShadeGraph

/-- The code points of a name. -/
structure Name where
  points : List CodePoint
deriving DecidableEq, Repr

namespace Name

def ofString (s : String) : Name := ⟨Text.points s⟩

/-- The name as a string. -/
def display (name : Name) : String := Text.spell name.points

@[simp] theorem ofString_display (name : Name) : ofString name.display = name := by
  rw [ofString, display, Text.points_spell]

/-- The UTF-16 units of a code point. -/
def units (p : CodePoint) : Option (List Nat) :=
  if p.IsSurrogate then none
  else if p.val < 0x10000 then some [p.val]
  else some [0xd800 + (p.val - 0x10000) / 0x400, 0xdc00 + (p.val - 0x10000) % 0x400]

/-- The UTF-16 units of the name, if it has such a form. -/
def toUtf16? (name : Name) : Option (List Nat) := (name.points.mapM units).map List.flatten

/-- The code points of UTF-16 units. A surrogate without its partner is refused. -/
def pointsOfUtf16? : List Nat → Option (List CodePoint)
  | [] => some []
  | u :: rest =>
    if u < 0xd800 ∨ 0xe000 ≤ u ∧ u < 0x10000 then
      (pointsOfUtf16? rest).map (CodePoint.ofNat u :: ·)
    else
      match rest with
      | [] => none
      | v :: rest =>
        if 0xd800 ≤ u ∧ u < 0xdc00 ∧ 0xdc00 ≤ v ∧ v < 0xe000 then
          (pointsOfUtf16? rest).map
            (CodePoint.ofNat (0x10000 + (u - 0xd800) * 0x400 + (v - 0xdc00)) :: ·)
        else none

def ofUtf16? (us : List Nat) : Option Name := (pointsOfUtf16? us).map Name.mk

end Name

end ShadeGraph
