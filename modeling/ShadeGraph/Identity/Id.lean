import ShadeGraph.Text.Lowercase
import ShadeGraph.Text.Quoted

/-!
# Material ids

An id is minted when a material is first registered. Ids may come back in another case, so they are
compared without regard to it, and an empty id is never equal to anything.
-/

namespace ShadeGraph

namespace Identity

/-- Characters that file and node names cannot hold. -/
def invalidCharacters : String := "\\/:?\"<>|"

def cleanName (name : String) : String :=
  String.ofList (name.toList.filter fun c => !invalidCharacters.toList.contains c)

/-- A slash of either kind, a colon, a question mark, a double quote, a pointed bracket or a bar. -/
def IsInvalid (c : Char) : Prop :=
  c = '\\' ∨ c = '/' ∨ c = ':' ∨ c = '?' ∨ c = '"' ∨ c = '<' ∨ c = '>' ∨ c = '|'

/-- What is left of characters when the invalid ones are dropped. -/
inductive Strips : List Char → List Char → Prop
  | nil : Strips [] []
  | drop {c : Char} {cs rest : List Char} : IsInvalid c → Strips cs rest → Strips (c :: cs) rest
  | keep {c : Char} {cs rest : List Char} : ¬ IsInvalid c → Strips cs rest →
    Strips (c :: cs) (c :: rest)

theorem isValid_iff {c : Char} : (!invalidCharacters.toList.contains c) = true ↔ ¬ IsInvalid c := by
  simp [invalidCharacters, IsInvalid]

theorem strips_iff {cs rest : List Char} :
    Strips cs rest ↔ cs.filter (fun c => !invalidCharacters.toList.contains c) = rest := by
  constructor
  · intro h
    induction h with
    | nil => rfl
    | drop hc _ ih => rw [List.filter_cons, if_neg fun hvalid => isValid_iff.mp hvalid hc, ih]
    | keep hc _ ih => rw [List.filter_cons, if_pos (isValid_iff.mpr hc), ih]
  · rintro rfl
    induction cs with
    | nil => exact .nil
    | cons c cs ih =>
      by_cases hc : IsInvalid c
      · rw [List.filter_cons, if_neg fun hvalid => isValid_iff.mp hvalid hc]
        exact .drop hc ih
      · rw [List.filter_cons, if_pos (isValid_iff.mpr hc)]
        exact .keep hc ih

/-- A clean name is the one without its invalid characters, all others in their order. -/
theorem strips_cleanName_iff {name rest : String} :
    Strips name.toList rest.toList ↔ cleanName name = rest := by
  rw [strips_iff, cleanName, ← String.toList_inj, String.toList_ofList]

def emptyId : String := "00000000-0000-0000-0000-000000000000"

def isEmptyId (id : String) : Bool := id.isEmpty || id == emptyId

/-- Whether two ids agree up to case. -/
def sameId (a b : String) : Bool :=
  !a.isEmpty && !b.isEmpty && a.length == b.length && Text.lower a == Text.lower b

/-- The ids are not empty, of one length and equal up to case. -/
def Agree (a b : String) : Prop :=
  a ≠ "" ∧ b ≠ "" ∧ a.length = b.length ∧ Text.lower a = Text.lower b

theorem sameId_iff {a b : String} : sameId a b = true ↔ Agree a b := by
  simp [sameId, Agree, and_assoc]

end Identity

/-- Where ids come from: first those that were chosen beforehand, then numbered ones. -/
structure IdSupply where
  chosen : List String := []
  minted : Nat := 0
deriving DecidableEq, Repr

namespace IdSupply

/-- The `n`-th numbered id. -/
def numbered (n : Nat) : String :=
  Text.hex 8 n ++ "-0000-4000-8000-" ++ Text.hex 12 n

/-- The next id, in lower case, and the supply behind it. -/
def mint (supply : IdSupply) : String × IdSupply :=
  let n := supply.minted + 1
  match supply.chosen with
  | id :: rest => (Text.lower id, ⟨rest, n⟩)
  | [] => (numbered n, ⟨[], n⟩)

end IdSupply

end ShadeGraph
