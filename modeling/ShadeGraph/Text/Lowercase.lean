import ShadeGraph.Text.CaseTable

/-!
# Lower case

Each character goes to its lower case on its own, with two exceptions: the dotted capital I becomes
two characters, and a capital sigma at the end of a word becomes the final sigma.
-/

namespace ShadeGraph.Text

def CaseRun.lower? (r : CaseRun) (n : Nat) : Option Nat :=
  if r.first ≤ n ∧ n ≤ r.last ∧ (n - r.first) % r.step = 0 then some (n + r.shift).toNat else none

/-- The lower case of one character outside any context. -/
def lowerChar (c : Char) : Char :=
  ((lowerRuns.findSome? (·.lower? c.toNat)).map Char.ofNat).getD c

def isCaseIgnorable (c : Char) : Bool := inRanges caseIgnorableRanges c.toNat

def isCased (c : Char) : Bool := inRanges casedRanges c.toNat

/-- Whether the first character that is not skipped is cased. -/
def meetsCased (cs : List Char) : Bool := (cs.dropWhile isCaseIgnorable).head?.any isCased

/-- The lower case of `c` between the characters `before`, nearest first, and `after`. -/
def lowerBetween (before : List Char) (c : Char) (after : List Char) : List Char :=
  if c = 'Σ' then [if meetsCased before && !meetsCased after then 'ς' else 'σ']
  else if c = 'İ' then ['i', '\u0307']
  else [lowerChar c]

def lowerChars (before : List Char) : List Char → List Char
  | [] => []
  | c :: after => lowerBetween before c after ++ lowerChars (c :: before) after

def lower (s : String) : String := String.ofList (lowerChars [] s.toList)

end ShadeGraph.Text
