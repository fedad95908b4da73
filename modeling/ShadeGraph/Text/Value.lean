import ShadeGraph.Number.Scalar
import ShadeGraph.Text.Quoted

/-!
# Values in texts

Engines log values of any kind, nodes have parameters of several kinds, and hosts name sets of
coordinates by whatever they like. `Value.same` tells which values count as the same.
`Value.display` is the text of a value in a message, where the parts of a list are quoted;
`Value.parameter` is the text of a parameter in the description of a network, where the parts are
separated by blanks.
-/

namespace ShadeGraph

inductive Value (α : Type) where
  | absent
  | flag (b : Bool)
  | integer (n : Int)
  | number (a : α)
  | text (s : String)
  | list (items : List (Value α))
  | entries (items : List (String × Value α))

namespace Value

instance {α : Type} : Inhabited (Value α) := ⟨absent⟩

/-! ### Equality -/

section Equality

variable {α : Type} [DecidableEq α]

mutual

def decEq : (v w : Value α) → Decidable (v = w)
  | absent, absent => isTrue rfl
  | flag a, flag b => decidable_of_iff (a = b) (by simp)
  | integer m, integer n => decidable_of_iff (m = n) (by simp)
  | number a, number b => decidable_of_iff (a = b) (by simp)
  | text s, text t => decidable_of_iff (s = t) (by simp)
  | list vs, list ws =>
    have := decEqItems vs ws
    decidable_of_iff (vs = ws) (by simp)
  | entries vs, entries ws =>
    have := decEqEntries vs ws
    decidable_of_iff (vs = ws) (by simp)
  | absent, flag _ | absent, integer _ | absent, number _ | absent, text _ | absent, list _
  | absent, entries _ | flag _, absent | flag _, integer _ | flag _, number _ | flag _, text _
  | flag _, list _ | flag _, entries _ | integer _, absent | integer _, flag _
  | integer _, number _ | integer _, text _ | integer _, list _ | integer _, entries _
  | number _, absent | number _, flag _ | number _, integer _ | number _, text _
  | number _, list _ | number _, entries _ | text _, absent | text _, flag _ | text _, integer _
  | text _, number _ | text _, list _ | text _, entries _ | list _, absent | list _, flag _
  | list _, integer _ | list _, number _ | list _, text _ | list _, entries _
  | entries _, absent | entries _, flag _ | entries _, integer _ | entries _, number _
  | entries _, text _ | entries _, list _ => isFalse nofun

def decEqItems : (vs ws : List (Value α)) → Decidable (vs = ws)
  | [], [] => isTrue rfl
  | [], _ :: _ | _ :: _, [] => isFalse nofun
  | v :: vs, w :: ws =>
    have := decEq v w
    have := decEqItems vs ws
    decidable_of_iff (v = w ∧ vs = ws) (by simp)

def decEqEntries : (vs ws : List (String × Value α)) → Decidable (vs = ws)
  | [], [] => isTrue rfl
  | [], _ :: _ | _ :: _, [] => isFalse nofun
  | (a, v) :: vs, (b, w) :: ws =>
    have := decEq v w
    have := decEqEntries vs ws
    decidable_of_iff ((a = b ∧ v = w) ∧ vs = ws) (by simp)

end

instance : DecidableEq (Value α) := decEq

end Equality

variable {α : Type} [Scalar α]

/-! ### Sameness -/

/-- Zero and everything empty count as false. -/
def toBool : Value α → Bool
  | absent => false
  | flag b => b
  | integer n => n != 0
  | number a => !Scalar.eq a 0.0
  | text s => !s.isEmpty
  | list items => !items.isEmpty
  | entries items => !items.isEmpty

/-- The kind of a value, as messages name it. -/
def kindName : Value α → String
  | absent => "NoneType"
  | flag _ => "bool"
  | integer _ => "int"
  | number _ => "float"
  | text _ => "str"
  | list _ => "list"
  | entries _ => "dict"

/-- A flag as a number, and a whole number as such. -/
def whole? : Value α → Option Int
  | flag b => some (if b then 1 else 0)
  | integer n => some n
  | number a => Scalar.whole? a
  | _ => none

/-- A flag as a number, and a whole number that is written as one. -/
def integer? : Value α → Option Int
  | flag b => some (if b then 1 else 0)
  | integer n => some n
  | _ => none

/-- Whether two values without parts count as the same: numbers and flags go by what they amount to. -/
def sameAtom (v w : Value α) : Bool :=
  match v.whole?, w.whole? with
  | some m, some n => m == n
  | none, none =>
    match v, w with
    | absent, absent => true
    | number a, number b => Scalar.eq a b
    | text s, text t => s == t
    | _, _ => false
  | _, _ => false

mutual

/-- Whether two values count as the same. The order of entries does not matter. -/
def same : (v w : Value α) → Bool
  | list vs, w =>
    match w with
    | list ws => sameItems vs ws
    | _ => false
  | entries vs, w =>
    match w with
    | entries ws => vs.length == ws.length && sameEntries vs ws
    | _ => false
  | v, w => sameAtom v w

def sameItems : (vs ws : List (Value α)) → Bool
  | [], [] => true
  | v :: vs, w :: ws => v.same w && sameItems vs ws
  | _, _ => false

def sameEntries : (vs ws : List (String × Value α)) → Bool
  | [], _ => true
  | (k, v) :: vs, ws =>
    (match ws.lookup k with
      | some w => v.same w
      | none => false) && sameEntries vs ws

end

@[simp] theorem same_text (s t : String) : (text s : Value α).same (text t) = (s == t) := rfl

@[simp] theorem same_integer (m n : Int) : (integer m : Value α).same (integer n) = (m == n) := rfl

/-! ### Texts -/

mutual

/-- The text of a value inside another one. -/
def inner : Value α → String
  | absent => "None"
  | flag true => "True"
  | flag false => "False"
  | integer n => toString n
  | number a => Scalar.text a
  | text s => Text.quoted s
  | list items => "[" ++ ", ".intercalate (innerItems items) ++ "]"
  | entries items => "\x7b" ++ ", ".intercalate (innerEntries items) ++ "\x7d"

def innerItems : List (Value α) → List String
  | [] => []
  | v :: vs => v.inner :: innerItems vs

def innerEntries : List (String × Value α) → List String
  | [] => []
  | (k, v) :: vs => (Text.quoted k ++ ": " ++ v.inner) :: innerEntries vs

end

/-- The text of a value by itself. -/
def display : Value α → String
  | text s => s
  | v => v.inner

mutual

/-- The text of a parameter: parts are separated by blanks and texts are bare. -/
def parameter : Value α → String
  | flag true => "true"
  | flag false => "false"
  | list items => " ".intercalate (parameterTexts items)
  | v => v.display

def parameterTexts : List (Value α) → List String
  | [] => []
  | v :: vs => v.parameter :: parameterTexts vs

end

end Value

end ShadeGraph
