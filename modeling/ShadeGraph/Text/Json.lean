import ShadeGraph.Number.Numeral
import ShadeGraph.Text.Quoted
import ShadeGraph.Text.Value

/-!
# Scene descriptions in JSON

Hosts hand over scenes, settings and engine results as JSON. A number keeps its literal, so whole
numbers stay apart from others and zero keeps its sign; infinities and the absence of a number have
literals too. A string keeps surrogates that stand alone, and an object keeps the order of its
entries. Reading a text is lenient and never fails: what is missing is `null`.
-/

namespace ShadeGraph

inductive Json where
  | null
  | flag (b : Bool)
  | number (literal : String)
  | text (content : String)
  | list (items : List Json)
  | object (entries : List (String × Json))

namespace Json

/-! ### Reading -/

def isBlank (c : Char) : Bool := c = ' ' || c = '\n' || c = '\t' || c = '\r'

def skipBlank (cs : List Char) : List Char := cs.dropWhile isBlank

/-- Puts a code point before those read so far; the second half of a pair joins the first. -/
def addPoint (read : List CodePoint) (n : Nat) : List CodePoint :=
  match read with
  | high :: rest =>
    if 0xd800 ≤ high.val && high.val < 0xdc00 && 0xdc00 ≤ n && n < 0xe000 then
      CodePoint.ofNat (0x10000 + (high.val - 0xd800) * 0x400 + (n - 0xdc00)) :: rest
    else CodePoint.ofNat n :: read
  | [] => [CodePoint.ofNat n]

/-- The code of the character that an escape letter stands for. -/
def unescape : Char → Nat
  | 'n' => 10
  | 't' => 9
  | 'r' => 13
  | 'b' => 8
  | 'f' => 12
  | c => c.toNat

/-- The string up to its closing quote, and what follows. -/
def readString (read : List CodePoint) : List Char → String × List Char
  | [] => (Text.spell read.reverse, [])
  | '"' :: rest => (Text.spell read.reverse, rest)
  | '\\' :: 'u' :: a :: b :: c :: d :: rest =>
    readString (addPoint read ([a, b, c, d].foldl (fun n c => 16 * n + Text.hexValue c) 0)) rest
  | '\\' :: c :: rest => readString (CodePoint.ofNat (unescape c) :: read) rest
  | c :: rest => readString (CodePoint.ofNat c.toNat :: read) rest

def isNumeral (c : Char) : Bool := c.isAlphanum || "+-.".toList.contains c

mutual

/-- A value and what follows it; `fuel` bounds the number of parts that are read. -/
def read : Nat → List Char → Json × List Char
  | 0, cs => (null, cs)
  | fuel + 1, cs =>
    match skipBlank cs with
    | 'n' :: rest => (null, rest.drop 3)
    | 't' :: rest => (flag true, rest.drop 3)
    | 'f' :: rest => (flag false, rest.drop 4)
    | '"' :: rest => let (s, rest) := readString [] rest; (text s, rest)
    | '[' :: rest => readItems fuel [] rest
    | '\x7b' :: rest => readEntries fuel [] rest
    | cs =>
      match cs.takeWhile isNumeral with
      | [] => (null, cs.drop 1)
      | literal => (number (String.ofList literal), cs.dropWhile isNumeral)

def readItems : Nat → List Json → List Char → Json × List Char
  | 0, items, cs => (list items.reverse, cs)
  | fuel + 1, items, cs =>
    match skipBlank cs with
    | [] => (list items.reverse, [])
    | ']' :: rest => (list items.reverse, rest)
    | ',' :: rest => readItems fuel items rest
    | cs => let (item, rest) := read fuel cs; readItems fuel (item :: items) rest

def readEntries : Nat → List (String × Json) → List Char → Json × List Char
  | 0, entries, cs => (object entries.reverse, cs)
  | fuel + 1, entries, cs =>
    match skipBlank cs with
    | ',' :: rest => readEntries fuel entries rest
    | '"' :: rest =>
      let (key, rest) := readString [] rest
      let (value, rest) := read fuel ((skipBlank rest).drop 1)
      readEntries fuel ((key, value) :: entries) rest
    | cs => (object entries.reverse, cs.drop 1)

end

/-- The value at the beginning of a text. -/
def ofString (s : String) : Json := (read (s.length + 1) s.toList).1

/-! ### Parts and their types -/

def get (j : Json) (key : String) : Json :=
  match j with
  | object entries => (entries.lookup key).getD null
  | _ => null

def contains (j : Json) (key : String) : Bool :=
  match j with
  | object entries => (entries.lookup key).isSome
  | _ => false

def isNull : Json → Bool
  | null => true
  | _ => false

def isObject : Json → Bool
  | object _ => true
  | _ => false

def toOption {β : Type} (f : Json → β) (j : Json) : Option β := if j.isNull then none else some (f j)

def items : Json → List Json
  | list items => items
  | _ => []

def entries : Json → List (String × Json)
  | object entries => entries
  | _ => []

def toText : Json → String
  | text s => s
  | _ => ""

/-- A literal of digits alone, with or without a sign. -/
def isWhole (literal : String) : Bool := literal.toList.all fun c => c.isDigit || c = '-'

/-- The value of a literal up to the first character that is no digit. -/
def toInt : Json → Int
  | number literal =>
    (Numeral.integer? (literal.toList.takeWhile fun c => c.isDigit || c = '-')).getD 0
  | flag true => 1
  | _ => 0

/-- The double nearest to a literal. A whole zero has no sign. -/
def literalFloat (literal : String) : Float :=
  let x := (Numeral.double? literal).getD 0.0
  if isWhole literal && x == 0.0 then 0.0 else x

/-- Zero and everything empty count as false. -/
def toBool : Json → Bool
  | null => false
  | flag b => b
  | number literal => literalFloat literal != 0.0
  | text s => !s.isEmpty
  | list items => !items.isEmpty
  | object entries => !entries.isEmpty

/-! ### Values -/

mutual

/-- The value that is written as this. -/
def toValue : Json → Value Float
  | null => .absent
  | flag b => .flag b
  | number literal =>
    if isWhole literal then .integer (toInt (.number literal)) else .number (literalFloat literal)
  | text s => .text s
  | list items => .list (listValues items)
  | object entries => .entries (entryValues entries)

def listValues : List Json → List (Value Float)
  | [] => []
  | item :: items => item.toValue :: listValues items

def entryValues : List (String × Json) → List (String × Value Float)
  | [] => []
  | (key, value) :: entries => (key, value.toValue) :: entryValues entries

end

/-- The kind of a value, as messages name it. -/
def kindName (j : Json) : String := j.toValue.kindName

/-! ### Writing -/

def escape (c : Char) : String :=
  if c = '"' || c = '\\' then String.ofList ['\\', c]
  else if c.toNat < 0x20 then "\\u" ++ Text.hex 4 c.toNat
  else c.toString

/-- A surrogate that stands alone is written by number. -/
def escapePoint (p : CodePoint) : String :=
  if p.IsSurrogate then "\\u" ++ Text.hex 4 p.val else escape (Char.ofNat p.val)

/-- A string in quotes. -/
def quote (s : String) : String := "\"" ++ String.join ((Text.points s).map escapePoint) ++ "\""

/-- Written items in brackets. -/
def bracket (items : List String) : String := "[" ++ ", ".intercalate items ++ "]"

/-- Written entries in braces. -/
def brace (entries : List (String × String)) : String :=
  "\x7b" ++ ", ".intercalate (entries.map fun (key, value) => quote key ++ ": " ++ value) ++ "\x7d"

/-- Whole numbers keep their digits, others get the fewest that read back. -/
def renderNumber (literal : String) : String :=
  if isWhole literal then toString (number literal).toInt
  else
    let x := literalFloat literal
    if x.isNaN then "NaN"
    else if x.isInf then Number.sign (x < 0.0) ++ "Infinity"
    else Number.shortest x

mutual

/-- A value as text. -/
def render : Json → String
  | null => "null"
  | flag true => "true"
  | flag false => "false"
  | number literal => renderNumber literal
  | text s => quote s
  | list items => bracket (renderItems items)
  | object entries => brace (renderEntries entries)

def renderItems : List Json → List String
  | [] => []
  | item :: items => item.render :: renderItems items

def renderEntries : List (String × Json) → List (String × String)
  | [] => []
  | (key, value) :: entries => (key, value.render) :: renderEntries entries

end

end Json

end ShadeGraph
