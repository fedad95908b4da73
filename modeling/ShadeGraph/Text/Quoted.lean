import ShadeGraph.Text.CaseTable
import ShadeGraph.Text.Points
import ShadeGraph.Text.PrintableTable

/-!
# Quoted text

Text and bytes in messages stand in single quotes, or in double quotes if they hold a single quote
and no double one. Backslash, the quote in use, tab and line ends are escaped by a backslash;
whatever has no picture is spelled by number.
-/

namespace ShadeGraph.Text

/-- The lower-case hexadecimal digits of `n`, at least `width` of them. -/
def hex (width n : Nat) : String :=
  let s := Nat.toDigits 16 n
  String.ofList (List.replicate (width - s.length) '0' ++ s)

def isHexDigit (c : Char) : Bool :=
  c.isDigit || 'a' ≤ c && c ≤ 'f' || 'A' ≤ c && c ≤ 'F'

/-- The value of a hexadecimal digit. -/
def hexValue (c : Char) : Nat :=
  if c.isDigit then c.toNat - '0'.toNat
  else if c.toNat < 'a'.toNat then c.toNat - 'A'.toNat + 10
  else c.toNat - 'a'.toNat + 10

def isPrintable (c : Char) : Bool :=
  if c.toNat < 0x7f then 0x20 ≤ c.toNat else !inRanges unprintableRanges c.toNat

/-- The number of a character behind the letter for its width. -/
def numbered (n : Nat) : String :=
  if n ≤ 0xff then "\\x" ++ hex 2 n
  else if n ≤ 0xffff then "\\u" ++ hex 4 n
  else "\\U" ++ hex 8 n

def escapeChar (quote : Char) (c : Char) : String :=
  if c = quote ∨ c = '\\' then String.ofList ['\\', c]
  else if c = '\t' then "\\t"
  else if c = '\n' then "\\n"
  else if c = '\r' then "\\r"
  else if isPrintable c then c.toString
  else numbered c.toNat

/-- A surrogate that stands alone has no picture. -/
def escapePoint (quote : Char) (p : CodePoint) : String :=
  if p.IsSurrogate then numbered p.val else escapeChar quote (Char.ofNat p.val)

/-- Double quotes only where they save an escape. -/
def quoteFor (cs : List Char) : Char :=
  if cs.contains '\'' && !cs.contains '"' then '"' else '\''

def quoted (s : String) : String :=
  let q := quoteFor s.toList
  q.toString ++ String.join ((points s).map (escapePoint q)) ++ q.toString

/-- Bytes, read as characters; those beyond ASCII are spelled by number. -/
def quotedBytes (bytes : List UInt8) : String :=
  let cs := bytes.map fun b => Char.ofNat b.toNat
  let q := quoteFor cs
  let escape (c : Char) : String := if c.toNat < 0x7f then escapeChar q c else numbered c.toNat
  "b" ++ q.toString ++ String.join (cs.map escape) ++ q.toString

/-- Items in parentheses; a single one is followed by a comma. -/
def tuple : List String → String
  | [] => "()"
  | [x] => "(" ++ x ++ ",)"
  | xs => "(" ++ ", ".intercalate xs ++ ")"

end ShadeGraph.Text
