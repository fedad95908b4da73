import ShadeGraph.Text.Json

/-!
# Reading values

A description may hold anything where a number, an index or a list is asked for. What cannot serve as
such is refused, and `Json.ReadError` says why; there is a default only for what is left out.
-/

namespace ShadeGraph.Json

/-- Why something cannot be read. -/
inductive ReadError where
  /-- A text that is no numeral. -/
  | numeral (s : String)
  /-- Something that is neither a number nor a text. -/
  | kind (name : String)
  /-- A whole number out of the range of doubles. -/
  | range
  /-- Something with parts, which cannot be a key. -/
  | key (name : String)
  /-- Something without a length. -/
  | length (name : String)
  /-- Something without items. -/
  | iteration (name : String)
  /-- Something without items where a pair should be. -/
  | noPair (name : String)
  /-- A list of another length where a pair should be. -/
  | pairLength (count : Nat)
  /-- Something that cannot be a part of a text. -/
  | part (name : String)
  /-- Something that lacks what only others have. -/
  | lacks (name member : String)
  /-- Two things that cannot be put in order. -/
  | order (relation left right : String)
  /-- Something that cannot be an index. -/
  | index (name : String)
  /-- An index beyond the end. -/
  | outside
  /-- An index beyond all lists. -/
  | wide
  /-- Something that cannot be an end of a part of a list. -/
  | bound
  /-- Two things that cannot be added or subtracted. -/
  | operands (sign left right : String)
  /-- Something that cannot be put behind a text or a list. -/
  | joint (left right : String)
  /-- A length that is no number. -/
  | noLength
  /-- A length beyond all lists. -/
  | tooLong
  /-- A byte below zero or above 255. -/
  | byte
  /-- Something that is no whole number. -/
  | whole (name : String)
  /-- Something that is no text of bytes. -/
  | bytes (name : String)
  /-- A character that is no hexadecimal digit. -/
  | hexDigit (position : Nat)
  /-- None of the choices of a type. -/
  | choice (value type : String)
  /-- Lists whose items have different lengths, and the lengths above them. -/
  | ragged (shape : List Nat)
  /-- Lists inside more than this many others. -/
  | depth (limit : Nat)
deriving DecidableEq, Repr

def ReadError.message : ReadError → String
  | numeral s => "could not convert string to float: " ++ Text.quoted s
  | kind name => s!"float() argument must be a string or a real number, not '{name}'"
  | range => "int too large to convert to float"
  | key name => s!"unhashable type: '{name}'"
  | length name => s!"object of type '{name}' has no len()"
  | iteration name => s!"'{name}' object is not iterable"
  | noPair name => s!"cannot unpack non-iterable {name} object"
  | pairLength count =>
    if 2 < count then "too many values to unpack (expected 2)"
    else s!"not enough values to unpack (expected 2, got {count})"
  | part name => s!"'in <string>' requires string as left operand, not {name}"
  | lacks name member => s!"'{name}' object has no attribute '{member}'"
  | order relation left right =>
    s!"'{relation}' not supported between instances of '{left}' and '{right}'"
  | index name => s!"list indices must be integers or slices, not {name}"
  | outside => "list index out of range"
  | wide => "cannot fit 'int' into an index-sized integer"
  | bound => "slice indices must be integers or None or have an __index__ method"
  | operands sign left right => s!"unsupported operand type(s) for {sign}: '{left}' and '{right}'"
  | joint left right => s!"can only concatenate {left} (not \"{right}\") to {left}"
  | noLength => "arange: cannot compute length"
  | tooLong => "Maximum allowed size exceeded"
  | byte => "bytes must be in range(0, 256)"
  | whole name => s!"'{name}' object cannot be interpreted as an integer"
  | bytes name => s!"fromhex() argument must be str, not {name}"
  | hexDigit position => s!"non-hexadecimal number found in fromhex() arg at position {position}"
  | choice value type => s!"{value} is not a valid {type}"
  | ragged shape =>
    "setting an array element with a sequence. The requested array has an inhomogeneous shape after " ++
      s!"{shape.length} dimensions. The detected shape was {Text.tuple (shape.map toString)} + " ++
      "inhomogeneous part."
  | depth limit =>
    "setting an array element with a sequence. The requested array would exceed the maximum " ++
      s!"number of dimension of {limit}."

/-! ### Numbers -/

/-- A number, or a text that stands for one; anything else is refused. -/
def number? : Json → Except ReadError Float
  | flag b => .ok (if b then 1.0 else 0.0)
  | number literal =>
    let x := literalFloat literal
    if isWhole literal && x.isInf then .error .range else .ok x
  | text s =>
    match Numeral.double? s with
    | some x => .ok x
    | none => .error (.numeral s)
  | j => .error (.kind j.kindName)

/-- The place in a table that a value chooses: a whole number, also if it is written with a fraction
of zero. Other values without parts choose no place. -/
def place? (j : Json) : Except ReadError (Option Int) :=
  match j with
  | list _ | object _ => .error (.key j.kindName)
  | j => .ok j.toValue.whole?

/-! ### Lists -/

/-- Whole numbers that can be an index or an end of a part of some list. -/
def fitsIndex (i : Int) : Bool := -9223372036854775808 ≤ i && i < 9223372036854775808

/-- The place that an index chooses among `size` items. It counts from the end if it is below zero. -/
def index? (size : Nat) (j : Json) : Except ReadError Nat :=
  let place (i : Int) : Except ReadError Nat :=
    let k := if i < 0 then i + size else i
    if !fitsIndex i then .error .wide
    else if k < 0 || (size : Int) ≤ k then .error .outside
    else .ok k.toNat
  match j with
  | flag _ => place j.toInt
  | number literal => if isWhole literal then place j.toInt else .error (.index j.kindName)
  | _ => .error (.index j.kindName)

/-- The item at an index. -/
def at? {β : Type} (items : List β) (j : Json) : Except ReadError β := do
  match items[← j.index? items.length]? with
  | some item => return item
  | none => throw .outside

/-- An end of a part of a list. -/
def bound? (j : Json) : Except ReadError Int :=
  match j with
  | flag _ => .ok j.toInt
  | number literal => if isWhole literal then .ok j.toInt else .error .bound
  | _ => .error .bound

/-- A byte. -/
def byte? (j : Json) : Except ReadError UInt8 :=
  let byte (n : Int) : Except ReadError UInt8 :=
    if 0 ≤ n && n < 256 then .ok (UInt8.ofNat n.toNat) else .error .byte
  match j with
  | flag _ => byte j.toInt
  | number literal => if isWhole literal then byte j.toInt else .error (.whole j.kindName)
  | _ => .error (.whole j.kindName)

/-- The items of a list, the characters of a text, or the keys of an object. -/
def iterate? : Json → Except ReadError (List Json)
  | list items => .ok items
  | text s => .ok ((Text.points s).map fun p => text (Text.spell [p]))
  | object entries => .ok (entries.map fun e => text e.1)
  | j => .error (.iteration j.kindName)

/-- The two items of a pair. -/
def pair? (j : Json) : Except ReadError (Json × Json) := do
  match ← j.iterate?.mapError fun _ => .noPair j.kindName with
  | [a, b] => return (a, b)
  | items => throw (.pairLength items.length)

/-! ### Fields -/

/-- What stands under a key; `default` if nothing does. -/
def readAt {β : Type} (j : Json) (key : String) (read : Json → Except ReadError β) (default : β) :
    Except ReadError β :=
  if j.contains key then read (j.get key) else .ok default

def numberAt (j : Json) (key : String) (default : Float) : Except ReadError Float :=
  j.readAt key number? default

/-- What is described under a key, if that is not null. -/
def optionAt {β : Type} (j : Json) (key : String) (read : Json → Except ReadError β) :
    Except ReadError (Option β) :=
  if (j.get key).isNull then .ok none else some <$> read (j.get key)

/-- The items under a key. -/
def itemsAt (j : Json) (key : String) : Except ReadError (List Json) := j.readAt key iterate? []

/-- The items under a key; null stands for none. -/
def optionalItemsAt (j : Json) (key : String) : Except ReadError (List Json) :=
  return ((← j.optionAt key iterate?).getD [])

/-- The pairs under a key; null stands for none. -/
def pairsAt (j : Json) (key : String) : Except ReadError (List (Json × Json)) := do
  (← j.optionalItemsAt key).mapM pair?

def valueAt (j : Json) (key : String) (default : Value Float) : Value Float :=
  if j.contains key then (j.get key).toValue else default

/-- A name under a key, spelled as a message shows it. -/
def textAt (j : Json) (key : String) : String := (j.valueAt key (.text "")).display

/-- A name under a key; what counts as false is no name. -/
def optionalTextAt (j : Json) (key : String) : String :=
  if (j.get key).toBool then j.textAt key else ""

def intAt (j : Json) (key : String) : Int := (j.get key).toInt

/-- A flag under a key; `default` if nothing stands there. -/
def flagAt (j : Json) (key : String) (default : Bool) : Bool :=
  if j.contains key then (j.get key).toBool else default

/-- One of the named choices of a type. -/
def choice? {β : Type} (type : String) (ofName? : String → Option β) (j : Json) :
    Except ReadError β :=
  match ofName? j.toText with
  | some choice => .ok choice
  | none => .error (.choice j.toValue.inner type)

end ShadeGraph.Json
