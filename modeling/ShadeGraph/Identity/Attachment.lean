import ShadeGraph.Identity.Bytes
import ShadeGraph.Identity.Record
import ShadeGraph.Text.Detail
import ShadeGraph.Text.Quoted

/-!
# The identity attachment

The records of a session travel with its scene as bytes. The plain layout is a count followed by the
records: handle, id, name, and the slots with their generated materials. Strings have their length in
front, terminator included; ids are ASCII and names UTF-16. The versioned layout puts a magic number
and a version before the plain one.

Reading never goes past the end. A count is compared with the bytes that are left before anything is
read for it, and every byte has to be used.
-/

namespace ShadeGraph.Attachment

def magic : List UInt8 := [0x53, 0x47, 0x4d, 0x4d]

def version : Nat := 1

/-- The name of the attachment in a scene. -/
def mapName : String := "MaterialIdentityMap"

/-! ### Messages -/

/-- What a message says of a record that the layout has no place for. -/
def unwritablePhrase : String := "cannot be written to the identity attachment: "

/-- What a message says of bytes in a wrong encoding. -/
def invalidPhrase (encoding : String) : String := s!"is not valid {encoding}: "

/-- Behind these phrases messages go into the details of an encoding. -/
def detailPhrases : List String :=
  [invalidPhrase "ascii", invalidPhrase "utf-16-le", unwritablePhrase]

/-- A message, warning or logged text as it is shown, without such details. -/
def shown (text : String) : String := Text.cutDetails detailPhrases text

/-! ### Writing -/

/-- Why records cannot be written. -/
inductive EncodeError where
  /-- A record holds something that the layout has no place for. -/
  | record (name : Name)
  | tooMany (count : Nat)
deriving DecidableEq, Repr

def EncodeError.message : EncodeError → String
  | record name => s!"Material '{name.display}' {unwritablePhrase}"
  | tooMany _ => "int too large to convert"

def encodeCount? (n : Nat) : Option (List UInt8) :=
  if n < Bytes.modulus 8 then some (Bytes.ofNat 8 n) else none

def encodeString? (text terminator : List UInt8) : Option (List UInt8) := do
  return (← encodeCount? (text.length + terminator.length)) ++ text ++ terminator

def ascii? (s : String) : Option (List UInt8) :=
  s.toList.mapM fun c => if c.toNat < 0x80 then some (UInt8.ofNat c.toNat) else none

def utf16? (name : Name) : Option (List UInt8) := name.toUtf16?.map Bytes.ofUnits

def encodeHandle? (handle : Int) : Option (List UInt8) :=
  if 0 ≤ handle then encodeCount? handle.toNat else none

def encodeIndex? (n : Int) : Option (List UInt8) :=
  if Bytes.Fits 4 n then some (Bytes.ofInt 4 n) else none

def encodePair? (pair : Int × Int) : Option (List UInt8) := do
  return (← encodeIndex? pair.1) ++ (← encodeIndex? pair.2)

def encodeRecord? (r : MaterialRecord) : Option (List UInt8) := do
  let handle ← encodeHandle? r.handle
  let id ← encodeString? (← ascii? r.materialId) [0]
  let name ← encodeString? (← utf16? r.name) [0, 0]
  let count ← encodeCount? r.generatedOf.length
  let pairs ← r.generatedOf.mapM encodePair?
  return handle ++ id ++ name ++ count ++ pairs.flatten

def encodeRecord (r : MaterialRecord) : Except EncodeError (List UInt8) :=
  match encodeRecord? r with
  | some bytes => .ok bytes
  | none => .error (.record r.name)

/-- The plain layout. -/
def encode (records : List MaterialRecord) : Except EncodeError (List UInt8) :=
  match encodeCount? records.length with
  | some count => do return count ++ (← records.mapM encodeRecord).flatten
  | none => .error (.tooMany records.length)

/-- The plain layout behind magic number and version. -/
def encodeVersioned (records : List MaterialRecord) : Except EncodeError (List UInt8) := do
  return magic ++ Bytes.ofNat 4 version ++ (← encode records)

/-! ### Reading -/

/-- Why bytes are no attachment. -/
inductive FormatError where
  | truncated (what : String) (size offset left : Nat)
  | unterminated (what : String) (offset : Nat)
  | notAscii (what : String)
  | notUtf16 (what : String)
  | tooManyMappings (name : Name) (count : Nat)
  | repeatedSlot (name : Name) (host : Int)
  | tooManyRecords (count : Nat)
  | trailing (count : Nat)
  | unknownMagic (bytes : List UInt8)
  | unknownVersion (version : Nat)
deriving DecidableEq, Repr

def FormatError.message : FormatError → String
  | truncated what size offset left =>
    s!"Identity attachment truncated reading {what}: need {size} bytes at offset {offset}, " ++
      s!"{left} left"
  | unterminated what offset =>
    s!"Identity attachment {what} at offset {offset} is not terminated"
  | notAscii what => s!"Identity attachment {what} " ++ invalidPhrase "ascii"
  | notUtf16 what => s!"Identity attachment {what} " ++ invalidPhrase "utf-16-le"
  | tooManyMappings name count =>
    s!"Identity attachment truncated: material '{name.display}' claims {count} " ++
      "sub-material mappings"
  | repeatedSlot name host => s!"Material '{name.display}' maps host sub-material {host} twice"
  | tooManyRecords count => s!"Identity attachment truncated: header claims {count} materials"
  | trailing count => s!"Identity attachment has {count} unexpected trailing bytes"
  | unknownMagic bytes => "Identity attachment has unknown magic " ++ Text.quotedBytes bytes
  | unknownVersion v =>
    s!"Identity attachment version {v} is not supported (expected 1 to {version})"

/-- The bytes that are still to be read, and how many were. -/
structure Cursor where
  offset : Nat
  rest : List UInt8
deriving DecidableEq, Repr

def Cursor.ofBytes (bytes : List UInt8) : Cursor := ⟨0, bytes⟩

abbrev Reader := StateT Cursor (Except FormatError)

namespace Reader

def remaining : Reader Nat := return (← get).rest.length

def take (size : Nat) (what : String) : Reader (List UInt8) := do
  let c ← get
  if c.rest.length < size then throw (.truncated what size c.offset c.rest.length)
  set (Cursor.mk (c.offset + size) (c.rest.drop size))
  return c.rest.take size

def count (what : String) : Reader Nat := return Bytes.toNat (← take 8 what)

/-- The bytes of a string without its terminator. -/
def terminated (what : String) (terminator : List UInt8) : Reader (List UInt8) := do
  let length ← count (what ++ " length")
  let data ← take length what
  if ¬ (terminator <:+ data ∧ length % terminator.length = 0) then
    throw (.unterminated what ((← get).offset - length))
  return data.take (length - terminator.length)

def asciiString (what : String) : Reader String := do
  let data ← terminated what [0]
  if data.any (0x80 ≤ ·) then throw (.notAscii what)
  return String.ofList (data.map fun b => Char.ofNat b.toNat)

def utf16String (what : String) : Reader Name := do
  match Name.ofUtf16? (Bytes.toUnits (← terminated what [0, 0])) with
  | some name => return name
  | none => throw (.notUtf16 what)

def pair : Reader (Int × Int) := do
  let data ← take 8 "sub-material mapping"
  return (Bytes.toInt (data.take 4), Bytes.toInt (data.drop 4))

/-- Reads `n` slots into a record. -/
def pairs : Nat → MaterialRecord → Reader MaterialRecord
  | 0, r => return r
  | n + 1, r => do
    let (host, generated) ← pair
    if r.generatedOf.contains host then throw (.repeatedSlot r.name host)
    pairs n (r.add host generated)

def record : Reader MaterialRecord := do
  let handle ← count "material handle"
  let materialId ← asciiString "material id"
  let name ← utf16String "material name"
  let n ← count "sub-material mapping count"
  if (← remaining) < n * 8 then throw (.tooManyMappings name n)
  pairs n { handle, materialId, name }

/-- A handle, two lengths with their terminators, and a count. -/
def leastRecordSize : Nat := 4 * 8 + 3

def recordList : Nat → Reader (List MaterialRecord)
  | 0 => return []
  | n + 1 => return (← record) :: (← recordList n)

def records : Reader (List MaterialRecord) := do
  let n ← count "material count"
  if (← remaining) < n * leastRecordSize then throw (.tooManyRecords n)
  let records ← recordList n
  let left ← remaining
  if left ≠ 0 then throw (.trailing left)
  return records

def versionedRecords : Reader (List MaterialRecord) := do
  let header ← take 8 "attachment header"
  let start := header.take 4
  let v := Bytes.toNat (header.drop 4)
  if start ≠ magic then throw (.unknownMagic start)
  if v < 1 ∨ version < v then throw (.unknownVersion v)
  records

end Reader

/-- Reads the plain layout. -/
def decode (bytes : List UInt8) : Except FormatError (List MaterialRecord) :=
  Reader.records.run' (.ofBytes bytes)

/-- Reads the versioned layout. -/
def decodeVersioned (bytes : List UInt8) : Except FormatError (List MaterialRecord) :=
  Reader.versionedRecords.run' (.ofBytes bytes)

def isVersioned (bytes : List UInt8) : Bool := bytes.take 4 == magic

/-- Reads either layout. -/
def read (bytes : List UInt8) : Except FormatError (List MaterialRecord) :=
  if isVersioned bytes then decodeVersioned bytes else decode bytes

/-- What an attachment holds, or what is wrong with it. -/
structure Inspection where
  versioned : Bool
  records : List MaterialRecord
  error? : Option FormatError

namespace Inspection

def status (i : Inspection) : String := if i.error?.isSome then "ERROR" else "OK"

/-- What is wrong, or nothing. -/
def message (i : Inspection) : String := (i.error?.map (·.message)).getD ""

end Inspection

def inspect (bytes : List UInt8) : Inspection :=
  match read bytes with
  | .ok records => ⟨isVersioned bytes, records, none⟩
  | .error e => ⟨isVersioned bytes, [], some e⟩

end ShadeGraph.Attachment
