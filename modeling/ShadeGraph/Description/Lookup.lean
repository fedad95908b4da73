import ShadeGraph.Identity.Resolve
import ShadeGraph.Source
import ShadeGraph.Text.Reading

/-!
# Look-ups in descriptions

Something is looked up by values of any kind. A value that can be no key is refused, and one that is
none of the keys finds nothing. An index must be comparable with whole numbers, and within the range
of a table it must be whole.
-/

namespace ShadeGraph

open Json (ReadError)

/-- A value that can be a key: one without parts. -/
def Value.label? : Value Float → Except ReadError (Value Float)
  | list items => .error (.key (list items).kindName)
  | entries items => .error (.key (entries items).kindName)
  | v => .ok v

namespace Json

def label? (j : Json) : Except ReadError (Value Float) := j.toValue.label?

/-- The text that a key is; other keys are no text. -/
def key? (j : Json) : Except ReadError (Option String) :=
  return match ← j.label? with
    | .text s => some s
    | _ => none

/-- Whether an index of any kind lies in the range of a table. -/
def within? (count : Int) (j : Json) : Except ReadError Bool :=
  match j.toValue with
  | .number x => .ok (Scalar.le 0.0 x && Scalar.lt x (Scalar.ofInt count))
  | v =>
    match v.whole? with
    | some n => .ok (0 ≤ n && n < count)
    | none => .error (.order "<=" "int" v.kindName)

/-! ### Ids -/

/-- The number of characters, items or entries. -/
def length? : Json → Except ReadError Nat
  | text s => .ok (Text.points s).length
  | list items => .ok items.length
  | object entries => .ok entries.length
  | j => .error (.length j.kindName)

/-- A text in lower case. -/
def lower? : Json → Except ReadError String
  | text s => .ok (Text.lower s)
  | j => .error (.lacks j.kindName "lower")

/-- Whether two values are one id. Only texts are, but others are refused as late as possible: where
they are not empty and the lengths agree. -/
def sameId? (a b : Json) : Except ReadError Bool :=
  match a, b with
  | text s, text t => .ok (Identity.sameId s t)
  | a, b => do
    if !a.toBool || !b.toBool then return false
    else if (← a.length?) ≠ (← b.length?) then return false
    else return (← a.lower?) == (← b.lower?)

/-- What counts as false is an empty id. -/
def isEmptyId : Json → Bool
  | text s => Identity.isEmptyId s
  | j => !j.toBool

/-- A part of a name, unless it occurs among the invalid characters. -/
def cleanPart? : Json → Except ReadError String
  | text s =>
    let invalid := Identity.invalidCharacters.toList
    .ok (if (List.range (invalid.length + 1)).any fun i => s.toList.isPrefixOf (invalid.drop i)
      then "" else s)
  | j => .error (.part j.kindName)

/-- A name without invalid characters; a list stands for its items one behind the other. -/
def cleanName? : Json → Except ReadError String
  | text s => .ok (Identity.cleanName s)
  | j => do return String.join (← (← j.iterate?).mapM cleanPart?)

end Json

/-- The first record with an id of any kind. -/
def Registry.findAnyId? (registry : Registry) (id : Json) :
    Except ReadError (Option MaterialRecord) :=
  match id with
  | .text s => .ok (registry.findId? s)
  | id => do
    registry.recordList.forM fun r => discard ((Json.text r.materialId).sameId? id)
    return none

/-- The live material for an id of any kind. -/
def Registrar.resolveAny {α : Type} (hosts : HostTable α) (scene : HostScene) (allowUnsafe : Bool)
    (id : Json) : Register (Except ReadError (Option HostId)) := do
  match id, (← get).registry.findAnyId? id with
  | .text s, _ => .ok <$> resolve hosts scene allowUnsafe s
  | _, .error e => return .error e
  | id, .ok _ =>
    log (·.warn (Resolve.unknownText id.toValue.display))
    return .ok none

/-! ### Keys -/

/-- A material and one of its channels, if they can be keys. -/
def ChannelKey.ofPair? (material channel : Value Float) : Except ReadError (ChannelKey Float) :=
  return ⟨← material.label?, ← channel.label?⟩

/-- The handle and the name of a material. -/
def MaterialKey.ofPair? (handle name : Json) : Except ReadError (Option MaterialKey) := do
  let handle ← handle.place?
  let name ← name.key?
  return do return ⟨← handle, Name.ofString (← name)⟩

/-! ### Generated indices -/

/-- The message about an index, the size of the table and perhaps a mesh. -/
def MaterialIndexError.describe (index count mesh : Json) : String :=
  outOfRange index.toValue.display (if mesh.toBool then place mesh.toValue.display else "")
    count.toValue.display

/-- Why an index leads nowhere. -/
inductive IndexRefusal where
  | unreadable (e : ReadError)
  /-- The index lies outside of the table. -/
  | outside (message : String)
deriving DecidableEq, Repr

def IndexRefusal.message : IndexRefusal → String
  | unreadable e => e.message
  | outside message => message

/-- The plain material at an index of any kind. -/
def Registry.generatedAt (registry : Registry) (j : Json) : Except IndexRefusal MaterialRecord := do
  let count := registry.generated.length
  if ← (j.within? count).mapError .unreadable then
    let place ← (j.index? count).mapError .unreadable
    (registry.generatedMaterial place).mapError fun e => .outside e.message
  else throw (.outside (MaterialIndexError.describe j (.number (toString count)) .null))

/-- The slot that a generated index of any kind came from. There may be no record to ask. -/
def Registry.slotAt (registry : Registry) (r : Option MaterialRecord) (mesh j : Json) :
    Except IndexRefusal Int := do
  let count := registry.materialCount
  if ← (j.within? count).mapError .unreadable then
    match r with
    | some r => return (j.toValue.whole?.map r.hostIndex).getD 0
    | none => throw (.unreadable (.lacks "NoneType" "get_host_index"))
  else throw (.outside (MaterialIndexError.describe j (.number (toString count)) mesh))

/-- What the journal says of an index outside of the table. -/
def Registry.outsideText (registry : Registry) (mesh j : Json) : String :=
  MaterialIndexError.outOfRange j.toValue.display (MaterialIndexError.place mesh.toValue.display)
    (toString registry.materialCount)

namespace Registrar

/-- The slots that generated indices of any kind came from. -/
def slotsAt (r : Option MaterialRecord) (mesh : Json) :
    List Json → Register (Except IndexRefusal (List Int))
  | [] => return .ok []
  | id :: ids => do
    let registry := (← get).registry
    match registry.slotAt r mesh id with
    | .ok slot => return (slot :: ·) <$> (← slotsAt r mesh ids)
    | .error e =>
      if let .outside _ := e then log (·.error (registry.outsideText mesh id))
      return .error e

/-- The slots that the generated indices of a mesh came from. -/
def remapAny (r : Option MaterialRecord) (mesh : Json) (ids : List Json) :
    Register (Except IndexRefusal (List Int)) := do
  let whole (j : Json) : Option Int :=
    match j.toValue with
    | .integer n => some n
    | _ => none
  match r, mesh, ids.mapM whole with
  | some r, .text mesh, some indices =>
    return (← remap r mesh indices).mapError fun e => .outside e.message
  | r, mesh, _ => slotsAt r mesh ids

end Registrar

end ShadeGraph
