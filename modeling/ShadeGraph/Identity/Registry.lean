import ShadeGraph.Host
import ShadeGraph.Identity.Attachment
import ShadeGraph.Identity.Id
import ShadeGraph.Session.Journal

/-!
# The identity registry

Every host material is registered once in a session, by its handle and name. A plain material gets
the next place in the generated material table; a multi-material records for each slot in use which
generated material the slot leads to. A record is stored before the slots of its material are
followed, so cycles of slots end.
-/

namespace ShadeGraph

/-- What a host material is registered by. -/
structure MaterialKey where
  handle : Int
  name : Name
deriving DecidableEq, Repr

def MaterialRecord.key (r : MaterialRecord) : MaterialKey := ⟨r.handle, r.name⟩

def HostMaterial.key {α : Type} (m : HostMaterial α) : MaterialKey :=
  ⟨m.handle, Name.ofString m.name⟩

/-- The record of a material under a new id, without slots. -/
def HostMaterial.record {α : Type} (m : HostMaterial α) (materialId : String) : MaterialRecord :=
  { handle := m.handle, materialId, name := m.key.name }

/-- A generated index lies outside of the generated material table. -/
structure MaterialIndexError where
  index : Int
  count : Int
  mesh : String := ""
deriving DecidableEq, Repr

namespace MaterialIndexError

/-- The message about an index at a place, for a table of `count` materials. -/
def outOfRange (index place count : String) : String :=
  s!"Material index {index}{place} is out of range (material table holds {count} materials)"

/-- A mesh as messages name it. -/
def place (mesh : String) : String := s!" on mesh '{mesh}'"

/-- The mesh is left out when it has no name. -/
def message (e : MaterialIndexError) : String :=
  outOfRange (toString e.index) (if e.mesh.isEmpty then "" else place e.mesh) (toString e.count)

/-- The message with the mesh in any case. -/
def report (e : MaterialIndexError) : String :=
  outOfRange (toString e.index) (place e.mesh) (toString e.count)

end MaterialIndexError

/-- The records of a session, and those of plain materials in generated order. -/
structure Registry where
  /-- Whether a material may be found again by an approximate name. -/
  allowUnsafe : Bool := false
  records : Table MaterialKey MaterialRecord := []
  generated : List MaterialRecord := []

namespace Registry

variable (registry : Registry)

def find? (key : MaterialKey) : Option MaterialRecord := registry.records.get? key

/-- All records in the order of registration. -/
def recordList : List MaterialRecord := registry.records.map (·.2)

/-- The first record with an id. -/
def findId? (id : String) : Option MaterialRecord :=
  registry.recordList.find? fun r => Identity.sameId r.materialId id

/-- Every generated index that some slot leads to. -/
def indices : List Int := registry.recordList.flatMap fun r => r.generatedOf.map (·.2)

/-- The size of the generated material table. A registry that was loaded has no table and goes by
the greatest index. -/
def materialCount : Int :=
  if registry.generated.isEmpty then (registry.indices.max?.map (· + 1)).getD 0
  else registry.generated.length

/-- The plain material at a generated index. -/
def generatedMaterial (index : Int) : Except MaterialIndexError MaterialRecord :=
  match if index < 0 then none else registry.generated[index.toNat]? with
  | some r => .ok r
  | none => .error { index, count := registry.generated.length }

def clear : Registry := { registry with records := [], generated := [] }

/-- Replaces all records. -/
def load (records : List MaterialRecord) : Registry :=
  { registry.clear with records := records.foldl (fun t r => t.insert r.key r) [] }

/-- Replaces all records by those of an attachment. -/
def loadAttachment (bytes : List UInt8) : Except Attachment.FormatError Registry :=
  (Attachment.read bytes).map registry.load

def toAttachment (versioned : Bool) : Except Attachment.EncodeError (List UInt8) :=
  if versioned then Attachment.encodeVersioned registry.recordList
  else Attachment.encode registry.recordList

def insert (r : MaterialRecord) : Registry :=
  { registry with records := registry.records.insert r.key r }

/-- Gives a plain material the next place in the generated material table. -/
def place (r : MaterialRecord) : Registry :=
  let r := r.add 0 registry.generated.length
  { registry.insert r with generated := registry.generated ++ [r] }

/-- Records that a slot of the material `key` leads to a generated material. -/
def link (key : MaterialKey) (slot : Nat) (index : Int) : Registry :=
  { registry with records := registry.records.modify key fun r => r.add slot index }

/-- The slots of a record that generated indices came from. -/
def remap (r : MaterialRecord) (mesh : String) (indices : List Int) :
    Except MaterialIndexError (List Int) :=
  let count := registry.materialCount
  indices.mapM fun index =>
    if 0 ≤ index ∧ index < count then .ok (r.hostIndex index) else .error { index, count, mesh }

end Registry

/-- A registry together with its supply of ids and the messages of the session. -/
structure Registrar where
  registry : Registry := {}
  ids : IdSupply := {}
  journal : Journal := {}

/-- Registration changes a registrar. -/
abbrev Register := StateM Registrar

namespace Registrar

def log (f : Journal → Journal) : Register Unit := modify fun s => { s with journal := f s.journal }

def change (f : Registry → Registry) : Register Unit :=
  modify fun s => { s with registry := f s.registry }

def mint : Register String :=
  modifyGet fun s => let (id, ids) := s.ids.mint; (id, { s with ids })

def registeredText (r : MaterialRecord) : String :=
  s!"Registered material '{r.name.display}' as {r.materialId} ({r.activeCount} active slots)"

def selfSlotText (name : String) (slot : Nat) : String :=
  s!"Multi-material '{name}' lists itself in slot {slot}, skipping"

variable {α : Type} (hosts : HostTable α)

/-- Follows a slot of a material: `enter` registers the material in it, whose generated material the
slot then leads to. -/
def followSlot (enter : HostId → Register MaterialRecord) (id : HostId) (entry : Nat × HostId) :
    Register Unit := do
  let (slot, sub) := entry
  if sub = id then log (·.warn (selfSlotText (hosts.get id).name slot))
  else
    let r ← enter sub
    change (·.link (hosts.get id).key slot (r.generatedIndex 0))

/-- Registers a material, following slots through `depth` materials. Every step down stores another
record, so one step more than there are materials is enough. -/
def registerWithin : Nat → HostId → Register MaterialRecord
  | 0, id => return (hosts.get id).record ""
  | depth + 1, id => do
    let m := hosts.get id
    match (← get).registry.find? m.key with
    | some r => return r
    | none =>
      let r := m.record (← mint)
      change (·.insert r)
      if m.isMulti then m.filledSlots.forM (followSlot hosts (registerWithin depth) id)
      else change (·.place r)
      let r := ((← get).registry.find? m.key).getD r
      log (·.debug (registeredText r))
      return r

/-- The record of a material, made at its first use. -/
def register (id : HostId) : Register MaterialRecord := registerWithin hosts (hosts.size + 1) id

/-- The registry as an attachment. -/
def toAttachment (versioned : Bool) : Register (Except Attachment.EncodeError (List UInt8)) := do
  let registry := (← get).registry
  match registry.toAttachment false with
  | .ok plain =>
    log (·.debug
      s!"Serialized {registry.recordList.length} material identity records ({plain.length} bytes)")
  | .error _ => pure ()
  return registry.toAttachment versioned

/-- Replaces the registry by what an attachment holds. If the bytes are no attachment, the registry
stays as it is. -/
def loadAttachment (bytes : List UInt8) : Register (Except Attachment.FormatError Unit) := do
  match (← get).registry.loadAttachment bytes with
  | .ok registry =>
    change fun _ => registry
    return .ok ()
  | .error e => return .error e

/-- The slots that the generated indices of a mesh came from. A wrong index is reported. -/
def remap (r : MaterialRecord) (mesh : String) (indices : List Int) :
    Register (Except MaterialIndexError (List Int)) := do
  let result := (← get).registry.remap r mesh indices
  if let .error e := result then log (·.error e.report)
  return result

end Registrar

end ShadeGraph
