import ShadeGraph.Description.Lookup
import ShadeGraph.Identity.Attachment
import ShadeGraph.Session.LabelTable

/-!
# Records in descriptions

A record may be described with parts of any kind. It is filled and asked like any other record as far
as its parts can be keys and numbers, and it is written if its handle and its slots are whole numbers
and its id and its name are texts. `RecordDraft.add_ofRecord` and the lemmas behind it say that for
ordinary parts nothing is new.
-/

namespace ShadeGraph

open Json (ReadError)

structure RecordDraft where
  handle : Value Float
  materialId : Value Float
  name : Value Float
  generatedOf : LabelTable Float (Value Float) := []
  hostOf : LabelTable Float (Value Float) := []
  slotCount : Value Float := .integer 0
  activeCount : Nat := 0

namespace RecordDraft

def labels (t : Table Int Int) : LabelTable Float (Value Float) :=
  t.map fun e => (.integer e.1, .integer e.2)

def ofRecord (r : MaterialRecord) : RecordDraft where
  handle := .integer r.handle
  materialId := .text r.materialId
  name := .text r.name.display
  generatedOf := labels r.generatedOf
  hostOf := labels r.hostOf
  slotCount := .integer r.slotCount
  activeCount := r.activeCount

/-! ### Slots -/

/-- The greater number, the first of equal ones. -/
def larger (v w : Value Float) : Value Float :=
  let measure : Value Float → Float
    | .number x => x
    | v => Scalar.ofInt (v.whole?.getD 0)
  match v.whole?, w.whole? with
  | some m, some n => if m < n then w else v
  | _, _ => if Scalar.lt (measure v) (measure w) then w else v

/-- The number of slots up to one of them. -/
def slotsTo? : Value Float → Except ReadError (Value Float)
  | .number x => .ok (.number (x + 1.0))
  | .text _ => .error (.joint "str" "int")
  | v =>
    match v.whole? with
    | some n => .ok (.integer (n + 1))
    | none => .error (.operands "+" v.kindName "int")

/-- Records that the material in `host` is the generated material `generated`. Where one of them is
refused, what went before stays. -/
def add (host generated : Value Float) : ExceptT ReadError (StateM RecordDraft) Unit := do
  let slot ← host.label?
  modify fun r => { r with generatedOf := r.generatedOf.insertIfNew slot generated }
  let index ← generated.label?
  modify fun r => { r with hostOf := r.hostOf.insertIfNew index slot }
  let count ← slotsTo? slot
  modify fun r =>
    { r with slotCount := larger r.slotCount count, activeCount := r.generatedOf.length }

/-- The generated material in a slot. A record without slots answers for slot 0. -/
def generatedIndex (r : RecordDraft) (host : Value Float) : Except ReadError (Value Float) :=
  if r.slotCount.same (.integer 0) then
    return (r.generatedOf.get? (.integer 0)).getD (.integer 0)
  else return (r.generatedOf.get? (← host.label?)).getD (.integer 0)

/-- The slot that a generated material came from. -/
def hostIndex (r : RecordDraft) (generated : Value Float) : Except ReadError (Value Float) :=
  return (r.hostOf.get? (← generated.label?)).getD (.integer 0)

/-! ### Equality -/

/-- Equality of records, whatever the order of their slots. -/
def same (r s : RecordDraft) : Bool :=
  r.handle.same s.handle && r.materialId.same s.materialId && r.name.same s.name &&
    r.generatedOf.length == s.generatedOf.length &&
    r.generatedOf.all fun (slot, index) => (s.generatedOf.get? slot).any index.same

/-- The parts that the hash of a record depends on. -/
def hashed? (r : RecordDraft) : Except ReadError (List (Value Float)) :=
  [r.handle, r.materialId, r.name].mapM Value.label?

/-- Whether two values without parts have one hash. -/
def samePartHash (v w : Value Float) : Bool :=
  match v.whole?, w.whole? with
  | some m, some n => MaterialRecord.handleHash m == MaterialRecord.handleHash n
  | _, _ => v.same w

/-- Whether two records have one hash. -/
def sameHash? (r s : RecordDraft) : Except ReadError Bool := do
  return (List.zipWith samePartHash (← r.hashed?) (← s.hashed?)).all id

/-! ### Writing -/

/-- Why a record cannot be written. -/
inductive WriteError where
  | unreadable (e : ReadError)
  | unwritable (name : String)
  | layout (e : Attachment.EncodeError)

def WriteError.message : WriteError → String
  | unreadable e => e.message
  | unwritable name => s!"Material '{name}' {Attachment.unwritablePhrase}"
  | layout e => e.message

/-- The record, if its parts are those of one that can be written. The parts are looked at in the
order in which they are written. -/
def toRecord? (r : RecordDraft) : Except WriteError MaterialRecord := do
  let require {β : Type} (x : Option β) : Except WriteError β :=
    x.elim (.error (.unwritable r.name.display)) .ok
  let text : Value Float → Except WriteError String
    | .text s => .ok s
    | v => .error (.unreadable (.lacks v.kindName "encode"))
  let handle ← require r.handle.integer?
  discard (require (Attachment.encodeHandle? handle))
  let materialId ← text r.materialId
  discard (require (Attachment.ascii? materialId))
  let name ← text r.name
  let pairs ← require (r.generatedOf.mapM fun (slot, index) =>
    return (← slot.integer?, ← index.integer?))
  let record : MaterialRecord := { handle, materialId, name := .ofString name }
  let record := record.addAll pairs
  discard (require (Attachment.encodeRecord? record))
  return record

def encode (rs : List RecordDraft) : Except WriteError (List UInt8) := do
  (Attachment.encode (← rs.mapM toRecord?)).mapError .layout

def encodeVersioned (rs : List RecordDraft) : Except WriteError (List UInt8) := do
  (Attachment.encodeVersioned (← rs.mapM toRecord?)).mapError .layout

/-! ### Reading -/

/-- A record without slots. -/
def start (j : Json) : RecordDraft where
  handle := j.valueAt "handle" (.integer 0)
  materialId := j.valueAt "material_id" (.text "")
  name := j.valueAt "name" (.text "")

/-- A record and its slots. -/
def ofJson? (j : Json) : Except ReadError RecordDraft := do
  let fill (item : Json) : ExceptT ReadError (StateM RecordDraft) Unit := do
    let (host, generated) ← item.pair?
    add host.toValue generated.toValue
  let (filled, r) := ((← j.optionalItemsAt "map").forM fill).run.run (start j)
  filled.map fun () => r

/-! ### Ordinary parts -/

theorem contains_labels (t : Table Int Int) (k : Int) :
    (labels t).contains (.integer k) = t.contains k := by
  simp only [labels, LabelTable.contains, Table.contains, List.any_map, Function.comp_def,
    Value.same_integer]
  rfl

theorem get?_labels (t : Table Int Int) (k : Int) :
    (labels t).get? (.integer k) = (t.get? k).map Value.integer := by
  simp only [labels, LabelTable.get?, LabelTable.entry?, Table.get?, List.find?_map,
    Function.comp_def, Value.same_integer, Option.map_map]
  rfl

theorem insertIfNew_labels (t : Table Int Int) (k v : Int) :
    (labels t).insertIfNew (.integer k) (.integer v) = labels (t.insertIfNew k v) := by
  unfold LabelTable.insertIfNew Table.insertIfNew
  rw [contains_labels]
  split <;> simp [labels]

theorem larger_count (m : Nat) (n : Int) :
    larger (.integer m) (.integer (n + 1)) = .integer ((max m (n + 1).toNat : Nat) : Int) := by
  simp only [larger, Value.whole?]
  split <;> congr 1 <;> omega

theorem add_ofRecord (r : MaterialRecord) (host generated : Int) :
    (add (.integer host) (.integer generated)).run.run (ofRecord r) =
      (.ok (), ofRecord (r.add host generated)) := by
  have run : (add (.integer host) (.integer generated)).run.run (ofRecord r) =
      (.ok (), { ofRecord r with
        generatedOf := (labels r.generatedOf).insertIfNew (.integer host) (.integer generated)
        hostOf := (labels r.hostOf).insertIfNew (.integer generated) (.integer host)
        slotCount := larger (.integer r.slotCount) (.integer (host + 1))
        activeCount :=
          ((labels r.generatedOf).insertIfNew (.integer host) (.integer generated)).length }) := rfl
  rw [run, insertIfNew_labels, insertIfNew_labels, larger_count]
  simp [ofRecord, MaterialRecord.add, labels]

theorem generatedIndex_ofRecord (r : MaterialRecord) (host : Int) :
    (ofRecord r).generatedIndex (.integer host) = .ok (.integer (r.generatedIndex host)) := by
  have run : (ofRecord r).generatedIndex (.integer host) =
      .ok (((labels r.generatedOf).get? (.integer (if r.slotCount = 0 then 0 else host))).getD
        (.integer 0)) := by
    unfold generatedIndex
    by_cases h : r.slotCount = 0
    · rw [if_pos (by simp [ofRecord, h]), if_pos h]
      rfl
    · rw [if_neg (by simpa [ofRecord] using h), if_neg h]
      rfl
  rw [run, get?_labels, MaterialRecord.generatedIndex]
  cases r.generatedOf.get? _ <;> rfl

theorem hostIndex_ofRecord (r : MaterialRecord) (generated : Int) :
    (ofRecord r).hostIndex (.integer generated) = .ok (.integer (r.hostIndex generated)) := by
  have run : (ofRecord r).hostIndex (.integer generated) =
      .ok (((labels r.hostOf).get? (.integer generated)).getD (.integer 0)) := rfl
  rw [run, get?_labels, MaterialRecord.hostIndex]
  cases r.hostOf.get? _ <;> rfl

end RecordDraft

end ShadeGraph
