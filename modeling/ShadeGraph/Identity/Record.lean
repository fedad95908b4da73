import ShadeGraph.Identity.Name
import ShadeGraph.Table

/-!
# Identity records

A record ties a host material to its id and to the generated material table. It maps each slot of
the material to the place of the material in that slot, and each such place back to a slot; in both
directions the first entry for a key is kept. A plain material has slot 0 only.
-/

namespace ShadeGraph

/-- The same entries in any order. -/
def Table.same {κ β : Type} [DecidableEq κ] [DecidableEq β] (t u : Table κ β) : Bool :=
  t.length == u.length && t.all fun e => decide (u.get? e.1 = some e.2)

structure MaterialRecord where
  handle : Int
  materialId : String
  name : Name
  generatedOf : Table Int Int := []
  hostOf : Table Int Int := []
  /-- One more than the greatest slot. -/
  slotCount : Nat := 0
  /-- The number of slots in use. -/
  activeCount : Nat := 0
deriving DecidableEq, Repr

namespace MaterialRecord

/-- Records that the material in `host` is the generated material `generated`. -/
def add (r : MaterialRecord) (host generated : Int) : MaterialRecord :=
  let generatedOf := r.generatedOf.insertIfNew host generated
  { r with
    generatedOf
    hostOf := r.hostOf.insertIfNew generated host
    slotCount := max r.slotCount (host + 1).toNat
    activeCount := generatedOf.length }

def addAll (r : MaterialRecord) (pairs : List (Int × Int)) : MaterialRecord :=
  pairs.foldl (fun r (host, generated) => r.add host generated) r

/-- The generated material in a slot. A record without slots answers for slot 0. -/
def generatedIndex (r : MaterialRecord) (host : Int) : Int :=
  (r.generatedOf.get? (if r.slotCount = 0 then 0 else host)).getD 0

/-- The slot that a generated material came from. -/
def hostIndex (r : MaterialRecord) (generated : Int) : Int := (r.hostOf.get? generated).getD 0

/-- The parts of a record that decide where it is stored. -/
def sameKey (r s : MaterialRecord) : Bool :=
  r.handle == s.handle && r.materialId == s.materialId && r.name == s.name

/-- The hash of a handle: its residue modulo the Mersenne prime of 61 bits, with the sign of the
handle. The number -1 stands for a failure, so it is avoided. -/
def handleHash (handle : Int) : Int :=
  let residue := handle.tmod 2305843009213693951
  if residue = -1 then -2 else residue

/-- Whether two records have one hash. Different texts do not share a hash. -/
def sameHash (r s : MaterialRecord) : Bool :=
  handleHash r.handle == handleHash s.handle && r.materialId == s.materialId && r.name == s.name

theorem sameHash_of_sameKey {r s : MaterialRecord} (h : r.sameKey s = true) :
    r.sameHash s = true := by
  simp only [sameKey, Bool.and_eq_true, beq_iff_eq] at h
  simp [sameHash, h]

/-- Equality of records, whatever the order of their slots. -/
def same (r s : MaterialRecord) : Bool := r.sameKey s && r.generatedOf.same s.generatedOf

end MaterialRecord

end ShadeGraph
