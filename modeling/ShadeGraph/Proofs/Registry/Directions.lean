import Mathlib.Order.Bounds.Basic
import ShadeGraph.Identity.Record
import ShadeGraph.Proofs.Table

/-!
# Both directions of a record

Slots and indices may come again while a record is filled. Each direction keeps the first pair for
its own key, so they need not be inverse to each other: where a slot has an index already, a pair
with a new index still leads that index back to the slot. An index leads to the first slot that tells
it as long as the slot it leads to tells it at all.
-/

namespace ShadeGraph

namespace MaterialRecord

/-- How the two tables of a record and its counts belong together, whatever pairs were added. -/
structure Linked (r : MaterialRecord) : Prop where
  nodup : r.generatedOf.keys.Nodup
  /-- Every index that a slot tells leads back. -/
  known : ∀ {slot index}, r.generatedOf.get? slot = some index → index ∈ r.hostOf.keys
  /-- It leads to a slot that tells an index, which may be another one. -/
  taken : ∀ {slot index}, r.hostOf.get? index = some slot → slot ∈ r.generatedOf.keys
  /-- If it is this index, no slot before tells it. -/
  first : ∀ {slot index}, r.hostOf.get? index = some slot → r.generatedOf.get? slot = some index →
    r.generatedOf.keyOf? index = some slot
  active : r.activeCount = r.generatedOf.length
  counted : IsGreatest {n : Int | n = 0 ∨ ∃ slot ∈ r.generatedOf.keys, n = slot + 1} r.slotCount

variable {r : MaterialRecord} {slot index : Int}

/-! ### What adding a pair keeps -/

namespace Linked

theorem mem_hostOf (h : r.Linked) {e : Int × Int} (he : e ∈ r.generatedOf) :
    e.2 ∈ r.hostOf.keys := h.known (Table.get?_eq_some_of_mem h.nodup he)

/-- An index leads to the first slot that tells it, if the slot it leads to tells it. -/
theorem hostOf_eq_keyOf?_iff (h : r.Linked) : r.hostOf.get? index = r.generatedOf.keyOf? index ↔
    ∀ slot, r.hostOf.get? index = some slot → r.generatedOf.get? slot = some index := by
  constructor
  · intro heq slot hback
    exact Table.get?_eq_some_of_mem h.nodup (Table.mem_of_keyOf?_eq_some (heq.symm.trans hback))
  · intro htells
    cases hback : r.hostOf.get? index with
    | some slot => exact (h.first hback (htells slot hback)).symm
    | none =>
      refine (Table.keyOf?_eq_none_iff.mpr fun e he heq => ?_).symm
      exact Table.get?_eq_none_iff_notMem.mp hback (heq ▸ h.mem_hostOf he)

theorem first_add (h : r.Linked) {host generated : Int}
    (hback : (r.add host generated).hostOf.get? index = some slot)
    (htells : (r.add host generated).generatedOf.get? slot = some index) :
    (r.add host generated).generatedOf.keyOf? index = some slot := by
  by_cases hindex : index ∈ r.hostOf.keys
  · -- The way back was known before, and its slot had an index then.
    have hold : r.hostOf.get? index = some slot :=
      (Table.get?_insertIfNew_of_mem hindex _ _).symm.trans hback
    have htold : r.generatedOf.get? slot = some index :=
      (Table.get?_insertIfNew_of_mem (h.taken hold) _ _).symm.trans htells
    exact Table.keyOf?_insertIfNew_of_eq_some (h.first hold htold) host generated
  · -- The way back is new, so no slot told the index before, not even this one.
    obtain ⟨rfl, rfl⟩ := Table.eq_of_get?_insertIfNew hindex hback
    have hslot : slot ∉ r.generatedOf.keys := fun hslot =>
      hindex (h.known ((Table.get?_insertIfNew_of_mem hslot _ _).symm.trans htells))
    have hnone : r.generatedOf.keyOf? index = none :=
      Table.keyOf?_eq_none_iff.mpr fun e he heq => hindex (heq ▸ h.mem_hostOf he)
    exact Table.keyOf?_insertIfNew_self hslot hnone

theorem counted_add (h : r.Linked) (host generated : Int) :
    IsGreatest {n : Int | n = 0 ∨ ∃ slot ∈ (r.add host generated).generatedOf.keys, n = slot + 1}
      (r.add host generated).slotCount := by
  have hslots : {n : Int | n = 0 ∨
      ∃ slot ∈ (r.add host generated).generatedOf.keys, n = slot + 1} =
        insert (host + 1) {n : Int | n = 0 ∨ ∃ slot ∈ r.generatedOf.keys, n = slot + 1} := by
    ext n
    simp only [add, Table.mem_keys_insertIfNew_iff, Set.mem_ofPred_eq, Set.mem_insert_iff,
      exists_eq_or_imp]
    tauto
  have hcount : ((r.add host generated).slotCount : Int) = max (host + 1) (r.slotCount : Int) := by
    simp only [add]
    omega
  rw [hslots, hcount]
  exact h.counted.insert (host + 1)

theorem add (h : r.Linked) (host generated : Int) : (r.add host generated).Linked where
  nodup := Table.nodup_keys_insertIfNew h.nodup _ _
  known := Table.mem_keys_of_get?_insertIfNew h.known host generated
  taken := Table.mem_keys_of_get?_insertIfNew h.taken generated host
  first := h.first_add
  active := rfl
  counted := h.counted_add host generated

theorem addAll (h : r.Linked) (pairs : List (Int × Int)) : (r.addAll pairs).Linked := by
  induction pairs generalizing r with
  | nil => exact h
  | cons pair pairs ih => exact ih (h.add pair.1 pair.2)

/-- Nothing is told before the first pair. -/
theorem fresh (handle : Int) (materialId : String) (name : Name) :
    ({ handle, materialId, name } : MaterialRecord).Linked := by
  constructor <;> simp [IsGreatest, upperBounds]

end Linked

/-! ### The first pair of a key -/

theorem get?_generatedOf_addAll (r : MaterialRecord) (pairs : List (Int × Int)) (slot : Int) :
    (r.addAll pairs).generatedOf.get? slot =
      (r.generatedOf.get? slot <|> Table.get? pairs slot) := by
  have hfold : (r.addAll pairs).generatedOf =
      pairs.foldl (fun t e => t.insertIfNew e.1 e.2) r.generatedOf := by
    induction pairs generalizing r with
    | nil => rfl
    | cons pair pairs ih => exact ih (r.add pair.1 pair.2)
  rw [hfold]
  exact Table.get?_foldl_insertIfNew _ pairs (·.1) (·.2) slot

theorem get?_hostOf_addAll (r : MaterialRecord) (pairs : List (Int × Int)) (index : Int) :
    (r.addAll pairs).hostOf.get? index =
      (r.hostOf.get? index <|> Table.keyOf? pairs index) := by
  have hfold : (r.addAll pairs).hostOf =
      pairs.foldl (fun t e => t.insertIfNew e.2 e.1) r.hostOf := by
    induction pairs generalizing r with
    | nil => rfl
    | cons pair pairs ih => exact ih (r.add pair.1 pair.2)
  rw [hfold]
  exact Table.get?_foldl_insertIfNew _ pairs (·.2) (·.1) index

/-- Whatever pairs a record is filled with, each direction keeps the first pair for its own key, and
every index that a slot tells leads back. It leads to the first slot that tells it just if the slot it
leads to tells it. So where no slot comes with two indices, the indices that lead back are those that
slots tell, and each leads to the first slot that tells it. The counts are those of the slots. -/
theorem directions_addAll (handle : Int) (materialId : String) (name : Name)
    (pairs : List (Int × Int)) :
    let r := ({ handle, materialId, name } : MaterialRecord).addAll pairs
    (∀ slot, r.generatedOf.get? slot = Table.get? pairs slot) ∧
    (∀ index, r.hostOf.get? index = Table.keyOf? pairs index) ∧
    (∀ slot index, (slot, index) ∈ r.generatedOf → index ∈ r.hostOf.keys) ∧
    (∀ index, r.hostOf.get? index = r.generatedOf.keyOf? index ↔
      ∀ slot, r.hostOf.get? index = some slot → r.generatedOf.get? slot = some index) ∧
    ((∀ slot a b, (slot, a) ∈ pairs → (slot, b) ∈ pairs → a = b) →
      (∀ index, index ∈ r.hostOf.keys ↔ ∃ slot, (slot, index) ∈ r.generatedOf) ∧
      ∀ index, r.hostOf.get? index = r.generatedOf.keyOf? index) ∧
    r.generatedOf.keys.Nodup ∧ r.activeCount = r.generatedOf.length ∧
    IsGreatest {n : Int | n = 0 ∨ ∃ slot ∈ r.generatedOf.keys, n = slot + 1} r.slotCount := by
  intro r
  have hlinked : r.Linked := (Linked.fresh handle materialId name).addAll pairs
  have hslots (slot : Int) : r.generatedOf.get? slot = Table.get? pairs slot :=
    get?_generatedOf_addAll { handle, materialId, name } pairs slot
  have hindices (index : Int) : r.hostOf.get? index = Table.keyOf? pairs index :=
    get?_hostOf_addAll { handle, materialId, name } pairs index
  refine ⟨hslots, hindices, fun slot index => hlinked.mem_hostOf,
    fun index => hlinked.hostOf_eq_keyOf?_iff, fun hpairs => ?_, hlinked.nodup, hlinked.active,
    hlinked.counted⟩
  have htells (index slot : Int) (hback : r.hostOf.get? index = some slot) :
      r.generatedOf.get? slot = some index := by
    rw [hslots]
    exact Table.get?_of_keyOf?_eq_some ((hindices index).symm.trans hback) hpairs
  refine ⟨fun index => ⟨?_, ?_⟩, fun index =>
    hlinked.hostOf_eq_keyOf?_iff.mpr (htells index)⟩
  · intro hindex
    obtain ⟨slot, hback⟩ := Table.mem_keys_iff.mp hindex
    exact ⟨slot, Table.mem_of_get?_eq_some (htells index slot hback)⟩
  · rintro ⟨slot, he⟩
    exact hlinked.mem_hostOf he

/-- Two slots share an index, and it leads back to the first of them. -/
theorem directions_addAll_shared :
    let r := ({ handle := 7, materialId := "ab", name := .ofString "N" } : MaterialRecord).addAll
      [(0, 4), (2, 4)]
    r.hostOf.get? 4 = r.generatedOf.keyOf? 4 ∧ r.generatedOf.keyOf? 4 = some 0 := by
  have hpairs : ∀ slot a b : Int, (slot, a) ∈ [(0, 4), (2, 4)] → (slot, b) ∈ [(0, 4), (2, 4)] →
      a = b := by
    intro slot a b ha hb
    simp only [List.mem_cons, List.not_mem_nil, Prod.mk.injEq, or_false] at ha hb
    omega
  have hboth := (directions_addAll 7 "ab" (.ofString "N") [(0, 4), (2, 4)]).2.2.2.2.1 hpairs
  exact ⟨hboth.2 4, by decide⟩

/-- A slot that is told two indices leads back from both, though it keeps the first one only: then
an index leads back that no slot tells, and another one leads to a slot that does not tell it. -/
theorem directions_differ :
    (let r := ({ handle := 7, materialId := "ab", name := .ofString "N" } : MaterialRecord).addAll
      [(0, 3), (0, 9)]
    9 ∈ r.hostOf.keys ∧ ∀ e ∈ r.generatedOf, e.2 ≠ 9) ∧
    (let r := ({ handle := 7, materialId := "ab", name := .ofString "N" } : MaterialRecord).addAll
      [(0, 1), (0, 2), (1, 2)]
    r.hostOf.get? 2 = some 0 ∧ r.generatedOf.keyOf? 2 = some 1) := by decide

end MaterialRecord

end ShadeGraph
