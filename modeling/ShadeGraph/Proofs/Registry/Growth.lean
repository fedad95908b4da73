import ShadeGraph.Proofs.Attachment.Layout
import ShadeGraph.Proofs.Registry.Registration

/-!
# Growth beside other records

Materials may be registered in a registry that holds records from elsewhere. Whatever these are, they
stay as they are, and materials whose keys they have are left alone. Every record that is added tells
its slots in ascending order, so it could be made again from them, and what it tells is the place of a
plain material that was added too, something that was told before, or zero.
-/

namespace ShadeGraph

namespace MaterialRecord

theorem Built.add {r : MaterialRecord} (h : r.Built) {slot : Int} (hnew : slot ∉ r.generatedOf.keys)
    (index : Int) : (r.add slot index).Built := by
  obtain ⟨pairs, hdistinct, hr⟩ := h
  have hpairs : r.generatedOf = pairs := by rw [hr, generatedOf_bare_addAll r hdistinct]
  refine ⟨pairs ++ [(slot, index)], ?_, ?_⟩
  · rw [Table.keys_append, ← hpairs]
    exact (hpairs ▸ hdistinct).append (List.nodup_singleton _) (List.disjoint_singleton.mpr hnew)
  · have hsplit : r.bare.addAll (pairs ++ [(slot, index)]) = (r.bare.addAll pairs).add slot index :=
      List.foldl_append
    rw [bare_add, hsplit, ← hr]

theorem mem_generatedOf_add {r : MaterialRecord} {slot index : Int} {e : Int × Int}
    (h : e ∈ (r.add slot index).generatedOf) : e ∈ r.generatedOf ∨ e = (slot, index) :=
  Table.mem_insertIfNew h

end MaterialRecord

theorem HostMaterial.pairwise_filledSlots {α : Type} (m : HostMaterial α) :
    m.filledSlots.Pairwise fun a b => a.1 < b.1 := by
  have hindices : m.slots.zipIdx.Pairwise fun a b => a.2 < b.2 := by
    rw [← List.pairwise_map (f := Prod.snd) (R := (· < ·)), List.zipIdx_map_snd]
    exact List.pairwise_lt_range'
  rw [filledSlots, List.pairwise_filterMap]
  apply hindices.imp
  rintro ⟨a, i⟩ ⟨b, j⟩ hlt x hx y hy
  obtain ⟨_, _, rfl⟩ := Option.map_eq_some_iff.mp hx
  obtain ⟨_, _, rfl⟩ := Option.map_eq_some_iff.mp hy
  exact hlt

namespace Registry

/-! ### Steps -/

/-- Some record tells this generated index. Zero also stands for none. -/
def Told (registry : Registry) (index : Int) : Prop :=
  index = 0 ∨ ∃ key r, registry.find? key = some r ∧ index ∈ r.generatedOf.map (·.2)

section

variable {α : Type} (hosts : HostTable α) (roots : List HostId)

/-- A step of registering what the roots lead to, in a registry with any other records. -/
inductive Addition : Survey → Survey → Prop
  | enroll {order registry id} (materialId : String) :
    hosts.Reached roots id → registry.find? (hosts.key id) = none →
    Addition ⟨order, registry⟩ ⟨order ++ [id], registry.enroll (hosts.get id) materialId⟩
  | link {order registry id r} {slot : Nat} {index} :
    id ∈ order → ¬ hosts.IsPlain id → registry.find? (hosts.key id) = some r →
    (∀ other ∈ r.generatedOf.keys, other < (slot : Int)) → registry.Told index →
    Addition ⟨order, registry⟩ ⟨order, registry.link (hosts.key id) slot index⟩

def Additions : Survey → Survey → Prop := Relation.ReflTransGen (Addition hosts roots)

/-- What was added to the records of `start`. -/
structure Grown (start : Registry) (t : Survey) : Prop where
  keys : t.registry.records.keys = start.records.keys ++ t.order.map hosts.key
  nodup : (t.order.map hosts.key).Nodup
  new : ∀ id ∈ t.order, start.find? (hosts.key id) = none
  reached : ∀ id ∈ t.order, hosts.Reached roots id
  kept : ∀ {key r}, start.find? key = some r → t.registry.find? key = some r
  record : ∀ id ∈ t.order,
    ∃ r, t.registry.find? (hosts.key id) = some r ∧ r.key = hosts.key id ∧ r.Built
  length : t.registry.generated.length = start.generated.length + (hosts.plains t.order).length
  placed : ∀ {i : Nat} {p}, (hosts.plains t.order)[i]? = some p →
    ∃ r, t.registry.find? (hosts.key p) = some r ∧
      r.generatedOf = [(0, (start.generated.length + i : Int))]
  told : ∀ {index : Int}, t.registry.Told index → start.Told index ∨
    start.generated.length ≤ index ∧ index < t.registry.generated.length

end

variable {α : Type} {hosts : HostTable α} {roots : List HostId} {start registry : Registry}
variable {s t : Survey} {order : List HostId} {id : HostId}

theorem told_of_find? {key : MaterialKey} {r : MaterialRecord} (h : registry.find? key = some r) :
    registry.Told (r.generatedIndex 0) := by
  rw [MaterialRecord.generatedIndex_zero]
  cases hzero : r.generatedOf.get? 0 with
  | none => exact .inl rfl
  | some index =>
    refine .inr ⟨key, r, h, List.mem_map.mpr ⟨(0, index), ?_, rfl⟩⟩
    exact Table.mem_of_get?_eq_some hzero

theorem built_firstRecord {m : HostMaterial α} {materialId : String} :
    (registry.firstRecord m materialId).Built := by
  unfold firstRecord
  split_ifs
  · exact ⟨[], List.nodup_nil, rfl⟩
  · exact ⟨[(0, _)], List.nodup_singleton _, rfl⟩

theorem find?_enroll_of_some {materialId : String} (hnew : registry.find? (hosts.key id) = none)
    {key : MaterialKey} {r : MaterialRecord} (hr : registry.find? key = some r) :
    key ≠ hosts.key id ∧ (registry.enroll (hosts.get id) materialId).find? key = some r := by
  have hne : key ≠ hosts.key id := by
    rintro rfl
    rw [hnew] at hr
    contradiction
  exact ⟨hne, by rw [find?_enroll, if_neg hne, hr]⟩

/-- Enrolling tells the place of a plain material. -/
theorem told_enroll {m : HostMaterial α} {materialId : String} {index : Int}
    (h : (registry.enroll m materialId).Told index) :
    registry.Told index ∨ m.isMulti = false ∧ index = registry.generated.length := by
  rcases h with rfl | ⟨key, r, hr, hindex⟩
  · exact .inl (.inl rfl)
  · rw [find?_enroll] at hr
    split_ifs at hr
    · obtain rfl := Option.some.inj hr
      cases hmulti : m.isMulti with
      | true => simp [generatedOf_firstRecord_of_multi hmulti] at hindex
      | false =>
        rw [generatedOf_firstRecord_of_plain hmulti] at hindex
        exact .inr ⟨rfl, by simpa using hindex⟩
    · exact .inl (.inr ⟨key, r, hr, hindex⟩)

theorem told_link {key : MaterialKey} {slot : Nat} {index other : Int}
    (h : (registry.link key slot index).Told other) : registry.Told other ∨ other = index := by
  rcases h with rfl | ⟨key', r, hr, hother⟩
  · exact .inl (.inl rfl)
  · rw [find?_link] at hr
    split_ifs at hr
    · obtain ⟨r', hr', rfl⟩ := Option.map_eq_some_iff.mp hr
      obtain ⟨e, he, rfl⟩ := List.mem_map.mp hother
      rcases MaterialRecord.mem_generatedOf_add he with he | rfl
      · exact .inl (.inr ⟨key', r', hr', List.mem_map_of_mem he⟩)
      · exact .inr rfl
    · exact .inl (.inr ⟨key', r, hr, hother⟩)

/-! ### What a step preserves -/

namespace Grown

theorem refl (start : Registry) : Grown hosts roots start ⟨[], start⟩ where
  keys := by simp
  nodup := List.nodup_nil
  new := by simp
  reached := by simp
  kept h := h
  record := by simp
  length := by simp [HostTable.plains]
  placed := by simp [HostTable.plains]
  told h := .inl h

theorem find?_of_mem (h : Grown hosts roots start ⟨order, registry⟩) (hid : id ∈ order) :
    ∃ r, registry.find? (hosts.key id) = some r := by
  obtain ⟨r, hr, _⟩ := h.record id hid
  exact ⟨r, hr⟩

theorem length_enroll (h : Grown hosts roots start ⟨order, registry⟩) (id : HostId)
    (materialId : String) : (registry.enroll (hosts.get id) materialId).generated.length =
      start.generated.length + (hosts.plains (order ++ [id])).length := by
  have hlength : registry.generated.length =
      start.generated.length + (hosts.plains order).length := h.length
  by_cases hplain : hosts.IsPlain id
  · rw [generated_enroll_of_plain hplain, hosts.plains_append_of_isPlain order hplain]
    simp only [List.length_append, List.length_singleton]
    omega
  · rw [generated_enroll_of_multi (HostTable.not_isPlain_iff.mp hplain),
      hosts.plains_append_of_not_isPlain order hplain]
    exact hlength

theorem placed_enroll (h : Grown hosts roots start ⟨order, registry⟩) (materialId : String)
    (hnew : registry.find? (hosts.key id) = none) {i : Nat} {p : HostId}
    (hp : (hosts.plains (order ++ [id]))[i]? = some p) :
    ∃ r, (registry.enroll (hosts.get id) materialId).find? (hosts.key p) = some r ∧
      r.generatedOf = [(0, (start.generated.length + i : Int))] := by
  have hold {i : Nat} {p : HostId} (hp : (hosts.plains order)[i]? = some p) :
      ∃ r, (registry.enroll (hosts.get id) materialId).find? (hosts.key p) = some r ∧
        r.generatedOf = [(0, (start.generated.length + i : Int))] := by
    obtain ⟨r, hr, hplace⟩ := h.placed hp
    exact ⟨r, (find?_enroll_of_some hnew hr).2, hplace⟩
  by_cases hplain : hosts.IsPlain id
  · rw [hosts.plains_append_of_isPlain order hplain, List.getElem?_append] at hp
    split_ifs at hp with hi
    · exact hold hp
    · rw [List.getElem?_singleton] at hp
      split_ifs at hp with hlast
      obtain rfl := Option.some.inj hp
      have hlength : registry.generated.length =
          start.generated.length + (hosts.plains order).length := h.length
      refine ⟨_, by rw [find?_enroll, if_pos rfl], ?_⟩
      rw [generatedOf_firstRecord_of_plain hplain]
      simp only [List.cons.injEq, Prod.mk.injEq, and_true, true_and]
      omega
  · rw [hosts.plains_append_of_not_isPlain order hplain] at hp
    exact hold hp

theorem told_of_enroll (h : Grown hosts roots start ⟨order, registry⟩) {materialId : String}
    (hnew : registry.find? (hosts.key id) = none) {index : Int}
    (hindex : (registry.enroll (hosts.get id) materialId).Told index) :
    start.Told index ∨ start.generated.length ≤ index ∧
      index < (registry.enroll (hosts.get id) materialId).generated.length := by
  rcases told_enroll hindex with hold | ⟨hplain, rfl⟩
  · have hgrows : registry.generated.length ≤
        (registry.enroll (hosts.get id) materialId).generated.length :=
      (extends_enroll hnew).generated.length_le
    rcases h.told hold with hstart | ⟨hlow, hhigh⟩
    · exact .inl hstart
    · exact .inr ⟨hlow, hhigh.trans_le (by exact_mod_cast hgrows)⟩
  · have hbefore : registry.generated.length =
        start.generated.length + (hosts.plains order).length := h.length
    rw [generated_enroll_of_plain hplain, List.length_append, List.length_singleton]
    exact .inr ⟨by omega, by omega⟩

theorem enroll (h : Grown hosts roots start ⟨order, registry⟩) (materialId : String)
    (hreached : hosts.Reached roots id) (hnew : registry.find? (hosts.key id) = none) :
    Grown hosts roots start ⟨order ++ [id], registry.enroll (hosts.get id) materialId⟩ := by
  refine ⟨?_, ?_, ?_, ?_, ?_, ?_, h.length_enroll id materialId, h.placed_enroll materialId hnew, ?_⟩
  · rw [keys_enroll hnew, h.keys, List.map_append, List.append_assoc]
    rfl
  · rw [List.map_append]
    apply h.nodup.append (List.nodup_singleton _)
    apply List.disjoint_singleton.mpr
    intro hmem
    obtain ⟨other, hother, hkey⟩ := List.mem_map.mp hmem
    obtain ⟨r, hr⟩ := h.find?_of_mem hother
    rw [hkey, hnew] at hr
    contradiction
  · intro other hother
    rcases List.mem_append.mp hother with hother | hother
    · exact h.new other hother
    · obtain rfl := List.mem_singleton.mp hother
      cases hstart : start.find? (hosts.key other) with
      | none => rfl
      | some r => exact absurd hnew (by simp [h.kept hstart])
  · intro other hother
    rcases List.mem_append.mp hother with hother | hother
    · exact h.reached other hother
    · exact List.mem_singleton.mp hother ▸ hreached
  · intro key r hr
    exact (find?_enroll_of_some hnew (h.kept hr)).2
  · intro other hother
    rcases List.mem_append.mp hother with hother | hother
    · obtain ⟨r, hr, hrest⟩ := h.record other hother
      exact ⟨r, (find?_enroll_of_some hnew hr).2, hrest⟩
    · obtain rfl := List.mem_singleton.mp hother
      exact ⟨_, by rw [find?_enroll, if_pos rfl], key_firstRecord, built_firstRecord⟩
  · intro index hindex
    exact h.told_of_enroll hnew hindex

theorem link (h : Grown hosts roots start ⟨order, registry⟩) (hid : id ∈ order)
    (hmulti : ¬ hosts.IsPlain id) {r : MaterialRecord} (hr : registry.find? (hosts.key id) = some r)
    {slot : Nat} (hslot : ∀ other ∈ r.generatedOf.keys, other < (slot : Int)) {index : Int}
    (hindex : registry.Told index) :
    Grown hosts roots start ⟨order, registry.link (hosts.key id) slot index⟩ := by
  -- The key of the material belongs to no other one, and to no record from before.
  have hsame {other : HostId} (hother : other ∈ order) (hne : other ≠ id) :
      (registry.link (hosts.key id) slot index).find? (hosts.key other) =
        registry.find? (hosts.key other) := by
    rw [find?_link, if_neg]
    exact fun hkey => hne (List.inj_on_of_nodup_map h.nodup hother hid hkey)
  refine ⟨?_, h.nodup, h.new, h.reached, ?_, ?_, h.length, ?_, ?_⟩
  · exact (Table.keys_modify registry.records (hosts.key id) fun r => r.add slot index).trans h.keys
  · intro key r' hr'
    rw [find?_link, if_neg]
    · exact h.kept hr'
    · rintro rfl
      rw [h.new id hid] at hr'
      contradiction
  · intro other hother
    obtain ⟨r', hr', hkey, hbuilt⟩ := h.record other hother
    by_cases hother' : other = id
    · subst hother'
      obtain rfl := Option.some.inj (hr.symm.trans hr')
      refine ⟨r.add slot index, by rw [find?_link, if_pos rfl, hr, Option.map_some], hkey, ?_⟩
      exact hbuilt.add (fun hmem => lt_irrefl _ (hslot slot hmem)) index
    · exact ⟨r', (hsame hother hother').trans hr', hkey, hbuilt⟩
  · intro i p hp
    obtain ⟨hmem, hplain⟩ := HostTable.mem_plains_iff.mp (List.mem_of_getElem? hp)
    obtain ⟨r', hr', hplace⟩ := h.placed hp
    exact ⟨r', (hsame hmem fun heq => hmulti (heq ▸ hplain)).trans hr', hplace⟩
  · intro other hother
    rcases told_link hother with hother | rfl
    · exact h.told hother
    · exact h.told hindex

theorem addition (h : Grown hosts roots start s) (hstep : Addition hosts roots s t) :
    Grown hosts roots start t := by
  cases hstep with
  | enroll materialId hreached hnew => exact h.enroll materialId hreached hnew
  | link hid hmulti hr hslot hindex => exact h.link hid hmulti hr hslot hindex

theorem additions (h : Grown hosts roots start s) (hrun : Additions hosts roots s t) :
    Grown hosts roots start t := by
  induction hrun with
  | refl => exact h
  | tail _ hstep ih => exact ih.addition hstep

end Grown

/-! ### Registering adds -/

/-- What is added beside some materials is added beside more of them. -/
theorem Additions.prepend (h : Additions hosts roots s t) (before : List HostId) :
    Additions hosts roots ⟨before ++ s.order, s.registry⟩ ⟨before ++ t.order, t.registry⟩ := by
  induction h with
  | refl => exact .refl
  | tail _ hstep ih =>
    apply ih.tail
    cases hstep with
    | enroll materialId hreached hnew =>
      rw [← List.append_assoc]
      exact .enroll materialId hreached hnew
    | link hid hmulti hr hslot hindex =>
      exact .link (List.mem_append_right _ hid) hmulti hr hslot hindex

theorem Additions.behind {later : Registry} (h : Additions hosts roots ⟨[], registry⟩ ⟨order, later⟩)
    (before : List HostId) :
    Additions hosts roots ⟨before, registry⟩ ⟨before ++ order, later⟩ := by
  simpa using h.prepend before

end Registry

namespace Registrar

open Registry

variable {α : Type} {hosts : HostTable α} {roots order : List HostId} {depth : Nat} {id : HostId}
variable {s : Registrar}

/-- Registering adds records, and the record it returns tells what the registry tells. -/
def Enters (hosts : HostTable α) (roots : List HostId) (enter : HostId → Register MaterialRecord) :
    Prop :=
  ∀ (id : HostId) (s : Registrar), hosts.Reached roots id →
    (∃ order, Additions hosts roots ⟨[], s.registry⟩ ⟨order, ((enter id).run s).2.registry⟩) ∧
      ((enter id).run s).2.registry.Told (((enter id).run s).1.generatedIndex 0)

/-- Registering what is in a slot leaves the record of the material alone, so the slot is the last
one in it. -/
theorem additions_followSlot {enter : HostId → Register MaterialRecord}
    (henters : Enters hosts roots enter) {slot : Nat} {sub : HostId}
    (hfollowed : hosts.Slot id slot sub) (hreached : hosts.Reached roots id) (hid : id ∈ order)
    {r : MaterialRecord} (hr : s.registry.find? (hosts.key id) = some r)
    (hslot : ∀ other ∈ r.generatedOf.keys, other < (slot : Int)) :
    ∃ order' index, id ∈ order' ∧ Additions hosts roots ⟨order, s.registry⟩
        ⟨order', ((followSlot hosts enter id (slot, sub)).run s).2.registry⟩ ∧
      ((followSlot hosts enter id (slot, sub)).run s).2.registry.find? (hosts.key id) =
        some (r.add slot index) := by
  have hsub : sub ≠ id := (HostTable.slot_iff.mp hfollowed).2
  obtain ⟨⟨added, hadded⟩, htold⟩ := henters sub s (hreached.slot hfollowed)
  have hkept : ((enter sub).run s).2.registry.find? (hosts.key id) = some r :=
    ((Grown.refl s.registry).additions hadded).kept hr
  have hid' : id ∈ order ++ added := List.mem_append_left added hid
  rw [registry_followSlot hsub]
  refine ⟨order ++ added, ((enter sub).run s).1.generatedIndex 0, hid', ?_, ?_⟩
  · exact (hadded.behind order).tail (.link hid' hfollowed.not_isPlain hkept hslot htold)
  · rw [find?_link, if_pos rfl, hkept, Option.map_some]

/-- Following slots in ascending order links them to what is told. -/
theorem additions_follow (henters : Enters hosts roots (registerWithin hosts depth))
    {es : List (Nat × HostId)} (hes : ∀ e ∈ es, e ∈ (hosts.get id).filledSlots)
    (hascending : es.Pairwise fun a b => a.1 < b.1) (hreached : hosts.Reached roots id)
    (hid : id ∈ order) {r : MaterialRecord} (hr : s.registry.find? (hosts.key id) = some r)
    (hslots : ∀ e ∈ es, ∀ other ∈ r.generatedOf.keys, other < (e.1 : Int)) :
    ∃ order', Additions hosts roots ⟨order, s.registry⟩
      ⟨order', (follow hosts depth id es s).registry⟩ := by
  induction es generalizing order s r with
  | nil => exact ⟨order, .refl⟩
  | cons e es ih =>
    obtain ⟨slot, sub⟩ := e
    obtain ⟨he, hes⟩ := List.forall_mem_cons.mp hes
    obtain ⟨hfirst, hascending⟩ := List.pairwise_cons.mp hascending
    obtain ⟨hslot, hslots⟩ := List.forall_mem_cons.mp hslots
    rw [follow_cons]
    by_cases hsub : sub = id
    · subst hsub
      have hsame :
          ((followSlot hosts (registerWithin hosts depth) sub (slot, sub)).run s).2.registry =
            s.registry := registry_followSlot_self
      rw [← hsame] at hr ⊢
      exact ih hes hascending hid hr hslots
    · have hfollowed : hosts.Slot id slot sub :=
        List.mem_filter.mpr ⟨he, decide_eq_true hsub⟩
      obtain ⟨order', index, hid', hadded, hlinked⟩ :=
        additions_followSlot henters hfollowed hreached hid hr hslot
      have hslots' : ∀ e ∈ es, ∀ other ∈ (r.add slot index).generatedOf.keys,
          other < (e.1 : Int) := by
        intro e he other hother
        obtain ⟨entry, hentry, rfl⟩ := List.mem_map.mp hother
        rcases MaterialRecord.mem_generatedOf_add hentry with hentry | rfl
        · exact hslots e he _ (List.mem_map_of_mem hentry)
        · exact Int.ofNat_lt.mpr (hfirst e he)
      obtain ⟨order'', hrest⟩ := ih hes hascending hid' hlinked hslots'
      exact ⟨order'', hadded.trans hrest⟩

theorem enters_registerWithin (hosts : HostTable α) (roots : List HostId) (depth : Nat) :
    Enters hosts roots (registerWithin hosts depth) := by
  induction depth with
  | zero => exact fun id s _ => ⟨⟨[], .refl⟩, .inl rfl⟩
  | succ depth ih =>
    intro id s hreached
    cases hfind : s.registry.find? (hosts.key id) with
    | some r =>
      rw [run_registerWithin_known _ hfind]
      exact ⟨⟨[], .refl⟩, told_of_find? hfind⟩
    | none =>
      have henroll : Addition hosts roots ⟨[], s.registry⟩
          ⟨[] ++ [id], (s.enroll (hosts.get id)).registry⟩ := .enroll _ hreached hfind
      have hfirst : (s.enroll (hosts.get id)).registry.find? (hosts.key id) = some _ :=
        (find?_enroll (hosts.key id)).trans (if_pos rfl)
      have hfollow : ∃ order, Additions hosts roots
          ⟨[] ++ [id], (s.enroll (hosts.get id)).registry⟩
          ⟨order, (follow hosts depth id (hosts.get id).filledSlots
            (s.enroll (hosts.get id))).registry⟩ := by
        by_cases hplain : hosts.IsPlain id
        · rw [HostTable.filledSlots_of_isPlain hplain]
          exact ⟨_, .refl⟩
        · apply additions_follow ih (fun _ he => he) (hosts.get id).pairwise_filledSlots hreached
            (List.mem_singleton_self id) hfirst
          intro e _ other hother
          rw [generatedOf_firstRecord_of_multi (HostTable.not_isPlain_iff.mp hplain)] at hother
          contradiction
      obtain ⟨order, hadded⟩ := hfollow
      rw [run_registerWithin_new depth hfind]
      refine ⟨⟨order, .head henroll hadded⟩, ?_⟩
      dsimp only
      cases hlast : (follow hosts depth id (hosts.get id).filledSlots
          (s.enroll (hosts.get id))).registry.find? (hosts.key id) with
      | none => exact .inl rfl
      | some r => exact told_of_find? hlast

/-- Registering several materials, one after the other. -/
theorem additions_registerAll {ids : List HostId} (hids : ∀ id ∈ ids, hosts.Reached roots id) :
    ∃ order', Additions hosts roots ⟨order, s.registry⟩
      ⟨order', ((ids.mapM (register hosts)).run s).2.registry⟩ := by
  induction ids generalizing order s with
  | nil => exact ⟨order, .refl⟩
  | cons id ids ih =>
    obtain ⟨hid, hids⟩ := List.forall_mem_cons.mp hids
    obtain ⟨⟨added, hadded⟩, _⟩ := enters_registerWithin hosts roots (hosts.size + 1) id s hid
    obtain ⟨order', hrest⟩ := ih hids
    rw [List.mapM_cons]
    exact ⟨order', (hadded.behind order).trans hrest⟩

end Registrar

end ShadeGraph
