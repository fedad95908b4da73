import ShadeGraph.Proofs.Registry.Reload

/-!
# How many slots a material has

The record of a material counts its slots up to the last one that leads to another material, the live
material counts them up to the last one in use. So both counts agree unless the last slot in use holds
the material itself. Then it is not found again by an approximate name.
-/

namespace ShadeGraph

theorem getElem?_append_none {slots : List (Option HostId)} {slot : Nat} {sub : HostId} :
    (slots ++ [none])[slot]? = some (some sub) ↔ slots[slot]? = some (some sub) := by
  rw [List.getElem?_append]
  split_ifs with hslot
  · rfl
  · rw [List.getElem?_singleton, List.getElem?_eq_none (Nat.le_of_not_lt hslot)]
    split_ifs <;> simp

/-- Slots are counted up to the last one in use. -/
theorem HostMaterial.lt_slotCount_iff {α : Type} {m : HostMaterial α} (h : m.isMulti = true)
    {i : Nat} : i < m.slotCount ↔ ∃ slot sub, i ≤ slot ∧ m.slots[slot]? = some (some sub) := by
  rw [slotCount, if_pos h]
  generalize m.slots = slots
  induction slots using List.reverseRecOn with
  | nil => simp
  | append_singleton slots slot ih =>
    rw [List.reverse_append, List.reverse_singleton, List.singleton_append]
    cases slot with
    | none =>
      rw [List.dropWhile_cons_of_pos rfl, ih]
      simp only [getElem?_append_none]
    | some sub =>
      rw [List.dropWhile_cons_of_neg (by simp), List.length_cons, List.length_reverse]
      constructor
      · intro hi
        exact ⟨slots.length, sub, Nat.le_of_lt_succ hi, List.getElem?_concat_length⟩
      · rintro ⟨slot, sub', hi, hget⟩
        obtain ⟨hlt, _⟩ := List.getElem?_eq_some_iff.mp hget
        rw [List.length_append, List.length_singleton] at hlt
        omega

theorem HostMaterial.slotCount_congr {α : Type} {a b : HostMaterial α} (h : a.slots = b.slots) :
    a.slotCount = b.slotCount := by rw [slotCount, slotCount, isMulti, isMulti, h]

namespace HostTable

section

variable {α : Type} (hosts : HostTable α)

/-- One more than the last slot that leads to another material; one for a plain material. -/
def linkedCount (id : HostId) : Nat :=
  if (hosts.get id).isMulti then (hosts.followed id).foldl (fun n e => max n (e.1 + 1)) 0 else 1

/-- The last slot in use holds the material itself. -/
def EndsInItself (id : HostId) : Prop :=
  ∃ slot, (hosts.get id).slots[slot]? = some (some id) ∧
    ∀ (later : Nat) (sub : HostId), slot < later →
      (hosts.get id).slots[later]? ≠ some (some sub)

/-- The materials whose records are made when one more is registered, beside those made before and
records with `known` keys. -/
def madeWithin (known : List MaterialKey) : Nat → List HostId → HostId → List HostId
  | 0, made, _ => made
  | depth + 1, made, id =>
    if hosts.key id ∈ known ++ made.map hosts.key then made
    else (hosts.followed id).foldl
      (fun made entry => madeWithin known depth made entry.2) (made ++ [id])

/-- The materials whose records are made when these are registered beside records with `known` keys. -/
abbrev made (known : List MaterialKey) (ids : List HostId) : List HostId :=
  ids.foldl (hosts.madeWithin known (hosts.size + 1)) []

end

variable {α : Type} {hosts : HostTable α} {id : HostId}

theorem lt_foldl_max_iff {es : List (Nat × HostId)} {n i : Nat} :
    i < es.foldl (fun n e => max n (e.1 + 1)) n ↔ i < n ∨ ∃ e ∈ es, i ≤ e.1 := by
  induction es generalizing n with
  | nil => simp
  | cons e es ih =>
    rw [List.foldl_cons, ih, List.exists_mem_cons_iff]
    have hmax : i < max n (e.1 + 1) ↔ i < n ∨ i ≤ e.1 := by omega
    rw [hmax, or_assoc]

theorem lt_linkedCount_iff (h : ¬ hosts.IsPlain id) {i : Nat} :
    i < hosts.linkedCount id ↔ ∃ slot sub, i ≤ slot ∧ hosts.Slot id slot sub := by
  rw [linkedCount, if_pos (not_isPlain_iff.mp h), lt_foldl_max_iff]
  simp only [Nat.not_lt_zero, false_or, Prod.exists, Slot]
  tauto

theorem linkedCount_of_isPlain (h : hosts.IsPlain id) : hosts.linkedCount id = 1 := by
  rw [linkedCount, h]
  rfl

theorem slotCount_of_isPlain (h : hosts.IsPlain id) : (hosts.get id).slotCount = 1 := by
  rw [HostMaterial.slotCount, h]
  rfl

/-- No slot that leads to another material lies behind the last one in use. -/
theorem linkedCount_le_slotCount : hosts.linkedCount id ≤ (hosts.get id).slotCount := by
  by_cases hplain : hosts.IsPlain id
  · rw [linkedCount_of_isPlain hplain, slotCount_of_isPlain hplain]
  · apply le_of_forall_lt
    intro i hi
    obtain ⟨slot, sub, hle, hslot⟩ := (lt_linkedCount_iff hplain).mp hi
    rw [HostMaterial.lt_slotCount_iff (not_isPlain_iff.mp hplain)]
    exact ⟨slot, sub, hle, (slot_iff.mp hslot).1⟩

/-- Only a last slot with the material itself tells the counts apart. -/
theorem linkedCount_eq_slotCount_iff :
    hosts.linkedCount id = (hosts.get id).slotCount ↔ ¬ hosts.EndsInItself id := by
  by_cases hplain : hosts.IsPlain id
  · rw [linkedCount_of_isPlain hplain, slotCount_of_isPlain hplain]
    simp [EndsInItself, isPlain_iff.mp hplain]
  have hused {i : Nat} := HostMaterial.lt_slotCount_iff (not_isPlain_iff.mp hplain) (i := i)
  constructor
  · rintro hsame ⟨slot, hself, hlast⟩
    have hlt : slot < hosts.linkedCount id := by
      rw [hsame, hused]
      exact ⟨slot, id, le_rfl, hself⟩
    obtain ⟨later, sub, hle, hslot⟩ := (lt_linkedCount_iff hplain).mp hlt
    obtain ⟨hget, hother⟩ := slot_iff.mp hslot
    rcases hle.lt_or_eq with hlater | rfl
    · exact hlast later sub hlater hget
    · exact hother (by simpa using hget.symm.trans hself)
  · intro hends
    by_contra hdiffer
    have hless := lt_of_le_of_ne linkedCount_le_slotCount hdiffer
    -- The last slot in use is not counted by the record, so it holds the material itself.
    obtain ⟨slot, sub, hle, hget⟩ := hused.mp (Nat.sub_one_lt_of_lt hless)
    have hbound {later : Nat} {sub : HostId} (hlater : (hosts.get id).slots[later]? = some (some sub)) :
        later < (hosts.get id).slotCount := hused.mpr ⟨later, sub, le_rfl, hlater⟩
    have hself : sub = id := by
      by_contra hother
      have hlt := (lt_linkedCount_iff hplain).mpr ⟨slot, sub, le_rfl, slot_iff.mpr ⟨hget, hother⟩⟩
      omega
    subst hself
    apply hends
    refine ⟨slot, hget, ?_⟩
    intro later sub' hlt hlater
    have hlast := hbound hlater
    omega

end HostTable

namespace Registrar

open Registry

variable {α : Type}

/-! ### Records that are made -/

/-- The registry holds the record of a material, which counts the slots that lead to others. -/
def CountsSlots (hosts : HostTable α) (registry : Registry) (id : HostId) : Prop :=
  ∃ r, registry.find? (hosts.key id) = some r ∧ r.key = hosts.key id ∧
    r.slotCount = hosts.linkedCount id

/-- Records are made beside others with `known` keys. Those with `busy` keys may still change. -/
structure Makes (hosts : HostTable α) (known busy : List MaterialKey) (s t : Survey) : Prop where
  order : s.order <+: t.order
  keys : t.registry.records.keys = known ++ t.order.map hosts.key
  nodup : (t.order.map hosts.key).Nodup
  kept : ∀ {key r}, key ∉ busy → s.registry.find? key = some r → t.registry.find? key = some r
  counts : ∀ m ∈ t.order, m ∈ s.order ∨ CountsSlots hosts t.registry m

variable {hosts : HostTable α} {known busy : List MaterialKey} {s t u : Survey} {id : HostId}

namespace Makes

theorem refl (hkeys : s.registry.records.keys = known ++ s.order.map hosts.key)
    (hnodup : (s.order.map hosts.key).Nodup) : Makes hosts known busy s s :=
  ⟨List.prefix_rfl, hkeys, hnodup, fun _ h => h, fun _ hm => .inl hm⟩

/-- While the slots of a material are followed, its record may change. It was there before. -/
theorem trans (hid : ∀ key ∈ busy, ∃ id ∈ s.order, hosts.key id = key)
    (h : Makes hosts known busy s t) (h' : Makes hosts known busy t u) :
    Makes hosts known busy s u where
  order := h.order.trans h'.order
  keys := h'.keys
  nodup := h'.nodup
  kept hkey hr := h'.kept hkey (h.kept hkey hr)
  counts := by
    intro m hm
    rcases h'.counts m hm with hm | hcounts
    · by_cases hbusy : hosts.key m ∈ busy
      · obtain ⟨id, hid, hkey⟩ := hid _ hbusy
        obtain rfl := List.inj_on_of_nodup_map h.nodup (h.order.subset hid) hm hkey
        exact .inl hid
      · apply (h.counts m hm).imp_right
        rintro ⟨r, hr, hrest⟩
        exact ⟨r, h'.kept hbusy hr, hrest⟩
    · exact .inr hcounts

theorem of_idle (h : Makes hosts known [] s t) : Makes hosts known busy s t :=
  { h with kept := fun _ hr => h.kept List.not_mem_nil hr }

theorem link (h : Makes hosts known [hosts.key id] s t) (hid : id ∈ s.order) (slot : Nat)
    (index : Int) :
    Makes hosts known [hosts.key id] s ⟨t.order, t.registry.link (hosts.key id) slot index⟩ := by
  have hlink : Makes hosts known [hosts.key id] t
      ⟨t.order, t.registry.link (hosts.key id) slot index⟩ := by
    refine ⟨List.prefix_rfl, ?_, h.nodup, ?_, fun _ hm => .inl hm⟩
    · exact (Table.keys_modify t.registry.records _ fun r => r.add slot index).trans h.keys
    · intro key r hkey hr
      rw [find?_link, if_neg (by simpa using hkey), hr]
  exact h.trans (by simpa using ⟨id, hid, rfl⟩) hlink

end Makes

/-! ### Registering -/

variable {depth : Nat} {order : List HostId} {s : Registrar}

/-- Registering one more makes the records told. -/
def MakesWithin (hosts : HostTable α) (known : List MaterialKey) (depth : Nat) : Prop :=
  ∀ {order : List HostId} {s : Registrar} (id : HostId),
    s.registry.records.keys = known ++ order.map hosts.key → (order.map hosts.key).Nodup →
    Makes hosts known [] ⟨order, s.registry⟩ ⟨hosts.madeWithin known depth order id,
      ((registerWithin hosts depth id).run s).2.registry⟩

theorem slotCount_add (r : MaterialRecord) (slot : Nat) (index : Int) :
    (r.add slot index).slotCount = max r.slotCount (slot + 1) := by
  simp only [MaterialRecord.add]
  omega

theorem makes_followSlot (hmakes : MakesWithin hosts known depth) (slot : Nat) {sub : HostId}
    (hsub : sub ≠ id) (hkeys : s.registry.records.keys = known ++ order.map hosts.key)
    (hnodup : (order.map hosts.key).Nodup) (hid : id ∈ order) {r : MaterialRecord}
    (hr : s.registry.find? (hosts.key id) = some r) :
    let later := ((followSlot hosts (registerWithin hosts depth) id (slot, sub)).run s).2.registry
    Makes hosts known [hosts.key id] ⟨order, s.registry⟩
        ⟨hosts.madeWithin known depth order sub, later⟩ ∧
      ∃ index, later.find? (hosts.key id) = some (r.add slot index) := by
  have hentered := hmakes sub hkeys hnodup
  dsimp only
  rw [registry_followSlot hsub]
  constructor
  · exact hentered.of_idle.link hid slot _
  · refine ⟨((registerWithin hosts depth sub).run s).1.generatedIndex 0, ?_⟩
    rw [find?_link, if_pos rfl, hentered.kept List.not_mem_nil hr, Option.map_some]

/-- Following slots counts up to the last of those that lead to other materials. -/
theorem makes_follow (hmakes : MakesWithin hosts known depth) (es : List (Nat × HostId))
    (hkeys : s.registry.records.keys = known ++ order.map hosts.key)
    (hnodup : (order.map hosts.key).Nodup) (hid : id ∈ order) {r : MaterialRecord}
    (hr : s.registry.find? (hosts.key id) = some r) (hkey : r.key = hosts.key id) :
    let slots := es.filter fun (_, sub) => sub ≠ id
    let later := (follow hosts depth id es s).registry
    Makes hosts known [hosts.key id] ⟨order, s.registry⟩
        ⟨slots.foldl (fun made e => hosts.madeWithin known depth made e.2) order, later⟩ ∧
      ∃ r', later.find? (hosts.key id) = some r' ∧ r'.key = hosts.key id ∧
        r'.slotCount = slots.foldl (fun n e => max n (e.1 + 1)) r.slotCount := by
  induction es generalizing order s r with
  | nil => exact ⟨.refl hkeys hnodup, r, hr, hkey, rfl⟩
  | cons e es ih =>
    obtain ⟨slot, sub⟩ := e
    dsimp only
    rw [follow_cons]
    by_cases hsub : sub = id
    · subst hsub
      have hsame :
          ((followSlot hosts (registerWithin hosts depth) sub (slot, sub)).run s).2.registry =
            s.registry := registry_followSlot_self
      rw [List.filter_cons_of_neg (by simp), ← hsame]
      rw [← hsame] at hr hkeys
      exact ih hkeys hnodup hid hr hkey
    · obtain ⟨hslot, index, hlinked⟩ := makes_followSlot hmakes slot hsub hkeys hnodup hid hr
      obtain ⟨hrest, r', hr', hkey', hcount⟩ :=
        ih hslot.keys hslot.nodup (hslot.order.subset hid) hlinked hkey
      rw [List.filter_cons_of_pos (by simpa using hsub), List.foldl_cons, List.foldl_cons]
      refine ⟨hslot.trans (by simpa using ⟨id, hid, rfl⟩) hrest, r', hr', hkey', ?_⟩
      rw [hcount, slotCount_add]

theorem slotCount_firstRecord (registry : Registry) (id : HostId) (materialId : String) :
    ((hosts.get id).filledSlots.filter fun (_, sub) => sub ≠ id).foldl
        (fun n e => max n (e.1 + 1)) (registry.firstRecord (hosts.get id) materialId).slotCount =
      hosts.linkedCount id := by
  by_cases hplain : hosts.IsPlain id
  · rw [HostTable.linkedCount_of_isPlain hplain, HostTable.filledSlots_of_isPlain hplain, firstRecord,
      if_neg (by simpa [HostTable.IsPlain] using hplain)]
    rfl
  · have hmulti := HostTable.not_isPlain_iff.mp hplain
    rw [HostTable.linkedCount, if_pos hmulti, firstRecord, if_pos hmulti]
    rfl

theorem makesWithin (hosts : HostTable α) (known : List MaterialKey) (depth : Nat) :
    MakesWithin hosts known depth := by
  induction depth with
  | zero => exact fun id hkeys hnodup => .refl hkeys hnodup
  | succ depth ih =>
    intro order s id hkeys hnodup
    rw [HostTable.madeWithin, ← hkeys]
    cases hfind : s.registry.find? (hosts.key id) with
    | some r =>
      rw [run_registerWithin_known _ hfind, if_pos (Table.mem_keys_iff.mpr ⟨r, hfind⟩)]
      exact .refl hkeys hnodup
    | none =>
      have hnew : hosts.key id ∉ s.registry.records.keys := Table.get?_eq_none_iff_notMem.mp hfind
      rw [run_registerWithin_new depth hfind, if_neg hnew]
      have hkeys' : (s.enroll (hosts.get id)).registry.records.keys =
          known ++ (order ++ [id]).map hosts.key := by
        rw [enroll, keys_enroll hfind, hkeys, List.map_append, List.append_assoc]
        rfl
      have hnodup' : ((order ++ [id]).map hosts.key).Nodup := by
        rw [hkeys, List.mem_append, not_or] at hnew
        rw [List.map_append]
        exact hnodup.append (List.nodup_singleton _) (List.disjoint_singleton.mpr hnew.2)
      have hfirst : (s.enroll (hosts.get id)).registry.find? (hosts.key id) = some _ :=
        (find?_enroll (hosts.key id)).trans (if_pos rfl)
      obtain ⟨hfollow, r, hr, hkey, hcount⟩ := makes_follow ih (hosts.get id).filledSlots hkeys' hnodup'
        (List.mem_append_right _ (List.mem_singleton_self id)) hfirst key_firstRecord
      rw [slotCount_firstRecord] at hcount
      refine ⟨(List.prefix_append _ _).trans hfollow.order, hfollow.keys, hfollow.nodup, ?_, ?_⟩
      · intro key r' _ hr'
        obtain ⟨hne, hkept⟩ := find?_enroll_of_some hfind hr'
        exact hfollow.kept (by simpa using hne) hkept
      · intro m hm
        rcases hfollow.counts m hm with hm | hcounts
        · apply (List.mem_append.mp hm).imp_right
          intro hm
          obtain rfl := List.mem_singleton.mp hm
          exact ⟨r, hr, hkey, hcount⟩
        · exact .inr hcounts

theorem makes_registerAll (hosts : HostTable α) (known : List MaterialKey) (ids : List HostId)
    (hkeys : s.registry.records.keys = known ++ order.map hosts.key)
    (hnodup : (order.map hosts.key).Nodup) :
    Makes hosts known [] ⟨order, s.registry⟩
      ⟨ids.foldl (hosts.madeWithin known (hosts.size + 1)) order, registered hosts ids s⟩ := by
  induction ids generalizing order s with
  | nil => exact .refl hkeys hnodup
  | cons id ids ih =>
    have hfirst := makesWithin hosts known (hosts.size + 1) id hkeys hnodup
    have hrest := ih hfirst.keys hfirst.nodup
    rw [registered, List.mapM_cons]
    exact hfirst.trans (by simp) hrest

/-! ### Matching by approximate names -/

/-- Where one material is live that has the approximate name of a record, it is found by its name or
else by the number of its slots. -/
theorem resolve_of_single {live : HostTable α} {scene : HostScene} {registry : Registry}
    {r : MaterialRecord} {p : HostId} {id : String} (hfind : registry.findId? id = some r)
    (hscene : scene.materials = [p])
    (hloose : Resolve.looseName r.name.display = Resolve.looseName (live.get p).name) :
    (registry.resolve live scene true id).1 = some p ↔
      (live.key p).name = r.name ∨ (live.get p).slotCount = r.slotCount := by
  simp only [Registry.resolve, hfind]
  cases hrecorded : scene.recorded? live r with
  | some m =>
    obtain ⟨hget, hname⟩ := Option.filter_eq_some_iff.mp hrecorded
    have hmem : m ∈ scene.materials := List.mem_map_of_mem (Table.mem_of_get?_eq_some hget)
    rw [hscene] at hmem
    obtain rfl := List.mem_singleton.mp hmem
    exact iff_of_true rfl (.inl (by simpa using hname))
  | none =>
    by_cases hname : (live.key p).name = r.name
    · have hnamed : scene.named live r = [p] := by simp [HostScene.named, hscene, hname]
      simp only [hnamed, hname, true_or]
    · have hnamed : scene.named live r = [] := by simp [HostScene.named, hscene, hname]
      simp only [hnamed, hname, false_or, HostScene.approximate?, hscene, hloose]
      by_cases hcount : (live.get p).slotCount = r.slotCount <;> simp [hcount]

/-- Whatever a registry holds, the records that registering makes count the slots of their materials as
these do themselves, except for materials with themselves in the last slot in use. So a material that
is alone in the scene under another handle and an approximate name is matched just if it is not such
a one, or if its name is the exact one after all. -/
theorem slotCount_eq_iff (hosts : HostTable α) (ids : List HostId) (s : Registrar) :
    let registry := registered hosts ids s
    let made := hosts.made s.registry.records.keys ids
    registry.records.keys = s.registry.records.keys ++ made.map hosts.key ∧
    ∀ m ∈ made, ∃ r, registry.find? (hosts.key m) = some r ∧ r.key = hosts.key m ∧
      (r.slotCount = (hosts.get m).slotCount ↔ ¬ hosts.EndsInItself m) ∧
      ∀ (live : HostTable α) (scene : HostScene) (p : HostId) (id : String),
        registry.findId? id = some r → scene.materials = [p] →
        (live.get p).slots = (hosts.get m).slots →
        Resolve.looseName r.name.display = Resolve.looseName (live.get p).name →
        ((registry.resolve live scene true id).1 = some p ↔
          (live.key p).name = r.name ∨ ¬ hosts.EndsInItself m) := by
  intro registry made
  have hmakes : Makes hosts s.registry.records.keys [] ⟨[], s.registry⟩ ⟨made, registry⟩ :=
    makes_registerAll hosts s.registry.records.keys ids (by simp) List.nodup_nil
  refine ⟨hmakes.keys, ?_⟩
  intro m hm
  obtain ⟨r, hr, hkey, hcount⟩ := (hmakes.counts m hm).resolve_left List.not_mem_nil
  refine ⟨r, hr, hkey, ?_, ?_⟩
  · rw [hcount, HostTable.linkedCount_eq_slotCount_iff]
  · intro live scene p id hfind hscene hslots hloose
    have hsame : (live.get p).slotCount = r.slotCount ↔ ¬ hosts.EndsInItself m := by
      rw [HostMaterial.slotCount_congr hslots, eq_comm, hcount, HostTable.linkedCount_eq_slotCount_iff]
    rw [resolve_of_single hfind hscene hloose, hsame]

/-- A material that has itself in its only slot, and one that has a plain material there. -/
def loop : HostTable Unit :=
  ⟨#[{ handle := 1, name := "Loop", slots := [some 0] },
    { handle := 2, name := "Pair", slots := [some 2] }, { handle := 3, name := "red" }]⟩

/-- Both of them under other handles, in capital letters. -/
def loopLive : HostTable Unit :=
  ⟨#[{ handle := 9, name := "LOOP", slots := [some 0] },
    { handle := 8, name := "PAIR", slots := [some 2] }, { handle := 3, name := "red" }]⟩

/-- The first one is not found again, the second one is. -/
theorem slotCount_eq_iff_loop :
    let registry := registered loop [0, 1] {}
    (∃ r, registry.find? (loop.key 0) = some r ∧ r.slotCount ≠ (loop.get 0).slotCount ∧
      (registry.resolve loopLive ⟨[(9, 0)]⟩ true r.materialId).1 ≠ some 0) ∧
    ∃ r, registry.find? (loop.key 1) = some r ∧ r.slotCount = (loop.get 1).slotCount ∧
      (registry.resolve loopLive ⟨[(8, 1)]⟩ true r.materialId).1 = some 1 := by
  intro registry
  obtain ⟨_, hcounts⟩ := slotCount_eq_iff loop [0, 1] {}
  have hloop : loop.EndsInItself 0 := by
    refine ⟨0, rfl, ?_⟩
    intro later sub hlater
    obtain ⟨later, rfl⟩ := Nat.exists_eq_add_of_lt hlater
    simp [loop, HostTable.get]
  have hpair : ¬ loop.EndsInItself 1 := by
    rintro ⟨slot, hself, _⟩
    obtain ⟨hlt, _⟩ := List.getElem?_eq_some_iff.mp hself
    obtain rfl : slot = 0 := Nat.lt_one_iff.mp hlt
    exact absurd hself (by decide)
  have htold : ∀ id ∈ [0, 1], ∀ r ∈ registry.find? (loop.key id),
      registry.findId? r.materialId = some r ∧ (loopLive.key id).name ≠ r.name ∧
        Resolve.looseName r.name.display = Resolve.looseName (loopLive.get id).name := by
    decide +kernel
  constructor
  · obtain ⟨r, hr, _, hcount, hresolve⟩ := hcounts 0 (by decide)
    obtain ⟨hfind, hname, hloose⟩ := htold 0 (by decide) r hr
    refine ⟨r, hr, hcount.not.mpr (not_not_intro hloop), ?_⟩
    rw [ne_eq, hresolve loopLive ⟨[(9, 0)]⟩ 0 r.materialId hfind rfl rfl hloose]
    exact not_or_intro hname (not_not_intro hloop)
  · obtain ⟨r, hr, _, hcount, hresolve⟩ := hcounts 1 (by decide)
    obtain ⟨hfind, _, hloose⟩ := htold 1 (by decide) r hr
    refine ⟨r, hr, hcount.mpr hpair, ?_⟩
    rw [hresolve loopLive ⟨[(8, 1)]⟩ 1 r.materialId hfind rfl rfl hloose]
    exact .inr hpair

end Registrar

end ShadeGraph
