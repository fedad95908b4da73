import ShadeGraph.Proofs.Registry.Registration

/-!
# Where slots lead

A multi-material records for each slot a place in the generated material table. For a plain material
in the slot this is its own place. For another multi-material it is what that one records for its
own first slot, or 0 where it records none, whether a material of the slot has that place or not.
-/

namespace ShadeGraph

namespace HostTable

/-- No material that this one leads to lies in its own slots. -/
def Acyclic {α : Type} (hosts : HostTable α) (id : HostId) : Prop :=
  ∀ x slot sub, hosts.Reaches id x → hosts.Slot x slot sub → ¬ hosts.Reaches sub x

end HostTable

namespace Registry

section

variable {α : Type} (hosts : HostTable α) (registry : Registry)

/-- The generated material at an index is this plain material. -/
def Owns (p : HostId) (index : Int) : Prop :=
  hosts.IsPlain p ∧ ∃ r, registry.generatedMaterial index = .ok r ∧
    registry.find? (hosts.key p) = some r

/-- The generated material at an index is in the slots of a material, or is that material. -/
def Within (id : HostId) (index : Int) : Prop :=
  ∃ p, registry.Owns hosts p index ∧ hosts.Reaches id p

/-- What the material `id` records for a slot with `sub` in it: the place of what the first slots of
`sub` lead to, or 0 instead. Without cycles it is that place whenever there is one. -/
structure Follows (id sub : HostId) (index : Int) : Prop where
  own : hosts.IsPlain sub → registry.Owns hosts sub index
  lead_or_zero : (∃ lead, hosts.Leads sub lead ∧ registry.Owns hosts lead index) ∨ index = 0
  lead_of_acyclic : hosts.Acyclic id → ∀ lead, hosts.Leads sub lead → registry.Owns hosts lead index

/-- What multi-materials record for their slots. -/
def Led (s : Survey) : Prop :=
  ∀ {id r e} {slot : Nat} {sub}, id ∈ s.order → s.registry.find? (hosts.key id) = some r →
    e ∈ r.generatedOf → e.1 = slot → hosts.Slot id slot sub → s.registry.Follows hosts id sub e.2

end

variable {α : Type} {hosts : HostTable α} {roots : List HostId} {registry : Registry} {s t : Survey}

theorem generatedMaterial_eq_ok_iff {index : Int} {r : MaterialRecord} :
    registry.generatedMaterial index = .ok r ↔
      ∃ i : Nat, index = i ∧ registry.generated[i]? = some r := by
  unfold generatedMaterial
  constructor
  · intro h
    split at h
    · rename_i r' hr
      obtain rfl : r' = r := by simpa using h
      split_ifs at hr with hneg
      exact ⟨index.toNat, by omega, hr⟩
    · contradiction
  · rintro ⟨i, rfl, hr⟩
    simp [hr, Int.not_lt.mpr (Int.natCast_nonneg i)]

/-! ### Owners -/

theorem Owns.step (ht : Sound hosts roots t) (hs : Sound hosts roots s)
    (hstep : Step hosts roots s t) {p : HostId} {index : Int}
    (h : s.registry.Owns hosts p index) : t.registry.Owns hosts p index := by
  obtain ⟨hplain, r, hr, hfind⟩ := h
  obtain ⟨i, rfl, hi⟩ := generatedMaterial_eq_ok_iff.mp hr
  have hlater := hstep.extends.getElem?_generated hi
  refine ⟨hplain, r, generatedMaterial_eq_ok_iff.mpr ⟨i, rfl, hlater⟩, ?_⟩
  rw [← hs.stored hfind]
  exact ht.find?_of_generated hlater

/-- A plain material answers for its first slot with its own place. -/
theorem Sound.owns_generatedIndex (h : Sound hosts roots s) {p : HostId} (hp : p ∈ s.order)
    (hplain : hosts.IsPlain p) {r : MaterialRecord}
    (hr : s.registry.find? (hosts.key p) = some r) :
    s.registry.Owns hosts p (r.generatedIndex 0) := by
  obtain ⟨i, r', hi, hr'⟩ := h.exists_place hp hplain
  obtain rfl : r = r' := Option.some.inj (hr.symm.trans hr')
  have hindex : r.generatedIndex 0 = i := by
    rw [MaterialRecord.generatedIndex_zero, h.numbered hi]
    rfl
  rw [hindex]
  exact ⟨hplain, r, generatedMaterial_eq_ok_iff.mpr ⟨i, rfl, hi⟩, hr⟩

/-! ### Following records -/

theorem Follows.step (ht : Sound hosts roots t) (hs : Sound hosts roots s)
    (hstep : Step hosts roots s t) {id sub : HostId} {index : Int}
    (h : s.registry.Follows hosts id sub index) : t.registry.Follows hosts id sub index := by
  refine ⟨fun hplain => (h.own hplain).step ht hs hstep, ?_, ?_⟩
  · rcases h.lead_or_zero with ⟨lead, hlead, howns⟩ | hzero
    · exact .inl ⟨lead, hlead, howns.step ht hs hstep⟩
    · exact .inr hzero
  · intro hacyclic lead hlead
    exact (h.lead_of_acyclic hacyclic lead hlead).step ht hs hstep

/-- Asking the record of a material for its first slot follows that slot. -/
theorem Led.follows_generatedIndex (h : Led hosts s) (hs : Sound hosts roots s) {id sub : HostId}
    {slot : Nat} {r : MaterialRecord} (hslot : hosts.Slot id slot sub) (hsub : sub ∈ s.order)
    (hr : s.registry.find? (hosts.key sub) = some r)
    (hready : s.registry.Complete hosts sub ∨ hosts.Reaches sub id) :
    s.registry.Follows hosts id sub (r.generatedIndex 0) := by
  by_cases hplain : hosts.IsPlain sub
  · have howns := hs.owns_generatedIndex hsub hplain hr
    refine ⟨fun _ => howns, .inl ⟨sub, .plain hplain, howns⟩, fun _ lead hlead => ?_⟩
    rwa [hlead.unique (.plain hplain)]
  · rw [MaterialRecord.generatedIndex_zero]
    refine ⟨fun h => absurd h hplain, ?_, ?_⟩
    · cases hfirst : r.generatedOf.get? 0 with
      | none => exact .inr rfl
      | some index =>
        have hmem := Table.mem_of_get?_eq_some hfirst
        obtain ⟨first, next, hcast, hnext, _⟩ := hs.linked sub hsub hplain r hr _ hmem
        have hzero : (0 : Int) = first := hcast
        obtain rfl : first = 0 := by exact_mod_cast hzero.symm
        rcases (h hsub hr hmem rfl hnext).lead_or_zero with ⟨lead, hlead, howns⟩ | hzero
        · exact .inl ⟨lead, .first hnext hlead, howns⟩
        · exact .inr hzero
    · intro hacyclic lead hlead
      have hcomplete := hready.resolve_right (hacyclic id slot sub .refl hslot)
      have hbelow : hosts.Acyclic sub := fun x slot' sub' hx =>
        hacyclic x slot' sub' (.head ⟨slot, hslot⟩ hx)
      cases hlead with
      | plain hsub => exact absurd hsub hplain
      | first hnext hlead =>
        obtain ⟨r', hr', hkey⟩ := hcomplete 0 _ hnext
        obtain rfl : r = r' := Option.some.inj (hr.symm.trans hr')
        obtain ⟨index, hfirst⟩ := Table.mem_keys_iff.mp hkey
        have hmem := Table.mem_of_get?_eq_some hfirst
        rw [Nat.cast_zero] at hfirst
        rw [hfirst]
        exact (h hsub hr hmem rfl hnext).lead_of_acyclic hbelow lead hlead

theorem Led.step (hkeys : hosts.DistinctKeys roots) (hs : Sound hosts roots s) (h : Led hosts s)
    (hstep : Step hosts roots s t) : Led hosts t := by
  have ht := hs.step hstep
  have hlater {id sub : HostId} {index : Int} (hfollows : s.registry.Follows hosts id sub index) :
      t.registry.Follows hosts id sub index := hfollows.step ht hs hstep
  intro id r e slot sub hid hr he hcast hslot
  cases hstep with
  | @enroll order registry new materialId hreached hnew =>
    rw [find?_enroll] at hr
    split_ifs at hr with hkey
    · obtain rfl : id = new := ht.key_injective hid
        (List.mem_append_right _ (List.mem_singleton_self new)) hkey
      obtain rfl := Option.some.inj hr
      have hmulti := HostTable.not_isPlain_iff.mp hslot.not_isPlain
      rw [generatedOf_firstRecord_of_multi hmulti] at he
      contradiction
    · have hold : id ∈ order := by
        rcases List.mem_append.mp hid with hid | hid
        · exact hid
        · exact absurd (congrArg hosts.key (List.mem_singleton.mp hid)) hkey
      exact hlater (h hold hr he hcast hslot)
  | @link order registry from' slot' sub' owner r' hfrom hslot' howner hkey hr' hready =>
    obtain rfl : owner = sub' :=
      hkeys owner sub' (hs.reached owner howner) ((hs.reached from' hfrom).slot hslot') hkey
    rw [find?_link] at hr
    split_ifs at hr with hkey
    · obtain rfl : id = from' := hs.key_injective hid hfrom hkey
      obtain ⟨r₀, hr₀, rfl⟩ := Option.map_eq_some_iff.mp hr
      rcases Table.mem_insertIfNew he with he | rfl
      · exact hlater (h hid hr₀ he hcast hslot)
      · have hsame : (slot' : Int) = slot := hcast
        obtain rfl : slot' = slot := by exact_mod_cast hsame
        obtain rfl := hslot.unique hslot'
        exact hlater (h.follows_generatedIndex hs hslot' howner hr' hready)
    · exact hlater (h hid hr he hcast hslot)

theorem Led.run (hkeys : hosts.DistinctKeys roots) (hs : Sound hosts roots s) (h : Led hosts s)
    (hrun : Run hosts roots s t) : Led hosts t := by
  induction hrun with
  | refl => exact h
  | tail hrun hstep ih => exact ih.step hkeys (hs.run hrun) hstep

theorem Led.empty {registry : Registry} : Led hosts ⟨[], registry⟩ :=
  fun hid => absurd hid List.not_mem_nil

/-! ### Slots that lead elsewhere -/

theorem Owns.within {p id : HostId} {index : Int} (h : registry.Owns hosts p index)
    (hreaches : hosts.Reaches id p) : registry.Within hosts id index := ⟨p, h, hreaches⟩

/-- Only the index 0 can lead out of a slot. -/
theorem Follows.within_iff {id sub : HostId} {index : Int}
    (h : registry.Follows hosts id sub index) :
    registry.Within hosts sub index ↔ index ≠ 0 ∨ registry.Within hosts sub 0 := by
  constructor
  · intro hwithin
    by_cases hzero : index = 0
    · exact .inr (hzero ▸ hwithin)
    · exact .inl hzero
  · intro hright
    rcases h.lead_or_zero with ⟨lead, hlead, howns⟩ | hzero
    · exact howns.within hlead.reaches
    · exact hzero ▸ hright.resolve_left (not_not_intro hzero)

/-- Without cycles it depends on the first slots alone whether an index leads out of a slot. -/
theorem Follows.within_iff_of_acyclic {id sub : HostId} {index : Int}
    (h : registry.Follows hosts id sub index) (hacyclic : hosts.Acyclic id) :
    registry.Within hosts sub index ↔
      (∃ lead, hosts.Leads sub lead) ∨ registry.Within hosts sub 0 := by
  constructor
  · intro hwithin
    rcases h.lead_or_zero with ⟨lead, hlead, _⟩ | hzero
    · exact .inl ⟨lead, hlead⟩
    · exact .inr (hzero ▸ hwithin)
  · rintro (⟨lead, hlead⟩ | hzero)
    · exact (h.lead_of_acyclic hacyclic lead hlead).within hlead.reaches
    · exact h.within_iff.mpr (.inr hzero)

end Registry

namespace Registrar

open Registry

variable {α : Type}

/-- Whatever was registered, every entry of a multi-material is for one of its slots, with its own
index for a plain material there. The index belongs to a material of the slot unless it is 0 and the
first generated material is not of the slot. Without cycles that happens just where the first slots
end in no plain material. -/
theorem slot_entries (hosts : HostTable α) (ids : List HostId) (s : Registrar)
    (hrecords : s.registry.records = []) (hgenerated : s.registry.generated = [])
    (hkeys : hosts.DistinctKeys ids) :
    let registry := ((ids.mapM (register hosts)).run s).2.registry
    ∀ id r, hosts.Reached ids id → ¬ hosts.IsPlain id → registry.find? (hosts.key id) = some r →
      ∀ e ∈ r.generatedOf, ∃ (slot : Nat) (sub : HostId), e.1 = slot ∧ hosts.Slot id slot sub ∧
        (hosts.IsPlain sub → registry.Owns hosts sub e.2) ∧
        (registry.Within hosts sub e.2 ↔ e.2 ≠ 0 ∨ registry.Within hosts sub 0) ∧
        (hosts.Acyclic id → (registry.Within hosts sub e.2 ↔
          (∃ lead, hosts.Leads sub lead) ∨ registry.Within hosts sub 0)) := by
  intro registry id r hreached hmulti hr e he
  have hempty : Settled hosts ids ⟨[], s.registry⟩ := .empty hrecords hgenerated
  obtain ⟨order, hrun, hsettled⟩ := hempty.registerAll fun id hid => ⟨id, hid, .refl⟩
  have hled : Led hosts ⟨order, registry⟩ := Led.empty.run hkeys hempty.sound hrun
  obtain ⟨owner, howner, hkey⟩ := List.mem_map.mp (hsettled.sound.mem_keys_iff.mpr ⟨r, hr⟩)
  obtain rfl := hkeys owner id (hsettled.sound.reached owner howner) hreached hkey
  obtain ⟨slot, sub, hcast, hslot, _⟩ := hsettled.sound.linked owner howner hmulti r hr e he
  have hfollows := hled howner hr he hcast hslot
  exact ⟨slot, sub, hcast, hslot, hfollows.own, hfollows.within_iff, hfollows.within_iff_of_acyclic⟩

/-- A plain material and a multi-material whose first slot is empty, in the slots of another one. -/
def emptyFirstSlot : HostTable Unit :=
  ⟨#[{ handle := 1, name := "outer", slots := [some 1, some 2] }, { handle := 2, name := "red" },
    { handle := 3, name := "inner", slots := [none, some 3] }, { handle := 4, name := "blue" }]⟩

theorem distinctKeys_emptyFirstSlot : emptyFirstSlot.DistinctKeys [0] :=
  HostTable.distinctKeys_of_closed [0, 1, 2, 3] (by decide) (by decide) (by decide)

/-- The second slot of the outer material leads to the plain one in its first slot. -/
theorem slot_entries_emptyFirstSlot :
    let registry := (([0].mapM (register emptyFirstSlot)).run {}).2.registry
    emptyFirstSlot.DistinctKeys [0] ∧ ∃ r, registry.find? (emptyFirstSlot.key 0) = some r ∧
      (1, 0) ∈ r.generatedOf ∧ emptyFirstSlot.Slot 0 1 2 ∧
      registry.Owns emptyFirstSlot 1 0 ∧ ¬ registry.Within emptyFirstSlot 2 0 := by
  intro registry
  have hentries := slot_entries emptyFirstSlot [0] {} rfl rfl distinctKeys_emptyFirstSlot
  have hrecord : (registry.find? (emptyFirstSlot.key 0)).map (·.generatedOf) =
      some [(0, 0), (1, 0)] := by decide +kernel
  obtain ⟨r, hr, hslots⟩ := Option.map_eq_some_iff.mp hrecord
  have hentry {e : Int × Int} (he : e ∈ r.generatedOf) :=
    hentries 0 r ⟨0, List.mem_singleton_self 0, .refl⟩ (by decide) hr e he
  obtain ⟨slot, sub, hcast, hslot, hown, _⟩ := hentry (e := (0, 0)) (by simp [hslots])
  have hfirst : (0 : Int) = slot := hcast
  obtain rfl : slot = 0 := by exact_mod_cast hfirst.symm
  obtain rfl : sub = 1 := hslot.unique (by decide : (0, 1) ∈ emptyFirstSlot.followed 0)
  have hred := hown rfl
  refine ⟨distinctKeys_emptyFirstSlot, r, hr, by simp [hslots],
    (by decide : (1, 2) ∈ emptyFirstSlot.followed 0), hred, ?_⟩
  rintro ⟨p, ⟨_, r', hr', hfind⟩, hreaches⟩
  obtain ⟨_, r'', hr'', hfind'⟩ := hred
  obtain rfl : r' = r'' := Except.ok.inj (hr'.symm.trans hr'')
  have hinner : emptyFirstSlot.Reached [2] p := ⟨2, List.mem_singleton_self 2, hreaches⟩
  have hbelow := hinner.mem [2, 3] (by decide) (by decide)
  have hother : ∀ q ∈ [2, 3], registry.find? (emptyFirstSlot.key q) ≠
      registry.find? (emptyFirstSlot.key 1) := by decide +kernel
  exact hother p hbelow (hfind.trans hfind'.symm)

end Registrar

end ShadeGraph
