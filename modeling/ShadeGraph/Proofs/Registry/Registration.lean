import ShadeGraph.Proofs.Registry.Steps

/-!
# Registering materials

Registering a material is a run of steps that meets materials in the order of exploring them, and it
leaves no record behind that lacks slots. How deep slots may be followed makes no difference as long
as it is deeper than there are materials.
-/

namespace ShadeGraph

namespace Registrar

open Registry

variable {α : Type} {hosts : HostTable α} {roots : List HostId} {depth : Nat} {id : HostId}
variable {s : Registrar}

/-! ### One material -/

/-- A registrar that has minted an id and enrolled a material under it. -/
def enroll (s : Registrar) (m : HostMaterial α) : Registrar :=
  { s with registry := s.registry.enroll m s.ids.mint.1, ids := s.ids.mint.2 }

/-- A registrar that has followed some slots of a material. -/
def follow (hosts : HostTable α) (depth : Nat) (id : HostId) (entries : List (Nat × HostId))
    (s : Registrar) : Registrar :=
  ((entries.forM (followSlot hosts (registerWithin hosts depth) id)).run s).2

theorem run_registerWithin_known (depth : Nat) {r : MaterialRecord}
    (h : s.registry.find? (hosts.key id) = some r) :
    (registerWithin hosts (depth + 1) id).run s = (r, s) := by
  simp only [registerWithin, StateT.run_bind, StateT.run_get, pure_bind, h]
  rfl

theorem run_registerWithin_new (depth : Nat) (h : s.registry.find? (hosts.key id) = none) :
    (registerWithin hosts (depth + 1) id).run s =
      let s' := follow hosts depth id (hosts.get id).filledSlots (s.enroll (hosts.get id))
      let r := (s'.registry.find? (hosts.key id)).getD ((hosts.get id).record s.ids.mint.1)
      (r, { s' with journal := s'.journal.debug (registeredText r) }) := by
  by_cases hmulti : (hosts.get id).isMulti = true
  · have henroll : s.enroll (hosts.get id) = { s with
        registry := s.registry.insert ((hosts.get id).record s.ids.mint.1)
        ids := s.ids.mint.2 } := by
      rw [enroll, Registry.enroll, if_pos hmulti]
    simp only [registerWithin, StateT.run_bind, StateT.run_get, pure_bind, h, hmulti, if_true,
      follow, henroll]
    rfl
  · have henroll : s.enroll (hosts.get id) = { s with
        registry := (s.registry.insert ((hosts.get id).record s.ids.mint.1)).place
          ((hosts.get id).record s.ids.mint.1)
        ids := s.ids.mint.2 } := by
      rw [enroll, Registry.enroll, if_neg hmulti]
    have hnone := HostTable.filledSlots_of_isPlain (Bool.not_eq_true _ ▸ hmulti)
    simp only [registerWithin, StateT.run_bind, StateT.run_get, pure_bind, h, hmulti, follow,
      henroll, hnone]
    rfl

/-! ### Following slots -/

theorem follow_cons {e : Nat × HostId} {es : List (Nat × HostId)} :
    follow hosts depth id (e :: es) s = follow hosts depth id es
      ((followSlot hosts (registerWithin hosts depth) id e).run s).2 := rfl

theorem registry_followSlot_self {enter : HostId → Register MaterialRecord} {slot : Nat} :
    ((followSlot hosts enter id (slot, id)).run s).2.registry = s.registry := by
  simp only [followSlot, if_true]
  rfl

theorem registry_followSlot {enter : HostId → Register MaterialRecord} {slot : Nat} {sub : HostId}
    (h : sub ≠ id) :
    ((followSlot hosts enter id (slot, sub)).run s).2.registry =
      ((enter sub).run s).2.registry.link (hosts.key id) slot
        (((enter sub).run s).1.generatedIndex 0) := by
  simp only [followSlot, if_neg h, StateT.run_bind]
  rfl

/-! ### What registration does -/

/-- A run after which nothing that was met on it lacks slots. -/
structure Settles (hosts : HostTable α) (roots : List HostId) (s t : Survey) : Prop where
  run : Run hosts roots s t
  complete : ∀ x ∈ t.order, x ∈ s.order ∨ t.registry.Complete hosts x

/-- A material can be registered with this depth: what still lacks slots leads to it. -/
structure Ready (hosts : HostTable α) (roots : List HostId) (depth : Nat) (s : Survey)
    (id : HostId) : Prop where
  sound : Sound hosts roots s
  reached : hosts.Reached roots id
  deep : hosts.unmet (fun x => hosts.key x ∈ s.order.map hosts.key) < depth
  pending : ∀ x ∈ s.order, s.registry.Complete hosts x ∨ hosts.Reaches x id

section

variable {t u v : Survey}

theorem Settles.refl (t : Survey) : Settles hosts roots t t := ⟨.refl, fun _ hx => .inl hx⟩

theorem Settles.trans (h : Settles hosts roots t u) (h' : Settles hosts roots u v) :
    Settles hosts roots t v := by
  constructor
  · exact Relation.ReflTransGen.trans h.run h'.run
  · intro x hx
    rcases h'.complete x hx with hx | hcomplete
    · exact (h.complete x hx).imp_right h'.run.extends.complete
    · exact .inr hcomplete

theorem Ready.settles (h : Ready hosts roots depth t id) (h' : Settles hosts roots t u) :
    Ready hosts roots depth u id := by
  refine ⟨h.sound.run h'.run, h.reached, ?_, ?_⟩
  · apply lt_of_le_of_lt _ h.deep
    apply HostTable.unmet_mono
    intro x hx
    exact (h'.run.order_prefix.map hosts.key).subset hx
  · intro x hx
    rcases h'.complete x hx with hx | hcomplete
    · exact (h.pending x hx).imp_left h'.run.extends.complete
    · exact .inl hcomplete

theorem Ready.slot {sub : HostId} {slot : Nat} (h : Ready hosts roots depth t id)
    (hslot : hosts.Slot id slot sub) : Ready hosts roots depth t sub :=
  ⟨h.sound, h.reached.slot hslot, h.deep, fun x hx => (h.pending x hx).imp_right (·.slot hslot)⟩

theorem Ready.enroll {order : List HostId} {registry : Registry} {materialId : String}
    (h : Ready hosts roots (depth + 1) ⟨order, registry⟩ id) (hmulti : ¬ hosts.IsPlain id)
    (hnew : registry.find? (hosts.key id) = none) :
    Ready hosts roots depth ⟨order ++ [id], registry.enroll (hosts.get id) materialId⟩ id := by
  have hstep : Step hosts roots ⟨order, registry⟩ _ := .enroll materialId h.reached hnew
  refine ⟨h.sound.step hstep, h.reached, ?_, ?_⟩
  · apply lt_of_lt_of_le _ (Nat.le_of_lt_succ h.deep)
    apply HostTable.unmet_lt _ hmulti (h.sound.key_notMem hnew)
    · exact List.mem_map_of_mem (List.mem_append_right _ (List.mem_singleton_self id))
    · intro x hx
      exact (hstep.order_prefix.map hosts.key).subset hx
  · intro x hx
    rcases List.mem_append.mp hx with hx | hx
    · exact (h.pending x hx).imp_left hstep.extends.complete
    · obtain rfl := List.mem_singleton.mp hx
      exact .inr .refl

end

/-- Registering explores, and returns the record that is stored. -/
def Registers (hosts : HostTable α) (roots : List HostId) (depth : Nat) : Prop :=
  ∀ {order : List HostId} {s : Registrar} {id : HostId},
    Ready hosts roots depth ⟨order, s.registry⟩ id →
    Settles hosts roots ⟨order, s.registry⟩ ⟨hosts.exploreWithin depth order id,
        ((registerWithin hosts depth id).run s).2.registry⟩ ∧
      ((registerWithin hosts depth id).run s).2.registry.find? (hosts.key id) =
        some ((registerWithin hosts depth id).run s).1

theorem settles_link {order : List HostId} {registry : Registry} {slot : Nat} {sub : HostId}
    {r : MaterialRecord} (hid : id ∈ order) (hslot : hosts.Slot id slot sub)
    (hready : Ready hosts roots depth ⟨order, registry⟩ id)
    (hr : registry.find? (hosts.key sub) = some r) :
    let linked := registry.link (hosts.key id) slot (r.generatedIndex 0)
    Settles hosts roots ⟨order, registry⟩ ⟨order, linked⟩ ∧
      ∃ r', linked.find? (hosts.key id) = some r' ∧ (slot : Int) ∈ r'.generatedOf.keys := by
  constructor
  · obtain ⟨owner, howner, hkey⟩ := List.mem_map.mp (hready.sound.mem_keys_iff.mpr ⟨r, hr⟩)
    have hstep : Step hosts roots ⟨order, registry⟩ _ :=
      .link hid hslot howner hkey hr (hready.pending owner howner)
    exact ⟨.single hstep, fun x hx => .inl hx⟩
  · obtain ⟨own, hown⟩ := hready.sound.mem_keys_iff.mp (List.mem_map_of_mem hid)
    refine ⟨own.add slot (r.generatedIndex 0), ?_, Table.mem_keys_insertIfNew _ _ _⟩
    rw [find?_link, if_pos rfl, hown]
    rfl

/-- Following slots links each of them once its material is registered. -/
theorem settles_follow (hregisters : Registers hosts roots depth) {es : List (Nat × HostId)}
    {order : List HostId} {s : Registrar} (hes : ∀ e ∈ es, e ∈ (hosts.get id).filledSlots)
    (hid : id ∈ order) (hready : Ready hosts roots depth ⟨order, s.registry⟩ id) :
    Settles hosts roots ⟨order, s.registry⟩
        ⟨(es.filter fun (_, sub) => sub ≠ id).foldl
          (fun seen entry => hosts.exploreWithin depth seen entry.2) order,
          (follow hosts depth id es s).registry⟩ ∧
      ∀ e ∈ es, e.2 ≠ id → ∃ r,
        (follow hosts depth id es s).registry.find? (hosts.key id) = some r ∧
          (e.1 : Int) ∈ r.generatedOf.keys := by
  -- What a slot leads to is registered with one step less; what is pending stays above it.
  induction es generalizing order s with
  | nil => exact ⟨.refl _, fun _ he => absurd he (List.not_mem_nil)⟩
  | cons e es ih =>
    obtain ⟨slot, sub⟩ := e
    obtain ⟨he, hes⟩ := List.forall_mem_cons.mp hes
    rw [follow_cons]
    by_cases hsub : sub = id
    · subst hsub
      have hsame :
          ((followSlot hosts (registerWithin hosts depth) sub (slot, sub)).run s).2.registry =
            s.registry := registry_followSlot_self
      rw [← hsame] at hready ⊢
      obtain ⟨hsettles, hlinked⟩ := ih hes hid hready
      refine ⟨by simpa using hsettles, ?_⟩
      rw [List.forall_mem_cons]
      exact ⟨fun h => absurd rfl h, hlinked⟩
    · have hslot : hosts.Slot id slot sub :=
        List.mem_filter.mpr ⟨he, decide_eq_true hsub⟩
      obtain ⟨hsub₁, hfound⟩ := hregisters (hready.slot hslot)
      have hid₁ := hsub₁.run.order_prefix.subset hid
      have hready₁ := hready.settles hsub₁
      obtain ⟨hlink, hown⟩ := settles_link hid₁ hslot hready₁ hfound
      rw [← registry_followSlot hsub] at hlink hown
      have hready₂ := hready₁.settles hlink
      obtain ⟨hsettles, hlinked⟩ := ih hes hid₁ hready₂
      refine ⟨?_, ?_⟩
      · rw [List.filter_cons_of_pos (by simpa using hsub), List.foldl_cons]
        exact (hsub₁.trans hlink).trans hsettles
      · rw [List.forall_mem_cons]
        exact ⟨fun _ => hsettles.run.extends.exists_slot hown, hlinked⟩

/-- After all slots of a new material have been followed, its record lacks none. -/
theorem settles_enrolled (hregisters : Registers hosts roots depth) {order : List HostId}
    (hready : Ready hosts roots (depth + 1) ⟨order, s.registry⟩ id)
    (hnew : s.registry.find? (hosts.key id) = none) :
    let s' := follow hosts depth id (hosts.get id).filledSlots (s.enroll (hosts.get id))
    Settles hosts roots ⟨order ++ [id], (s.enroll (hosts.get id)).registry⟩
        ⟨(hosts.followed id).foldl (fun seen entry => hosts.exploreWithin depth seen entry.2)
          (order ++ [id]), s'.registry⟩ ∧
      s'.registry.Complete hosts id := by
  by_cases hplain : hosts.IsPlain id
  · rw [HostTable.followed_of_isPlain hplain, HostTable.filledSlots_of_isPlain hplain]
    exact ⟨.refl _, fun _ _ hslot => absurd hplain hslot.not_isPlain⟩
  · have hid : id ∈ order ++ [id] := List.mem_append_right _ (List.mem_singleton_self id)
    obtain ⟨hsettles, hlinked⟩ := settles_follow (s := s.enroll (hosts.get id)) hregisters
      (fun _ he => he) hid (hready.enroll hplain hnew)
    refine ⟨hsettles, ?_⟩
    intro slot sub hslot
    obtain ⟨hfilled, hsub⟩ := List.mem_filter.mp hslot
    exact hlinked (slot, sub) hfilled (by simpa using hsub)

theorem registers (hosts : HostTable α) (roots : List HostId) (depth : Nat) :
    Registers hosts roots depth := by
  induction depth with
  | zero => exact fun hready => absurd hready.deep (Nat.not_lt_zero _)
  | succ depth ih =>
    intro order s id hready
    cases hfind : s.registry.find? (hosts.key id) with
    | some r =>
      have hmet : hosts.key id ∈ order.map hosts.key := hready.sound.mem_keys_iff.mpr ⟨r, hfind⟩
      rw [run_registerWithin_known _ hfind, HostTable.exploreWithin, if_pos hmet]
      exact ⟨.refl _, hfind⟩
    | none =>
      have hnew : hosts.key id ∉ order.map hosts.key := hready.sound.key_notMem hfind
      obtain ⟨hsettles, hcomplete⟩ := settles_enrolled ih hready hfind
      rw [HostTable.exploreWithin, if_neg hnew, run_registerWithin_new depth hfind]
      refine ⟨⟨.head (.enroll _ hready.reached hfind) hsettles.run, ?_⟩, ?_⟩
      · intro x hx
        rcases hsettles.complete x hx with hx | hx
        · rcases List.mem_append.mp hx with hx | hx
          · exact .inl hx
          · obtain rfl := List.mem_singleton.mp hx
            exact .inr hcomplete
        · exact .inr hx
      · have hfirst : (s.enroll (hosts.get id)).registry.find? (hosts.key id) = some _ :=
          (find?_enroll (hosts.key id)).trans (if_pos rfl)
        obtain ⟨r, hr, _⟩ := hsettles.run.extends.records hfirst
        simp only [hr, Option.getD_some]

/-! ### Between registrations -/

/-- A registry while no material is being registered. -/
structure Settled (hosts : HostTable α) (roots : List HostId) (t : Survey) : Prop where
  sound : Sound hosts roots t
  complete : ∀ x ∈ t.order, t.registry.Complete hosts x

namespace Settled

variable {t : Survey}

theorem empty {registry : Registry} (hrecords : registry.records = [])
    (hgenerated : registry.generated = []) : Settled hosts roots ⟨[], registry⟩ := by
  have hnone {key : MaterialKey} {r : MaterialRecord} : registry.find? key ≠ some r := by
    rw [find?, hrecords]
    exact fun h => nomatch h
  refine ⟨⟨?_, List.nodup_nil, ?_, fun hr => absurd hr hnone, fun hr => absurd hr hnone, ?_, ?_, ?_⟩,
    ?_⟩
  · simp [hrecords]
  · simp
  · simp [hgenerated, HostTable.plains]
  · intro i r hr
    simp [hgenerated] at hr
  · simp
  · simp

theorem mono {roots' : List HostId} (h : Settled hosts roots t)
    (hroots : ∀ id, hosts.Reached roots id → hosts.Reached roots' id) : Settled hosts roots' t :=
  ⟨h.sound.mono hroots, h.complete⟩

theorem ready (h : Settled hosts roots t) (hreached : hosts.Reached roots id) :
    Ready hosts roots (hosts.size + 1) t id :=
  ⟨h.sound, hreached, Nat.lt_succ_of_le HostTable.unmet_le_size, fun x hx => .inl (h.complete x hx)⟩

theorem register {order : List HostId} (h : Settled hosts roots ⟨order, s.registry⟩)
    (hreached : hosts.Reached roots id) :
    Settles hosts roots ⟨order, s.registry⟩ ⟨hosts.exploreWithin (hosts.size + 1) order id,
        ((register hosts id).run s).2.registry⟩ ∧
      Settled hosts roots ⟨hosts.exploreWithin (hosts.size + 1) order id,
        ((register hosts id).run s).2.registry⟩ ∧
      ((register hosts id).run s).2.registry.find? (hosts.key id) =
        some ((register hosts id).run s).1 := by
  obtain ⟨hsettles, hfound⟩ := registers hosts roots _ (h.ready hreached)
  refine ⟨hsettles, ⟨h.sound.run hsettles.run, ?_⟩, hfound⟩
  intro x hx
  rcases hsettles.complete x hx with hx | hcomplete
  · exact hsettles.run.extends.complete (h.complete x hx)
  · exact hcomplete

theorem key_mem_of_slot (h : Settled hosts roots t) {x y : HostId} {slot : Nat} (hx : x ∈ t.order)
    (hslot : hosts.Slot x slot y) : hosts.key y ∈ t.order.map hosts.key := by
  obtain ⟨r, hr, hmem⟩ := h.complete x hx slot y hslot
  obtain ⟨e, he, hslot'⟩ := List.mem_map.mp hmem
  obtain ⟨slot', sub, hcast, hsub, hkey⟩ := h.sound.linked x hx hslot.not_isPlain r hr e he
  obtain rfl : slot = slot' := by exact_mod_cast hslot'.symm.trans hcast
  rwa [hslot.unique hsub]

/-- What is registered is closed under slots. -/
theorem mem_of_slot (h : Settled hosts roots t) (hkeys : hosts.DistinctKeys roots) {x y : HostId}
    {slot : Nat} (hx : x ∈ t.order) (hslot : hosts.Slot x slot y) : y ∈ t.order := by
  have hreached := (h.sound.reached x hx).slot hslot
  exact (hkeys.key_mem_iff h.sound.reached hreached).mp (h.key_mem_of_slot hx hslot)

/-- Registering several materials, one after the other, explores them. -/
theorem registerAll_explored {order : List HostId} (h : Settled hosts roots ⟨order, s.registry⟩)
    {ids : List HostId} (hids : ∀ id ∈ ids, hosts.Reached roots id) :
    Run hosts roots ⟨order, s.registry⟩
        ⟨ids.foldl (hosts.exploreWithin (hosts.size + 1)) order,
          ((ids.mapM (Registrar.register hosts)).run s).2.registry⟩ ∧
      Settled hosts roots ⟨ids.foldl (hosts.exploreWithin (hosts.size + 1)) order,
        ((ids.mapM (Registrar.register hosts)).run s).2.registry⟩ := by
  induction ids generalizing order s with
  | nil => exact ⟨.refl, h⟩
  | cons id ids ih =>
    obtain ⟨hid, hids⟩ := List.forall_mem_cons.mp hids
    obtain ⟨hsettles, hsettled, _⟩ := h.register hid
    obtain ⟨hrun, hsettled'⟩ := ih hsettled hids
    rw [List.mapM_cons]
    exact ⟨Relation.ReflTransGen.trans hsettles.run hrun, hsettled'⟩

theorem registerAll {order : List HostId} (h : Settled hosts roots ⟨order, s.registry⟩)
    {ids : List HostId} (hids : ∀ id ∈ ids, hosts.Reached roots id) :
    ∃ order', Run hosts roots ⟨order, s.registry⟩
        ⟨order', ((ids.mapM (Registrar.register hosts)).run s).2.registry⟩ ∧
      Settled hosts roots ⟨order', ((ids.mapM (Registrar.register hosts)).run s).2.registry⟩ :=
  ⟨_, h.registerAll_explored hids⟩

end Settled

/-! ### Depth -/

theorem extends_followSlot (hosts : HostTable α) {enter : HostId → Register MaterialRecord}
    (henter : ∀ (sub : HostId) (s : Registrar), s.registry.Extends ((enter sub).run s).2.registry)
    (id : HostId) (e : Nat × HostId) (s : Registrar) :
    s.registry.Extends ((followSlot hosts enter id e).run s).2.registry := by
  obtain ⟨slot, sub⟩ := e
  by_cases hsub : sub = id
  · subst hsub
    rw [registry_followSlot_self]
    exact .refl _
  · rw [registry_followSlot hsub]
    exact (henter sub s).trans (extends_link _ _ _)

theorem extends_follow (henter : ∀ (sub : HostId) (s : Registrar),
      s.registry.Extends ((registerWithin hosts depth sub).run s).2.registry)
    (es : List (Nat × HostId)) (s : Registrar) :
    s.registry.Extends (follow hosts depth id es s).registry := by
  induction es generalizing s with
  | nil => exact .refl _
  | cons e es ih =>
    rw [follow_cons]
    exact (extends_followSlot hosts henter id e s).trans (ih _)

theorem extends_registerWithin (hosts : HostTable α) (depth : Nat) (id : HostId) (s : Registrar) :
    s.registry.Extends ((registerWithin hosts depth id).run s).2.registry := by
  induction depth generalizing id s with
  | zero => exact .refl _
  | succ depth ih =>
    cases hfind : s.registry.find? (hosts.key id) with
    | some r =>
      rw [run_registerWithin_known _ hfind]
      exact .refl _
    | none =>
      rw [run_registerWithin_new depth hfind]
      exact (extends_enroll hfind).trans (extends_follow ih _ (s.enroll (hosts.get id)))

theorem extends_register (hosts : HostTable α) (id : HostId) (s : Registrar) :
    s.registry.Extends ((register hosts id).run s).2.registry :=
  extends_registerWithin hosts _ id s

/-- The record that registering returns is the one that is stored. -/
theorem find?_register (hosts : HostTable α) (id : HostId) (s : Registrar) :
    ((register hosts id).run s).2.registry.find? (hosts.key id) =
      some ((register hosts id).run s).1 := by
  rw [register]
  cases hfind : s.registry.find? (hosts.key id) with
  | some r =>
    rw [run_registerWithin_known _ hfind]
    exact hfind
  | none =>
    have hfirst : (s.enroll (hosts.get id)).registry.find? (hosts.key id) = some _ :=
      (find?_enroll (hosts.key id)).trans (if_pos rfl)
    have hgrows : (s.enroll (hosts.get id)).registry.Extends (follow hosts hosts.size id
        (hosts.get id).filledSlots (s.enroll (hosts.get id))).registry :=
      extends_follow (extends_registerWithin hosts hosts.size) _ _
    obtain ⟨r, hr, -⟩ := hgrows.records hfirst
    rw [run_registerWithin_new _ hfind]
    simp only [hr, Option.getD_some]

/-- The materials of the table that a registry has no record for. -/
def unregistered (hosts : HostTable α) (registry : Registry) : Nat :=
  hosts.unmet fun id => (registry.find? (hosts.key id)).isSome

theorem unregistered_mono (hosts : HostTable α) {a b : Registry} (h : a.Extends b) :
    unregistered hosts b ≤ unregistered hosts a := by
  apply HostTable.unmet_mono
  intro id hid
  exact h.isSome_find? hid

theorem unregistered_enroll_lt {registry : Registry} {materialId : String}
    (hmulti : ¬ hosts.IsPlain id) (hnew : registry.find? (hosts.key id) = none) :
    unregistered hosts (registry.enroll (hosts.get id) materialId) <
      unregistered hosts registry := by
  apply HostTable.unmet_lt _ hmulti (by simp [hnew])
  · rw [find?_enroll, if_pos rfl]
    rfl
  · intro other hother
    exact (extends_enroll hnew).isSome_find? hother

theorem follow_congr {depth' : Nat}
    (h : ∀ (sub : HostId) (s : Registrar), unregistered hosts s.registry < depth →
      unregistered hosts s.registry < depth' →
      (registerWithin hosts depth sub).run s = (registerWithin hosts depth' sub).run s)
    (es : List (Nat × HostId)) (s : Registrar) (hdepth : unregistered hosts s.registry < depth)
    (hdepth' : unregistered hosts s.registry < depth') :
    follow hosts depth id es s = follow hosts depth' id es s := by
  induction es generalizing s with
  | nil => rfl
  | cons e es ih =>
    obtain ⟨slot, sub⟩ := e
    have hslot : (followSlot hosts (registerWithin hosts depth) id (slot, sub)).run s =
        (followSlot hosts (registerWithin hosts depth') id (slot, sub)).run s := by
      by_cases hsub : sub = id
      · simp only [followSlot, if_pos hsub]
      · simp only [followSlot, if_neg hsub, StateT.run_bind, h sub s hdepth hdepth']
    have hless := unregistered_mono hosts
      (extends_followSlot hosts (extends_registerWithin hosts depth) id (slot, sub) s)
    rw [follow_cons, follow_cons, ← hslot]
    exact ih _ (hless.trans_lt hdepth) (hless.trans_lt hdepth')

theorem run_registerWithin_congr {depth' : Nat} (hdepth : unregistered hosts s.registry < depth)
    (hdepth' : unregistered hosts s.registry < depth') :
    (registerWithin hosts depth id).run s = (registerWithin hosts depth' id).run s := by
  induction depth generalizing depth' id s with
  | zero => exact absurd hdepth (Nat.not_lt_zero _)
  | succ depth ih =>
    obtain _ | depth' := depth'
    · exact absurd hdepth' (Nat.not_lt_zero _)
    cases hfind : s.registry.find? (hosts.key id) with
    | some r => rw [run_registerWithin_known _ hfind, run_registerWithin_known _ hfind]
    | none =>
      have hfollow : follow hosts depth id (hosts.get id).filledSlots (s.enroll (hosts.get id)) =
          follow hosts depth' id (hosts.get id).filledSlots (s.enroll (hosts.get id)) := by
        by_cases hplain : hosts.IsPlain id
        · rw [HostTable.filledSlots_of_isPlain hplain]
          rfl
        · have hless : unregistered hosts (s.enroll (hosts.get id)).registry <
              unregistered hosts s.registry := unregistered_enroll_lt hplain hfind
          exact follow_congr (fun _ _ => ih) _ _ (by omega) (by omega)
      rw [run_registerWithin_new depth hfind, run_registerWithin_new depth' hfind, hfollow]

/-- The bound on the depth is never met: with any greater one the same is done. -/
theorem registerWithin_eq_register (hdepth : hosts.size < depth) :
    registerWithin hosts depth = register hosts := by
  funext id s
  exact run_registerWithin_congr (HostTable.unmet_le_size.trans_lt hdepth)
    (Nat.lt_succ_of_le HostTable.unmet_le_size)

end Registrar

end ShadeGraph
