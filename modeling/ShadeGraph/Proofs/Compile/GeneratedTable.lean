import ShadeGraph.Proofs.Compile.Tour

/-!
# The generated material table

The materials that a list of host materials is compiled to stand in the order of the generated
material table, each at the place that its record tells. Every plain material that the list leads to
is compiled once, and nothing else is.
-/

namespace ShadeGraph

namespace Compile

variable {α β : Type} {ctx : Context α} {hosts : HostTable α} {id : HostId}

/-- The session after a material was registered. -/
def afterRegister (hosts : HostTable α) (id : HostId) (ctx : Context α) : Context α :=
  { ctx with registrar := ((Registrar.register hosts id).run ctx.registrar).2 }

/-- Registering a material beforehand makes no difference to a step that begins with it. -/
theorem run_register_bind (f : MaterialRecord → Compile α β)
    (h : (afterRegister hosts id ctx).registrar.registry.find? (hosts.key id) =
      some ((Registrar.register hosts id).run ctx.registrar).1) :
    (register (Registrar.register hosts id) >>= f).run.run ctx =
      (register (Registrar.register hosts id) >>= f).run.run (afterRegister hosts id ctx) := by
  rw [run_bind, run_bind, run_register_known h]
  rfl

variable [Scalar α]

theorem run_visitWithin_registered (depth : Nat) {tour : Tour}
    (h : (afterRegister hosts id ctx).registrar.registry.find? (hosts.key id) =
      some ((Registrar.register hosts id).run ctx.registrar).1)
    (hmet : id ∈ tour.multis → ∃ r, ctx.registrar.registry.find? (hosts.key id) = some r) :
    (visitWithin hosts (depth + 1) id tour).run.run ctx =
      (visitWithin hosts (depth + 1) id tour).run.run (afterRegister hosts id ctx) := by
  unfold visitWithin
  dsimp only
  split_ifs with hmulti hold
  · obtain ⟨r, hr⟩ := hmet (List.contains_iff_mem.mp hold)
    have hsame : afterRegister hosts id ctx = ctx := by
      rw [afterRegister, Registrar.register, Registrar.run_registerWithin_known _ hr]
    rw [hsame]
  · exact run_register_bind _ h
  · exact run_register_bind _ h

/-- Between the roots the tour has met just what is registered. -/
structure Arrived (hosts : HostTable α) (roots order : List HostId) (tour : Tour)
    (ctx : Context α) : Prop where
  settled : Registrar.Settled hosts roots ⟨order, ctx.registrar.registry⟩
  covers : Covers hosts ctx.registrar.registry order tour

theorem ends_visitWithin_root {roots order : List HostId} {tour : Tour}
    (hkeys : hosts.DistinctKeys roots) (hid : hosts.Reached roots id)
    (h : Arrived hosts roots order tour ctx) :
    Ends (visitWithin hosts (hosts.size + 1) id tour) ctx
      (Arrived hosts roots (hosts.exploreWithin (hosts.size + 1) order id))
      (Raised hosts roots) := by
  obtain ⟨hsettles, hsettled, hfound⟩ := h.settled.register hid
  have hmet (hold : id ∈ tour.multis) :
      ∃ r, ctx.registrar.registry.find? (hosts.key id) = some r :=
    h.settled.sound.mem_keys_iff.mp (List.mem_map_of_mem (h.covers.multis.mp hold).1)
  have hbelow {x : HostId} (hx : hosts.Reaches id x) :
      x ∈ hosts.exploreWithin (hosts.size + 1) order id := by
    induction hx with
    | refl =>
      have hkey := hsettled.sound.mem_keys_iff.mpr ⟨_, hfound⟩
      exact (hkeys.key_mem_iff hsettled.sound.reached hid).mp hkey
    | tail _ hlast ih =>
      obtain ⟨slot, hslot⟩ := hlast
      exact hsettled.mem_of_slot hkeys ih hslot
  -- A visit registers first, so it may start where all below is registered already.
  have htouring : Touring hosts roots (afterRegister hosts id ctx).registrar.registry order tour
      (afterRegister hosts id ctx) := by
    refine ⟨rfl, h.settled.sound.reached, ?_⟩
    apply h.covers.later
    intro p hp
    obtain ⟨hmem, hplain⟩ := HostTable.mem_plains_iff.mp hp
    exact h.settled.sound.find?_of_run hsettles.run hmem hplain
  have hvisit := ends_visitWithin (hosts.size + 1) hkeys hsettled.sound.stored hid
    (fun x hx => hsettled.sound.mem_keys_iff.mp (List.mem_map_of_mem (hbelow hx))) htouring
  apply (hvisit.congr (run_visitWithin_registered hosts.size hfound hmet)).mono
  · intro tour' later h'
    have hsame := h'.same
    constructor
    · rw [hsame]
      exact hsettled
    · rw [hsame]
      exact h'.covers
  · exact fun _ he => he

theorem ends_compileMaterials {ids : List HostId} (hkeys : hosts.DistinctKeys ids)
    (hrecords : ctx.registrar.registry.records = [])
    (hgenerated : ctx.registrar.registry.generated = []) :
    Ends (compileMaterials hosts ids) ctx
      (fun materials later => ∃ tour, materials = tour.materials ∧ Arrived hosts ids
        (ids.foldl (hosts.exploreWithin (hosts.size + 1)) []) tour later)
      (Raised hosts ids) := by
  have hstart : Arrived hosts ids [] {} ctx := ⟨.empty hrecords hgenerated, .empty⟩
  have htours := ends_foldlM (hosts.exploreWithin (hosts.size + 1))
    (fun id hid order tour ctx (h : Arrived hosts ids order tour ctx) =>
      ends_visitWithin_root hkeys ⟨id, hid, .refl⟩ h) hstart
  exact htours.bind fun tour later h => ends_pure ⟨tour, rfl, h⟩

/-- The compiled materials are the generated material table, and it holds what the roots lead to. -/
structure IsTable (hosts : HostTable α) (roots : List HostId) (registry : Registry)
    (materials : List Material) : Prop where
  identities : materials.map (·.identity) = registry.generated
  numbered : ∀ (i : Nat) (m : Material), materials[i]? = some m →
    m.identity.generatedOf = [(0, (i : Int))]
  once : ∃ order : List HostId, order.Nodup ∧
    (∀ id, id ∈ order ↔ hosts.IsPlain id ∧ hosts.Reached roots id) ∧
    List.Forall₂ (fun id m => m.name = (hosts.get id).name ∧ m.identity.key = hosts.key id)
      order materials

omit [Scalar α] in
theorem mem_order_iff {ids order : List HostId} {registry : Registry}
    (hkeys : hosts.DistinctKeys ids) (h : Registrar.Settled hosts ids ⟨order, registry⟩)
    (hroots : ∀ root ∈ ids, hosts.key root ∈ order.map hosts.key) :
    id ∈ order ↔ hosts.Reached ids id := by
  constructor
  · exact h.sound.reached id
  · intro hid
    apply hid.induct (P := fun id => id ∈ order)
    · intro root hroot
      exact (hkeys.key_mem_iff h.sound.reached ⟨root, hroot, .refl⟩).mp (hroots root hroot)
    · intro _ _ _ hx hslot
      exact h.mem_of_slot hkeys hx hslot

omit [Scalar α] in
theorem Arrived.isTable {ids order : List HostId} {tour : Tour} (hkeys : hosts.DistinctKeys ids)
    (h : Arrived hosts ids order tour ctx)
    (hroots : ∀ root ∈ ids, hosts.key root ∈ order.map hosts.key) :
    IsTable hosts ids ctx.registrar.registry tour.materials := by
  have hsound := h.settled.sound
  have hidentities : tour.materials.map (·.identity) = ctx.registrar.registry.generated := by
    have hplaces : tour.materials.map (fun m => some m.identity) =
        (hosts.plains order).map fun p => ctx.registrar.registry.find? (hosts.key p) := by
      have hmaterials := h.covers.materials
      generalize hosts.plains order = ps, tour.materials = ms at hmaterials
      induction hmaterials with
      | nil => rfl
      | cons hm _ ih => rw [List.map_cons, List.map_cons, ih, hm.2]
    apply List.map_injective_iff.mpr (Option.some_injective _)
    rw [hsound.generated, ← hplaces, List.map_map]
    rfl
  refine ⟨hidentities, ?_, hosts.plains order, ?_, ?_, ?_⟩
  · intro i m hm
    apply hsound.numbered
    rw [← hidentities, List.getElem?_map, hm]
    rfl
  · exact (List.Nodup.of_map _ hsound.nodup).filter _
  · intro id
    rw [HostTable.mem_plains_iff, mem_order_iff hkeys h.settled hroots, and_comm]
  · apply h.covers.materials.imp
    rintro p m ⟨hname, hfind⟩
    exact ⟨hname, hsound.stored hfind⟩

/-- Compiling a list of host materials ends at any depth that exceeds the table. In a fresh session
whose materials have keys of their own it either gives the generated material table or meets a
channel that raises an error. -/
theorem compileMaterials_isTable (hosts : HostTable α) (ids : List HostId) (ctx : Context α)
    (hrecords : ctx.registrar.registry.records = [])
    (hgenerated : ctx.registrar.registry.generated = []) (hkeys : hosts.DistinctKeys ids) :
    (∀ depth, hosts.size < depth →
      Registrar.registerWithin hosts depth = Registrar.register hosts ∧
      (visitWithin hosts depth : HostId → Tour → Compile α Tour) =
        visitWithin hosts (hosts.size + 1)) ∧
    Ends (compileMaterials hosts ids) ctx
      (fun materials later => IsTable hosts ids later.registrar.registry materials)
      (Raised hosts ids) := by
  refine ⟨fun depth hdepth => ⟨Registrar.registerWithin_eq_register hdepth,
    visitWithin_eq_of_size_lt hdepth⟩, ?_⟩
  refine (ends_compileMaterials hkeys hrecords hgenerated).mono ?_ fun _ he => he
  rintro _ later ⟨tour, rfl, h⟩
  exact h.isTable hkeys fun root hroot => HostTable.key_mem_foldl_exploreWithin hosts _ [] hroot

/-- Two plain materials in three multi-materials: one in a slot of its own, two in slots of each
other. -/
def nestedSlots : HostTable Float :=
  ⟨#[{ handle := 1, name := "a", slots := [some 0, none, some 2, some 3] },
    { handle := 2, name := "b", slots := [some 2, some 4] },
    { handle := 3, name := "c", slots := [some 1, some 3] },
    { handle := 4, name := "d" }, { handle := 5, name := "e" }]⟩

theorem distinctKeys_nestedSlots : nestedSlots.DistinctKeys [0, 3, 1, 0] :=
  HostTable.distinctKeys_of_closed [0, 1, 2, 3, 4] (by decide) (by decide) (by decide)

/-- Without channels nothing can be raised. -/
theorem compileMaterials_isTable_nestedSlots :
    nestedSlots.DistinctKeys [0, 3, 1, 0] ∧
    ∃ materials later,
      (compileMaterials nestedSlots [0, 3, 1, 0]).run.run (Context.start .standard .none {} ∅) =
        (.ok materials, later) ∧
      IsTable nestedSlots [0, 3, 1, 0] later.registrar.registry materials := by
  have hends := (compileMaterials_isTable nestedSlots [0, 3, 1, 0]
    (Context.start .standard .none {} ∅) rfl rfl distinctKeys_nestedSlots).right
  refine ⟨distinctKeys_nestedSlots, hends.exists_ok ?_⟩
  rintro e ⟨p, _, hreached, d, hd, _⟩
  have hknown : p ∈ [0, 1, 2, 3, 4] := hreached.mem _ (by decide) (by decide)
  have hbare : ∀ id ∈ [0, 1, 2, 3, 4], (nestedSlots.get id).channels = [] := by decide
  rw [hbare p hknown] at hd
  contradiction

end Compile

end ShadeGraph
