import ShadeGraph.Proofs.Compile.GeneratedTable
import ShadeGraph.Proofs.Registry.Restore
import ShadeGraph.Scene.Compile

/-!
# Scenes that come back

The scene that is compiled from host materials carries all that is needed to find these again: its
attachment tells the handle and the name for each id, and the live materials are held by handle. The
materials of meshes are registered behind the compiled ones, and change none of their records.
-/

namespace ShadeGraph

namespace Compile

variable {α β ι : Type} {ctx : Context α} {E : CompileError → Prop}

/-! ### Loops -/

theorem ends_discard {p : Compile α β} {Q : β → Context α → Prop} {R : Context α → Prop}
    (h : Ends p ctx Q E) (hR : ∀ b later, Q b later → R later) :
    Ends (discard p) ctx (fun _ => R) E := by
  have hbind : discard p = p >>= fun _ => pure PUnit.unit := (bind_pure_comp _ p).symm
  rw [hbind]
  exact h.bind fun b later hb => ends_pure (hR b later hb)

theorem ends_forM {f : ι → Compile α PUnit} {I : Context α → Prop} {xs : List ι}
    (hf : ∀ x ∈ xs, ∀ ctx, I ctx → Ends (f x) ctx (fun _ => I) E) (h : I ctx) :
    Ends (xs.forM f) ctx (fun _ => I) E := by
  induction xs generalizing ctx with
  | nil => exact ends_pure h
  | cons x xs ih =>
    obtain ⟨hx, hxs⟩ := List.forall_mem_cons.mp hf
    exact (hx ctx h).bind fun _ later hlater => ih hxs hlater

/-! ### Overrides and meshes -/

theorem ends_override [Scalar α] (key : ChannelKey α) (entry : ChannelOverride α) :
    Ends (override key entry) ctx
      (fun _ later => later.registrar.registry = ctx.registrar.registry) E := by
  unfold override
  refine ends_get.bind ?_
  rintro _ _ ⟨rfl, rfl⟩
  split
  · exact (ends_debug _).bind fun _ later h => ends_pure h.registry
  · exact ends_of_run_ok rfl rfl

/-- A material of a mesh is registered and noted, and nothing else is done. -/
theorem run_noteMeshMaterial [Scalar α] {hosts : HostTable α} {id : HostId} {r : MaterialRecord}
    {registrar : Registrar} (h : (Registrar.register hosts id).run ctx.registrar = (r, registrar))
    (mesh : Value α) (seen : List String) :
    let name := (hosts.get id).name
    (noteMeshMaterial hosts mesh seen id).run.run ctx = (.ok (name :: seen), { ctx with
      registrar
      usage := (if seen.contains name then ctx.usage.addReused mesh (.text name)
        else ctx.usage).addMaterial mesh (.text name) (.text r.materialId) }) := by
  rw [noteMeshMaterial, run_bind_of_ok (run_register _ ctx), h]
  dsimp only
  split <;> rfl

/-- From a registry on, only what these roots lead to was registered. -/
def Registered (hosts : HostTable α) (known : List HostId) (start : Survey) (ctx : Context α) :
    Prop :=
  ∃ order, Registry.Run hosts known start ⟨order, ctx.registrar.registry⟩ ∧
    Registrar.Settled hosts known ⟨order, ctx.registrar.registry⟩

section

variable {hosts : HostTable α} {known : List HostId} {start : Survey} {id : HostId}

theorem Registered.continues {later : Context α} (h : Registered hosts known start ctx)
    (hlater : ctx.Continues later) : Registered hosts known start later := by
  obtain ⟨order, hrun, hsettled⟩ := h
  rw [← hlater.registry] at hrun hsettled
  exact ⟨order, hrun, hsettled⟩

theorem ends_register (h : Registered hosts known start ctx) (hid : hosts.Reached known id) :
    Ends (register (Registrar.register hosts id)) ctx
      (fun _ => Registered hosts known start) E := by
  obtain ⟨order, hrun, hsettled⟩ := h
  obtain ⟨hsettles, hsettled', _⟩ := hsettled.register hid
  exact ends_of_run_ok (run_register _ ctx)
    ⟨_, Relation.ReflTransGen.trans hrun hsettles.run, hsettled'⟩

theorem ends_noteMeshMaterial (h : Registered hosts known start ctx)
    (hid : hosts.Reached known id) (mesh : Value α) (seen : List String) [Scalar α] :
    Ends (noteMeshMaterial hosts mesh seen id) ctx
      (fun _ => Registered hosts known start) E := by
  refine (ends_register h hid).bind fun r middle hmiddle => ?_
  have hlast (ctx : Context α) (h : Registered hosts known start ctx) :
      Ends (do
        note (·.addMaterial mesh (.text (hosts.get id).name) (.text r.materialId))
        return (hosts.get id).name :: seen) ctx (fun _ => Registered hosts known start) E :=
    (ends_note _).bind fun _ _ hlater => ends_pure (h.continues hlater)
  dsimp only
  split
  · exact (ends_note _).bind fun _ later hlater => hlast later (hmiddle.continues hlater)
  · exact hlast middle hmiddle

theorem ends_noteMesh (h : Registered hosts known start ctx) (mesh : Value α) {ids : List HostId}
    (hids : ∀ id ∈ ids, hosts.Reached known id) [Scalar α] :
    Ends (discard (ids.foldlM (noteMeshMaterial hosts mesh) [])) ctx
      (fun _ => Registered hosts known start) E := by
  have hfold := ends_foldlM (E := E) (fun (u : Unit) (_ : HostId) => u)
    (fun id hid _ seen ctx (h : Registered hosts known start ctx) =>
      ends_noteMeshMaterial h (hids id hid) mesh seen) (g := ()) (s := []) h
  exact ends_discard hfold fun _ _ h => h

end

/-! ### The exchange scene -/

theorem ends_exchangeScene (materials : List Material) :
    Ends (exchangeScene materials) ctx
      (fun scene later => later.registrar.registry = ctx.registrar.registry ∧
        scene.materials = materials ∧ ∃ versioned bytes,
          ctx.registrar.registry.toAttachment versioned = .ok bytes ∧
          scene.identityMap? = some bytes)
      fun _ => True := by
  refine ends_get.bind ?_
  rintro _ ctx ⟨rfl, rfl⟩
  have hwrite : Ends (register (Registrar.toAttachment ctx.options.versioned)) ctx
      (fun result later => later.registrar.registry = ctx.registrar.registry ∧
        result = ctx.registrar.registry.toAttachment ctx.options.versioned) fun _ => True := by
    apply ends_of_run_ok (run_register _ ctx)
    simp only [Registrar.toAttachment, StateT.run_bind, StateT.run_get, pure_bind]
    split <;> exact ⟨rfl, rfl⟩
  refine hwrite.bind ?_
  rintro result middle ⟨hsame, rfl⟩
  cases hbytes : ctx.registrar.registry.toAttachment ctx.options.versioned with
  | error e => exact ends_of_run_error rfl trivial
  | ok bytes =>
    refine (ends_debug _).bind fun _ later hlater => ends_pure ?_
    exact ⟨hlater.registry.trans hsame, rfl, _, bytes, hbytes, rfl⟩

/-- The attachment of a scene is written from these records, and its materials are the compiled forms
of the plain ones that the roots lead to. -/
structure Exchanged (hosts : HostTable α) (roots : List HostId) (compiled : CompiledScene)
    (registry : Registry) : Prop where
  sound : ∃ known order, Registry.Sound hosts known ⟨order, registry⟩
  met : ∃ start, Registrar.Settled hosts roots ⟨hosts.explore roots, start⟩
  materials : List.Forall₂
    (fun p m => m.name = (hosts.get p).name ∧ registry.find? (hosts.key p) = some m.identity)
    (hosts.plains (hosts.explore roots)) compiled.materials
  sent : compiled.scene.materials = compiled.materials
  written : ∃ versioned bytes, registry.toAttachment versioned = .ok bytes ∧
    compiled.scene.identityMap? = some bytes

theorem ends_compileScene [Scalar α] {hosts : HostTable α} {request : SceneRequest α}
    (hkeys : hosts.DistinctKeys request.materials) (hrecords : ctx.registrar.registry.records = [])
    (hgenerated : ctx.registrar.registry.generated = []) :
    Ends (compileScene hosts request) ctx
      (fun compiled later => Exchanged hosts request.materials compiled later.registrar.registry)
      fun _ => True := by
  have hoverrides : Ends (request.overrides.forM fun e => discard (override e.1 e.2))
      ctx (fun _ later => later.registrar.registry = ctx.registrar.registry) fun _ => True := by
    refine ends_forM (I := fun later => later.registrar.registry = ctx.registrar.registry) ?_ rfl
    rintro ⟨key, entry⟩ _ ctx' hctx'
    exact ends_discard (ends_override key entry) fun _ _ hlater => hlater.trans hctx'
  refine hoverrides.bind fun _ ctx₁ hfresh => ?_
  rw [← hfresh] at hrecords hgenerated
  refine ((ends_compileMaterials hkeys hrecords hgenerated).mono (fun _ _ h => h)
    fun _ _ => trivial).bind ?_
  rintro _ ctx₂ ⟨tour, rfl, h⟩
  -- The materials of the meshes count as further roots from here on.
  let known := request.materials ++ request.meshes.flatMap (·.2)
  have hmore (ids : List HostId) (hids : ∀ id ∈ ids, id ∈ known) (id : HostId)
      (hid : hosts.Reached ids id) : hosts.Reached known id := by
    obtain ⟨root, hroot, hreaches⟩ := hid
    exact ⟨root, hids root hroot, hreaches⟩
  have hsettled := h.settled.mono
    (hmore request.materials fun id hid => List.mem_append_left _ hid)
  have hmeshes : Ends (request.meshes.forM fun e =>
        discard (e.2.foldlM (noteMeshMaterial hosts e.1) [])) ctx₂
      (fun _ => Registered hosts known
        ⟨hosts.explore request.materials, ctx₂.registrar.registry⟩) fun _ => True := by
    apply ends_forM
    · rintro ⟨mesh, ids⟩ hmesh ctx' hctx'
      apply ends_noteMesh hctx' mesh
      intro id hid
      refine ⟨id, ?_, .refl⟩
      exact List.mem_append_right _ (List.mem_flatMap.mpr ⟨(mesh, ids), hmesh, hid⟩)
    · exact ⟨_, .refl, hsettled⟩
  refine hmeshes.bind ?_
  rintro _ ctx₃ ⟨order, hrun, hsettled'⟩
  have hcovers := h.covers.later fun p hp => by
    obtain ⟨hmem, hplain⟩ := HostTable.mem_plains_iff.mp hp
    exact hsettled.sound.find?_of_run hrun hmem hplain
  refine (ends_exchangeScene _).bind ?_
  rintro scene ctx₄ ⟨hsame, hsent, hwritten⟩
  refine ends_get.bind ?_
  rintro _ _ ⟨rfl, rfl⟩
  refine (ends_debug _).bind fun _ later hlater => ends_pure ?_
  rw [hlater.registry, hsame]
  exact ⟨⟨known, order, hsettled'.sound⟩, ⟨_, h.settled⟩, hcovers.materials, hsent, hwritten⟩

namespace Exchanged

variable {hosts : HostTable α} {roots : List HostId} {compiled : CompiledScene}
variable {registry : Registry}

theorem mem_recordList (h : Exchanged hosts roots compiled registry) {key : MaterialKey}
    {r : MaterialRecord} (hr : registry.find? key = some r) :
    r ∈ registry.recordList ∧ r.key = key := by
  obtain ⟨known, order, hsound⟩ := h.sound
  exact ⟨List.mem_map.mpr ⟨(key, r), Table.mem_of_get?_eq_some hr, rfl⟩, hsound.stored hr⟩

theorem keys (h : Exchanged hosts roots compiled registry) :
    List.Forall₂ (fun p m => m.name = (hosts.get p).name ∧ m.identity.key = hosts.key p)
      (hosts.plains (hosts.explore roots)) compiled.materials := by
  apply h.materials.imp
  rintro p m ⟨hname, hfind⟩
  exact ⟨hname, (h.mem_recordList hfind).2⟩

/-- The records of compiled materials are stored, each under a key of its own. -/
theorem identities (h : Exchanged hosts roots compiled registry) :
    (hosts.plains (hosts.explore roots)).map (fun p => registry.find? (hosts.key p)) =
      compiled.materials.map fun m => some m.identity := by
  rw [← List.forall₂_eq_eq_eq, List.forall₂_map_left_iff, List.forall₂_map_right_iff]
  exact h.materials.imp fun _ _ hm => hm.2

theorem nodup_materialIds (h : Exchanged hosts roots compiled registry)
    (hids : DistinctIds registry.recordList) : compiled.scene.materialIds.Nodup := by
  obtain ⟨start, hmet⟩ := h.met
  have hkeys : (compiled.materials.map (·.identity.key)).Nodup := by
    have hsame : (hosts.plains (hosts.explore roots)).map hosts.key =
        compiled.materials.map (·.identity.key) := by
      rw [← List.forall₂_eq_eq_eq, List.forall₂_map_left_iff, List.forall₂_map_right_iff]
      exact h.keys.imp fun _ _ hm => hm.2.symm
    rw [← hsame]
    exact hmet.sound.nodup.sublist (List.filter_sublist.map hosts.key)
  have hstored : ∀ m ∈ compiled.materials, m.identity ∈ registry.recordList := by
    intro m hm
    have hmem : some m.identity ∈ (hosts.plains (hosts.explore roots)).map
        fun p => registry.find? (hosts.key p) := by
      rw [h.identities]
      exact List.mem_map_of_mem hm
    obtain ⟨p, _, hfind⟩ := List.mem_map.mp hmem
    exact (h.mem_recordList hfind).1
  rw [ExchangeScene.materialIds, h.sent]
  apply hkeys.of_map.map_on
  intro a ha b hb hsame
  have hidentity := List.inj_on_of_nodup_map hids.nodup (hstored a ha) (hstored b hb)
    (congrArg Text.lower hsame)
  exact List.inj_on_of_nodup_map hkeys ha hb (congrArg MaterialRecord.key hidentity)

theorem run_restore (h : Exchanged hosts roots compiled registry)
    (hhandles : hosts.DistinctHandles roots) (hids : DistinctIds registry.recordList)
    (hcount : registry.recordList.length < 2 ^ 30) (s : Registrar) (allowUnsafe : Bool) :
    ∃ loaded, (Registrar.restore hosts (HostScene.ofList hosts roots) compiled.scene
        allowUnsafe).run s =
      (.ok ((compiled.materials.map (·.identity.materialId)).zip
        ((hosts.plains (hosts.explore roots)).map some)), { s with registry := loaded }) := by
  obtain ⟨start, hmet⟩ := h.met
  obtain ⟨known, order, hsound⟩ := h.sound
  obtain ⟨versioned, bytes, hbytes, hmap⟩ := h.written
  have hdistinct : ∀ r ∈ registry.recordList, r.generatedOf.keys.Nodup :=
    fun r hr => hsound.distinct (hsound.mem_recordList hr)
  have hread := Registry.read_toAttachment hdistinct (.inr (Attachment.count_ne_magic hcount)) hbytes
  have hresolves : List.Forall₂ (fun id p =>
      (s.registry.load (registry.recordList.map MaterialRecord.rebuilt)).resolve hosts
        (HostScene.ofList hosts roots) allowUnsafe id = (some p, []))
      compiled.scene.materialIds (hosts.plains (hosts.explore roots)) := by
    rw [ExchangeScene.materialIds, h.sent, List.forall₂_map_left_iff]
    have hmet' : ∀ p ∈ hosts.plains (hosts.explore roots), p ∈ hosts.explore roots :=
      fun p hp => (HostTable.mem_plains_iff.mp hp).1
    have hmaterials := (List.forall₂_and_left _ _).mpr ⟨hmet', h.materials⟩
    refine (hmaterials.imp ?_).flip
    rintro p m ⟨hp, _, hfind⟩
    obtain ⟨hr, hkey⟩ := h.mem_recordList hfind
    apply Registry.resolve_load hsound.nodup_recordList hdistinct hids hr hkey
    rw [HostScene.ofList_eq_holding hhandles]
    exact HostScene.get?_holding hhandles hmet.sound.reached hmet.sound.nodup.of_map hp
  have hrun := Registrar.run_restore hmap hread hresolves (h.nodup_materialIds hids)
  rw [ExchangeScene.materialIds, h.sent] at hrun
  exact ⟨_, hrun⟩

/-- Looking up the id of a compiled material gives the material at its place in the list. -/
theorem resolved (h : Exchanged hosts roots compiled registry)
    (hids : DistinctIds registry.recordList) :
    let resolved : Resolved := (compiled.materials.map (·.identity.materialId)).zip
      ((hosts.plains (hosts.explore roots)).map some)
    resolved.keys = compiled.materials.map (·.identity.materialId) ∧
      List.Forall₂ (fun p m => m.name = (hosts.get p).name ∧ m.identity.key = hosts.key p ∧
          resolved.get? m.identity.materialId = some (some p))
        (hosts.plains (hosts.explore roots)) compiled.materials := by
  intro resolved
  obtain ⟨hlength, hpairs⟩ := List.forall₂_iff_zip.mp h.keys
  have hkeys : resolved.keys = compiled.materials.map (·.identity.materialId) := by
    apply List.map_fst_zip
    rw [List.length_map, List.length_map, hlength]
  refine ⟨hkeys, List.forall₂_iff_zip.mpr ⟨hlength, ?_⟩⟩
  intro p m hpair
  obtain ⟨hname, hkey⟩ := hpairs hpair
  refine ⟨hname, hkey, Table.get?_eq_some_of_mem ?_ ?_⟩
  · have hnodup := h.nodup_materialIds hids
    rwa [ExchangeScene.materialIds, h.sent, ← hkeys] at hnodup
  · rw [← List.zip_swap] at hpair
    obtain ⟨⟨m', p'⟩, hmem, hswap⟩ := List.mem_map.mp hpair
    obtain ⟨rfl, rfl⟩ := Prod.mk.inj hswap
    have hentry := List.mem_map_of_mem (f := Prod.map (·.identity.materialId) some) hmem
    rwa [← List.zip_map] at hentry

end Exchanged

end Compile

/-- What is compiled from host materials finds them again. Whichever layout the attachment has, the id
of each compiled material leads to the host material whose name and key it has, and nothing is told on
the way. -/
theorem Context.compileScene_restores {α : Type} [Scalar α] (ctx : Context α) (hosts : HostTable α)
    (request : SceneRequest α) (hhandles : hosts.DistinctHandles request.materials)
    {compiled : CompiledScene} {later : Context α}
    (hrun : ctx.compileScene hosts request = (.ok compiled, later))
    (hids : DistinctIds later.registrar.registry.recordList)
    (hcount : later.registrar.registry.recordList.length < 2 ^ 30)
    (s : Registrar) (allowUnsafe : Bool) :
    ∃ (resolved : Resolved) (registry : Registry) (order : List HostId),
      (Registrar.restore hosts (HostScene.ofList hosts request.materials) compiled.scene
        allowUnsafe).run s = (.ok resolved, { s with registry }) ∧
      resolved.keys = compiled.materials.map (·.identity.materialId) ∧ resolved.keys.Nodup ∧
      order.Nodup ∧
      (∀ id, id ∈ order ↔ hosts.IsPlain id ∧ hosts.Reached request.materials id) ∧
      List.Forall₂ (fun p m => m.name = (hosts.get p).name ∧ m.identity.key = hosts.key p ∧
        resolved.get? m.identity.materialId = some (some p)) order compiled.materials := by
  have hkeys := hhandles.distinctKeys
  have hrecords : ctx.renew.registrar.registry.records = [] := rfl
  have h := (Compile.ends_compileScene hkeys hrecords rfl).ok hrun
  obtain ⟨start, hmet⟩ := h.met
  obtain ⟨loaded, hrestore⟩ := h.run_restore hhandles hids hcount s allowUnsafe
  obtain ⟨hresolvedKeys, hresolved⟩ := h.resolved hids
  have hnodup := h.nodup_materialIds hids
  rw [ExchangeScene.materialIds, h.sent, ← hresolvedKeys] at hnodup
  refine ⟨_, loaded, hosts.plains (hosts.explore request.materials), hrestore, hresolvedKeys, hnodup,
    ?_, ?_, hresolved⟩
  · exact (List.Nodup.of_map _ hmet.sound.nodup).filter _
  · intro id
    rw [HostTable.mem_plains_iff, Compile.mem_order_iff hkeys hmet, and_comm]
    exact fun root hroot => HostTable.key_mem_foldl_exploreWithin hosts _ [] hroot

/-- Two plain materials in slots of three multi-materials, which lie in slots of each other, come back
through a versioned attachment. -/
theorem Context.compileScene_restores_nestedSlots :
    let ctx : Context Float := Context.start { Options.standard with versioned := true } .none
      { ids := { chosen := ["a", "b", "c", "d", "e"] } } ∅
    let request : SceneRequest Float := { materials := [0, 3, 1, 0] }
    Compile.nestedSlots.DistinctHandles [0, 3, 1, 0] ∧
    ∃ compiled later, ctx.compileScene Compile.nestedSlots request = (.ok compiled, later) ∧
      DistinctIds later.registrar.registry.recordList ∧
      later.registrar.registry.recordList.length < 2 ^ 30 ∧
      ∃ (resolved : Resolved) (registry : Registry), (Registrar.restore Compile.nestedSlots
        (HostScene.ofList Compile.nestedSlots [0, 3, 1, 0]) compiled.scene false).run {} =
          (.ok resolved, { registry }) ∧ resolved.length = 2 := by
  intro ctx request
  have hhandles : Compile.nestedSlots.DistinctHandles [0, 3, 1, 0] :=
    HostTable.distinctHandles_of_closed [0, 1, 2, 3, 4] (by decide) (by decide) (by decide)
  have hfine : (ctx.compileScene Compile.nestedSlots request).1.isOk = true := by decide +kernel
  have hrecords :
      let rs := (ctx.compileScene Compile.nestedSlots request).2.registrar.registry.recordList
      (∀ r ∈ rs, r.materialId ≠ "") ∧ (rs.map fun r => Text.lower r.materialId).Nodup ∧
        rs.length < 2 ^ 30 := by decide +kernel
  have hcount : (ctx.compileScene Compile.nestedSlots request).1.toOption.map
      (·.materials.length) = some 2 := by decide +kernel
  cases hrun : ctx.compileScene Compile.nestedSlots request with
  | mk result later =>
    rw [hrun] at hfine hrecords hcount
    cases result with
    | error e => contradiction
    | ok compiled =>
      obtain ⟨hnonempty, hnodup, hlength⟩ := hrecords
      obtain ⟨resolved, registry, order, hrestore, hkeys, _⟩ :=
        compileScene_restores ctx Compile.nestedSlots request hhandles hrun ⟨hnonempty, hnodup⟩
          hlength {} false
      refine ⟨hhandles, compiled, later, rfl, ⟨hnonempty, hnodup⟩, hlength, resolved, registry,
        hrestore, ?_⟩
      have hsize := congrArg List.length hkeys
      rw [List.length_map, Table.keys, List.length_map] at hsize
      rw [hsize]
      exact Option.some.inj hcount

end ShadeGraph
