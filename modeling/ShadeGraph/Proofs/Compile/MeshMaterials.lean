import ShadeGraph.Proofs.Compile.Lasting
import ShadeGraph.Proofs.Compile.SceneRoundTrip
import ShadeGraph.Proofs.LabelTable

/-!
# The materials of meshes

Behind the compiled materials of a scene, those of its meshes are registered one after the other, and
noted under their names. So a mesh lists the id of the first material of each name, and it uses a
material again when a name comes again. Where the materials of a mesh are told apart by their names,
these are its distinct materials; otherwise ids are missing.
-/

namespace ShadeGraph

/-! ### First uses -/

section

variable {ι κ : Type} [DecidableEq κ] {key : ι → κ} {xs : List ι}

/-- The first element with each key, in their order. -/
def firstUses (key : ι → κ) : List ι → List ι
  | [] => []
  | x :: xs => x :: (firstUses key xs).filter fun y => key y ≠ key x

theorem mem_keys_firstUses {k : κ} : k ∈ (firstUses key xs).map key ↔ k ∈ xs.map key := by
  induction xs with
  | nil => rfl
  | cons x xs ih =>
    simp only [firstUses, List.map_cons, List.mem_cons, List.mem_map, List.mem_filter,
      decide_eq_true_eq] at ih ⊢
    by_cases hk : k = key x
    · simp [hk]
    · rw [or_iff_right hk, or_iff_right hk, ← ih]
      constructor
      · rintro ⟨y, ⟨hy, -⟩, rfl⟩
        exact ⟨y, hy, rfl⟩
      · rintro ⟨y, hy, rfl⟩
        exact ⟨y, ⟨hy, hk⟩, rfl⟩

/-- One more element is a first use if its key is new. -/
theorem firstUses_concat (xs : List ι) (x : ι) : firstUses key (xs ++ [x]) =
    if key x ∈ xs.map key then firstUses key xs else firstUses key xs ++ [x] := by
  induction xs with
  | nil => rfl
  | cons y xs ih =>
    rw [List.cons_append, firstUses, ih, firstUses, List.map_cons]
    by_cases hmem : key x ∈ xs.map key
    · rw [if_pos hmem, if_pos (List.mem_cons_of_mem _ hmem)]
    · rw [if_neg hmem, List.filter_append]
      by_cases hfirst : key x = key y
      · rw [if_pos (hfirst ▸ List.mem_cons_self)]
        simp [hfirst]
      · rw [if_neg (by simp [hfirst] at hmem ⊢; exact hmem)]
        simp [hfirst]

theorem firstUses_sublist (key : ι → κ) (xs : List ι) : (firstUses key xs).Sublist xs := by
  induction xs with
  | nil => exact .refl _
  | cons x xs ih => exact (List.filter_sublist.trans ih).cons_cons x

theorem nodup_keys_firstUses (key : ι → κ) (xs : List ι) : ((firstUses key xs).map key).Nodup := by
  induction xs with
  | nil => exact List.nodup_nil
  | cons x xs ih =>
    refine List.nodup_cons.mpr ⟨?_, ih.sublist (List.filter_sublist.map key)⟩
    rintro hmem
    obtain ⟨y, hy, hsame⟩ := List.mem_map.mp hmem
    simpa [hsame] using (List.mem_filter.mp hy).2

variable [DecidableEq ι]

theorem length_firstUses (key : ι → κ) (xs : List ι) :
    (firstUses key xs).length = (xs.toFinset.image key).card := by
  rw [← List.length_map key, ← List.toFinset_card_of_nodup (nodup_keys_firstUses key xs)]
  congr 1
  ext k
  rw [List.mem_toFinset, mem_keys_firstUses]
  simp

/-- There are as many first uses as elements just if the keys tell the elements apart. -/
theorem length_firstUses_eq_iff : (firstUses key xs).length = (firstUses id xs).length ↔
    ∀ a ∈ xs, ∀ b ∈ xs, key a = key b → a = b := by
  rw [length_firstUses, length_firstUses, Finset.image_id, Finset.card_image_iff]
  simp [Set.InjOn]

theorem firstUses_eq_of_injective (h : ∀ a ∈ xs, ∀ b ∈ xs, key a = key b → a = b) :
    firstUses key xs = firstUses id xs := by
  induction xs with
  | nil => rfl
  | cons x xs ih =>
    obtain ⟨hx, hxs⟩ := List.forall_mem_cons.mp h
    rw [firstUses, firstUses, ih fun a ha b hb => hxs a ha b (List.mem_cons_of_mem x hb)]
    congr 1
    refine List.filter_congr fun y hy => ?_
    have hmem : y ∈ x :: xs := List.mem_cons_of_mem x ((firstUses_sublist id xs).subset hy)
    have hiff : key y = key x ↔ y = x :=
      ⟨fun hsame => (hx y hmem hsame.symm).symm, fun hsame => congrArg key hsame⟩
    simp [hiff]

end

/-! ### Notes of meshes -/

variable {α : Type}

theorem mentions_texts [Scalar α] (names : List String) (name : String) :
    Usage.mentions (names.map (.text : String → Value α)) (.text name) = true ↔ name ∈ names := by
  simp [Usage.mentions]

namespace Usage

variable [Scalar α] {usage : Usage α} {mesh : String} {material id : Value α}

theorem addMaterial_of_mentions (h : mentions (usage.materials (.text mesh)) material) :
    usage.addMaterial (.text mesh) material id = usage := if_pos h

theorem addMaterial_of_not_mentions (h : ¬ mentions (usage.materials (.text mesh)) material) :
    usage.addMaterial (.text mesh) material id = { usage with
      meshMaterials := usage.meshMaterials.upsert (.text mesh) [] (· ++ [material])
      meshIds :=
        if id.toBool then usage.meshIds.upsert (.text mesh) [] (· ++ [id]) else usage.meshIds } :=
  if_neg h

theorem materials_addMaterial (h : ¬ mentions (usage.materials (.text mesh)) material) :
    (usage.addMaterial (.text mesh) material id).materials (.text mesh) =
      usage.materials (.text mesh) ++ [material] := by
  rw [addMaterial_of_not_mentions h, materials, LabelTable.get?_upsert_self (by simp)]
  rfl

theorem materialIds_addMaterial (h : ¬ mentions (usage.materials (.text mesh)) material) :
    (usage.addMaterial (.text mesh) material id).materialIds (.text mesh) =
      usage.materialIds (.text mesh) ++ if id.toBool then [id] else [] := by
  rw [addMaterial_of_not_mentions h, materialIds]
  dsimp only
  split
  · rw [LabelTable.get?_upsert_self (by simp)]
    rfl
  · rw [List.append_nil, materialIds]

theorem reused_addReused (usage : Usage α) (mesh : String) (material : Value α) :
    (usage.addReused (.text mesh) material).reused (.text mesh) =
      if mentions (usage.reused (.text mesh)) material then usage.reused (.text mesh)
      else usage.reused (.text mesh) ++ [material] := by
  rw [addReused, reused, LabelTable.get?_upsert_self (by simp)]
  rfl

end Usage

/-- The materials of meshes are noted as before. -/
structure Usage.SameMeshes (a b : Usage α) : Prop where
  materials : b.meshMaterials = a.meshMaterials
  ids : b.meshIds = a.meshIds
  reused : b.meshReused = a.meshReused

theorem Usage.SameMeshes.refl (usage : Usage α) : usage.SameMeshes usage := ⟨rfl, rfl, rfl⟩

theorem Usage.SameMeshes.trans {a b c : Usage α} (hab : a.SameMeshes b) (hbc : b.SameMeshes c) :
    a.SameMeshes c :=
  ⟨hbc.materials.trans hab.materials, hbc.ids.trans hab.ids, hbc.reused.trans hab.reused⟩

namespace HostTable

variable (hosts : HostTable α)

/-- The name of a material. -/
def name (id : HostId) : String := (hosts.get id).name

/-- The id that a material is registered under. -/
def registeredId (registry : Registry) (id : HostId) : Option String :=
  (registry.find? (hosts.key id)).map (·.materialId)

/-- The ids that materials are registered under, as they are noted. -/
def registeredLabels (registry : Registry) (ids : List HostId) : List (Option (Value α)) :=
  ids.map fun id => (hosts.registeredId registry id).map .text

/-- These materials are told apart by their names. -/
def NamesApart (ids : List HostId) : Prop :=
  ∀ a ∈ ids, ∀ b ∈ ids, hosts.name a = hosts.name b → a = b

theorem nodup_names_iff {ids : List HostId} :
    (ids.map hosts.name).Nodup ↔ ids.Nodup ∧ hosts.NamesApart ids := by
  constructor
  · intro h
    exact ⟨h.of_map, fun _ ha _ hb hsame => List.inj_on_of_nodup_map h ha hb hsame⟩
  · rintro ⟨hnodup, hapart⟩
    exact (List.nodup_map_iff_inj_on hnodup).mpr hapart

theorem registeredId_of_extends {hosts : HostTable α} {a b : Registry} (h : a.Extends b)
    {id : HostId} (hid : (a.find? (hosts.key id)).isSome) :
    hosts.registeredId b id = hosts.registeredId a id := by
  obtain ⟨r, hr⟩ := Option.isSome_iff_exists.mp hid
  obtain ⟨r', hr', hsame, -⟩ := h.records hr
  rw [registeredId, registeredId, hr, hr', Option.map_some, Option.map_some, hsame]

end HostTable

/-- What a registry and the notes of a session tell of a mesh that has used these materials. -/
structure MeshNoted [Scalar α] (hosts : HostTable α) (mesh : String) (uses : List HostId)
    (registry : Registry) (usage : Usage α) : Prop where
  registered : ∀ id ∈ uses, (registry.find? (hosts.key id)).isSome
  materials : usage.materials (.text mesh) = (firstUses hosts.name uses).map fun id =>
    .text (hosts.name id)
  ids : usage.materialIds (.text mesh) = (((firstUses hosts.name uses).filterMap
    (hosts.registeredId registry)).filter (· ≠ "")).map .text
  reused : usage.reused (.text mesh) = [] ↔ (uses.map hosts.name).Nodup

namespace MeshNoted

variable [Scalar α] {hosts : HostTable α} {mesh : String} {uses : List HostId} {id : HostId}
  {registry later : Registry} {usage : Usage α}

theorem empty (hosts : HostTable α) (mesh : String) (registry : Registry) :
    MeshNoted hosts mesh [] registry {} where
  registered := nofun
  materials := rfl
  ids := rfl
  reused := ⟨fun _ => List.nodup_nil, fun _ => rfl⟩

theorem grow (h : MeshNoted hosts mesh uses registry usage) (hlater : registry.Extends later) :
    MeshNoted hosts mesh uses later usage where
  registered id hid := hlater.isSome_find? (h.registered id hid)
  materials := h.materials
  ids := by
    rw [h.ids]
    congr 2
    refine List.filterMap_congr fun id hid => (HostTable.registeredId_of_extends hlater ?_).symm
    exact h.registered id ((firstUses_sublist _ _).subset hid)
  reused := h.reused

theorem sameMeshes (h : MeshNoted hosts mesh uses registry usage) {usage' : Usage α}
    (hsame : usage.SameMeshes usage') : MeshNoted hosts mesh uses registry usage' where
  registered := h.registered
  materials := by rw [← h.materials, Usage.materials, hsame.materials, Usage.materials]
  ids := by rw [← h.ids, Usage.materialIds, hsame.ids, Usage.materialIds]
  reused := by rw [← h.reused, Usage.reused, hsame.reused, Usage.reused]

/-- A mesh is left alone by notes of other ones. -/
theorem of_other (h : MeshNoted hosts mesh uses registry usage) {label : Value α}
    (hlabel : label ≠ .text mesh) (material materialId : Value α) :
    MeshNoted hosts mesh uses registry (usage.addMaterial label material materialId) ∧
      MeshNoted hosts mesh uses registry (usage.addReused label material) := by
  constructor
  · unfold Usage.addMaterial
    dsimp only
    split
    · exact h
    · refine { h with materials := ?_, ids := ?_ }
      · rw [← h.materials, Usage.materials, LabelTable.get?_upsert_of_ne hlabel, Usage.materials]
      · rw [← h.ids, Usage.materialIds, Usage.materialIds]
        dsimp only
        split
        · rw [LabelTable.get?_upsert_of_ne hlabel]
        · rfl
  · refine { h with reused := ?_ }
    rw [← h.reused, Usage.addReused, Usage.reused, LabelTable.get?_upsert_of_ne hlabel, Usage.reused]

theorem mentions_iff (h : MeshNoted hosts mesh uses registry usage) (name : String) :
    Usage.mentions (usage.materials (.text mesh)) (.text name) = true ↔
      name ∈ uses.map hosts.name := by
  have htexts : usage.materials (.text mesh) =
      ((firstUses hosts.name uses).map hosts.name).map .text := by
    rw [h.materials, List.map_map]
    rfl
  rw [htexts, mentions_texts, mem_keys_firstUses]

/-- A material whose name comes again is noted as reused, and nothing else. -/
theorem again (h : MeshNoted hosts mesh uses registry usage)
    (hid : (registry.find? (hosts.key id)).isSome) (hagain : hosts.name id ∈ uses.map hosts.name)
    (materialId : Value α) :
    MeshNoted hosts mesh (uses ++ [id]) registry
      ((usage.addReused (.text mesh) (.text (hosts.name id))).addMaterial (.text mesh)
        (.text (hosts.name id)) materialId) := by
  have hmentions : Usage.mentions ((usage.addReused (.text mesh) (.text (hosts.name id))).materials
      (.text mesh)) (.text (hosts.name id)) := (h.mentions_iff (hosts.name id)).mpr hagain
  rw [Usage.addMaterial_of_mentions hmentions]
  have hfirsts : firstUses hosts.name (uses ++ [id]) = firstUses hosts.name uses := by
    rw [firstUses_concat, if_pos hagain]
  have hreused : (usage.addReused (.text mesh) (.text (hosts.name id))).reused (.text mesh) ≠ [] := by
    rw [Usage.reused_addReused]
    split
    · next hold => exact fun hnil => by simp [hnil, Usage.mentions] at hold
    · simp
  have hrepeated : ¬ ((uses ++ [id]).map hosts.name).Nodup := by
    rw [List.map_append, List.nodup_append]
    exact fun hnodup => hnodup.2.2 _ hagain _ List.mem_cons_self rfl
  exact {
    registered := List.forall_mem_append.mpr ⟨h.registered, by simpa using hid⟩
    materials := by rw [hfirsts, ← h.materials]; rfl
    ids := by rw [hfirsts, ← h.ids]; rfl
    reused := iff_of_false hreused hrepeated }

/-- A material with a new name is noted behind the others. -/
theorem new (h : MeshNoted hosts mesh uses registry usage) {r : MaterialRecord}
    (hid : registry.find? (hosts.key id) = some r) (hnew : hosts.name id ∉ uses.map hosts.name) :
    MeshNoted hosts mesh (uses ++ [id]) registry
      (usage.addMaterial (.text mesh) (.text (hosts.name id)) (.text r.materialId)) := by
  have hmentions := mt (h.mentions_iff (hosts.name id)).mp hnew
  have hfirsts : firstUses hosts.name (uses ++ [id]) = firstUses hosts.name uses ++ [id] := by
    rw [firstUses_concat, if_neg hnew]
  have hregistered : hosts.registeredId registry id = some r.materialId := by
    rw [HostTable.registeredId, hid, Option.map_some]
  refine ⟨?_, ?_, ?_, ?_⟩
  · exact List.forall_mem_append.mpr ⟨h.registered, by simp [hid]⟩
  · rw [Usage.materials_addMaterial hmentions, h.materials, hfirsts, List.map_append]
    rfl
  · rw [Usage.materialIds_addMaterial hmentions, h.ids, hfirsts, List.filterMap_append,
      List.filter_append, List.map_append]
    by_cases hempty : r.materialId = "" <;> simp [hregistered, hempty, Value.toBool]
  · have hsame : (usage.addMaterial (.text mesh) (.text (hosts.name id))
        (.text r.materialId)).reused (.text mesh) = usage.reused (.text mesh) := by
      rw [Usage.addMaterial]
      split <;> rfl
    rw [hsame, h.reused, List.map_append, List.nodup_append]
    constructor
    · exact fun hnodup => ⟨hnodup, List.nodup_singleton _, fun a ha b hb => by
        rintro rfl
        exact hnew (List.mem_singleton.mp hb ▸ ha)⟩
    · exact fun hnodup => hnodup.1

/-- The listed ids, if a mesh has only materials with ids. -/
theorem listed (h : MeshNoted hosts mesh uses registry usage)
    (hids : ∀ r ∈ registry.recordList, r.materialId ≠ "") :
    (usage.materialIds (.text mesh)).map some =
      hosts.registeredLabels registry (firstUses hosts.name uses) := by
  have hregistered : ∀ id ∈ firstUses hosts.name uses,
      ∃ text ≠ "", hosts.registeredId registry id = some text := by
    intro id hid
    obtain ⟨r, hr⟩ :=
      Option.isSome_iff_exists.mp (h.registered id ((firstUses_sublist _ _).subset hid))
    have hmem : r ∈ registry.recordList :=
      List.mem_map.mpr ⟨(hosts.key id, r), Table.mem_of_get?_eq_some hr, rfl⟩
    exact ⟨r.materialId, hids r hmem, by rw [HostTable.registeredId, hr, Option.map_some]⟩
  rw [h.ids, HostTable.registeredLabels]
  generalize firstUses hosts.name uses = firsts at hregistered
  induction firsts with
  | nil => rfl
  | cons id firsts ih =>
    obtain ⟨⟨text, htext, hid⟩, hfirsts⟩ := List.forall_mem_cons.mp hregistered
    rw [List.filterMap_cons, hid, List.map_cons, hid, ← ih hfirsts]
    simp [htext]

theorem reuses_iff (h : MeshNoted hosts mesh uses registry usage) :
    usage.reuses (.text mesh) = true ↔ ¬ (uses.map hosts.name).Nodup := by
  rw [← h.reused, Usage.reuses, Bool.not_eq_true', List.isEmpty_eq_false_iff]

end MeshNoted

namespace Compile

variable [Scalar α] {hosts : HostTable α} {mesh : String} {uses : List HostId} {ctx : Context α}
  {E : CompileError → Prop}

/-! ### What a scene notes -/

omit [Scalar α] in
theorem lasting_sameMeshes (start : Context α) :
    Lasting (fun _ => True) fun ctx : Context α => start.usage.SameMeshes ctx.usage where
  registrar h _ := h
  warnings h _ := h
  textures h _ _ _ _ := ⟨h.materials, h.ids, h.reused⟩
  constants _ := ⟨trivial, trivial⟩
  insert h _ _ _ := ⟨trivial, h⟩

/-- Whatever becomes of a material, nothing is noted of meshes. -/
theorem channelWise_sameMeshes : ChannelWise (α := α) (fun _ => True)
    (fun a b => a.usage.SameMeshes b.usage) fun _ _ => True where
  refl ctx := .refl ctx.usage
  trans := .trans
  registrar ctx _ := .refl ctx.usage
  warnings ctx _ := .refl ctx.usage
  overrides ctx _ := .refl ctx.usage
  slots _ _ _ _ := ⟨rfl, rfl, rfl⟩
  kind _ _ := trivial
  exits _ _ _ _ := trivial
  channel {ctx} _ material d :=
    ⟨((lasting_sameMeshes ctx).upholds_compileChannel material d ctx (.refl _)).1,
      fun _ _ _ => trivial⟩

/-- What a session tells of a mesh that has used these materials. -/
def Noted (hosts : HostTable α) (mesh : String) (uses : List HostId) (ctx : Context α) : Prop :=
  MeshNoted hosts mesh uses ctx.registrar.registry ctx.usage

theorem ends_noteMeshMaterial_of_other (h : Noted hosts mesh uses ctx) {label : Value α}
    (hlabel : label ≠ .text mesh) (seen : List String) (id : HostId) :
    Ends (noteMeshMaterial hosts label seen id) ctx (fun _ => Noted hosts mesh uses) E := by
  have hextends := Registrar.extends_register hosts id ctx.registrar
  rcases hregister : (Registrar.register hosts id).run ctx.registrar with ⟨r, registrar⟩
  rw [hregister] at hextends
  refine ends_of_run_ok (run_noteMeshMaterial hregister label seen) ?_
  refine (MeshNoted.of_other ?_ hlabel _ _).1
  split
  · exact ((h.grow hextends).of_other hlabel _ (.text r.materialId)).2
  · exact h.grow hextends

/-- While the materials of a mesh are noted, just the names that were used are seen. -/
structure Noting (hosts : HostTable α) (mesh : String) (uses : List HostId) (seen : List String)
    (ctx : Context α) : Prop where
  noted : Noted hosts mesh uses ctx
  seen {name : String} : name ∈ seen ↔ name ∈ uses.map hosts.name

theorem ends_noteMeshMaterial_of_self {seen : List String} (h : Noting hosts mesh uses seen ctx)
    (id : HostId) :
    Ends (noteMeshMaterial hosts (.text mesh) seen id) ctx (Noting hosts mesh (uses ++ [id])) E := by
  have hextends := Registrar.extends_register hosts id ctx.registrar
  have hfound := Registrar.find?_register hosts id ctx.registrar
  rcases hregister : (Registrar.register hosts id).run ctx.registrar with ⟨r, registrar⟩
  rw [hregister] at hextends hfound
  have hgrown := h.noted.grow hextends
  refine ends_of_run_ok (run_noteMeshMaterial hregister (.text mesh) seen) ⟨?_, ?_⟩
  · have hseen : seen.contains (hosts.get id).name = true ↔ hosts.name id ∈ uses.map hosts.name :=
      List.contains_iff_mem.trans h.seen
    by_cases hagain : hosts.name id ∈ uses.map hosts.name
    · rw [if_pos (hseen.mpr hagain)]
      exact hgrown.again (by rw [hfound]; rfl) hagain _
    · rw [if_neg (mt hseen.mp hagain)]
      exact hgrown.new hfound hagain
  · intro name
    rw [List.map_append, List.mem_append, List.mem_cons, h.seen, or_comm]
    simp [HostTable.name]

/-- A mesh that comes once among others has used its materials in the end. -/
theorem ends_noteMeshes {meshes : LabelTable α (List HostId)} (hlabels : (meshes.map (·.1)).Nodup)
    {ids : List HostId} (hmesh : (.text mesh, ids) ∈ meshes) (h : Noted hosts mesh [] ctx) :
    Ends (meshes.forM fun (label, ids) => discard (ids.foldlM (noteMeshMaterial hosts label) []))
      ctx (fun _ => Noted hosts mesh ids) E := by
  obtain ⟨before, after, rfl⟩ := List.append_of_mem hmesh
  rw [List.map_append, List.map_cons, List.nodup_middle, List.nodup_cons, ← List.map_append] at hlabels
  have hother (others : LabelTable α (List HostId)) (hsub : others ⊆ before ++ after)
      (uses : List HostId) (ctx : Context α) (h : Noted hosts mesh uses ctx) :
      Ends (others.forM fun (label, ids) => discard (ids.foldlM (noteMeshMaterial hosts label) []))
        ctx (fun _ => Noted hosts mesh uses) E := by
    refine ends_forM (fun e he ctx h => ?_) h
    have hlabel : e.1 ≠ .text mesh := fun hsame =>
      hlabels.1 (List.mem_map.mpr ⟨e, hsub he, hsame⟩)
    refine ends_discard (ends_foldlM (fun (u : Unit) (_ : HostId) => u)
      (I := fun _ _ => Noted hosts mesh uses) (fun id _ _ seen ctx h => ?_) (g := ()) h) fun _ _ h => h
    exact ends_noteMeshMaterial_of_other h hlabel seen id
  rw [List.forM_eq_forM] at hother ⊢
  rw [List.forM_append, List.forM_cons]
  refine (hother before (List.subset_append_left _ _) [] ctx h).bind fun _ middle hmiddle => ?_
  refine Ends.bind (Q := fun _ => Noted hosts mesh ids) ?_ fun _ later hlater =>
    hother after (List.subset_append_right _ _) ids later hlater
  have hfold := ends_foldlM (E := E) (fun (uses : List HostId) id => uses ++ [id])
    (I := Noting hosts mesh) (fun id (_ : id ∈ ids) _ _ _ h => ends_noteMeshMaterial_of_self h id)
    (g := []) (s := []) ⟨hmiddle, by simp⟩
  rw [List.foldl_append_eq_append, List.nil_append, ← List.flatMap_def,
    List.flatMap_singleton'] at hfold
  exact ends_discard hfold fun _ _ hlater => hlater.noted

/-- The notes of a mesh in a scene that was compiled. -/
theorem ends_compileScene_noted {request : SceneRequest α}
    (hlabels : (request.meshes.map (·.1)).Nodup) {ids : List HostId}
    (hmesh : (.text mesh, ids) ∈ request.meshes) (hfresh : ctx.usage = {}) :
    Ends (compileScene hosts request) ctx (fun _ => Noted hosts mesh ids) fun _ => True := by
  refine (channelWise_sameMeshes.leaves_overrides
    request.overrides).ends.bind fun _ first hfirst => ?_
  refine (channelWise_sameMeshes.leaves_compileMaterials hosts trivial
    request.materials).ends.bind fun ms second hsecond => ?_
  have hnone : Noted hosts mesh [] second := by
    have hempty := MeshNoted.empty hosts mesh second.registrar.registry
    rw [← hfresh] at hempty
    exact (hempty.sameMeshes hfirst.1).sameMeshes hsecond.1
  refine (ends_noteMeshes hlabels hmesh hnone).bind fun _ third hthird => ?_
  refine (((channelWise_sameMeshes.leaves_exchangeScene ms).ends.and
    (ends_exchangeScene ms)).mono (fun _ _ h => h) fun _ _ => trivial).bind ?_
  rintro scene fourth ⟨⟨hsame, -⟩, hregistry, -⟩
  refine ends_get.bind ?_
  rintro _ _ ⟨rfl, rfl⟩
  refine ends_of_run_ok rfl ?_
  have hlast := hthird.sameMeshes hsame
  rw [← hregistry] at hlast
  exact hlast

end Compile

/-- A mesh lists the id of the first material of each name that it uses, in their order, and it uses a
material again just if a name comes again. So it lists the ids of all its distinct materials just if
these are told apart by their names; where they are not, ids are missing, and a mesh without any
repetition is said to use a material again. -/
theorem Context.compileScene_meshIds {α : Type} [Scalar α] (ctx : Context α) (hosts : HostTable α)
    (request : SceneRequest α) (hlabels : (request.meshes.map (·.1)).Nodup)
    {compiled : CompiledScene} {later : Context α}
    (hrun : ctx.compileScene hosts request = (.ok compiled, later))
    (hids : ∀ r ∈ later.registrar.registry.recordList, r.materialId ≠ "")
    {mesh : String} {ids : List HostId} (hmesh : (.text mesh, ids) ∈ request.meshes) :
    let listed := (later.usage.materialIds (.text mesh)).map some
    let registered := hosts.registeredLabels later.registrar.registry
    let reuses := later.usage.reuses (.text mesh) = true
    listed = registered (firstUses hosts.name ids) ∧
      (reuses ↔ ¬ (ids.map hosts.name).Nodup) ∧
      (listed = registered (firstUses id ids) ↔ hosts.NamesApart ids) ∧
      ((reuses ↔ ¬ ids.Nodup) ↔ hosts.NamesApart ids ∨ ¬ ids.Nodup) := by
  intro listed registered reuses
  have hnoted : Compile.Noted hosts mesh ids later :=
    (Compile.ends_compileScene_noted hlabels hmesh rfl).ok hrun
  have hlisted : listed = registered (firstUses hosts.name ids) := hnoted.listed hids
  have hreuses : reuses ↔ ¬ (ids.map hosts.name).Nodup := hnoted.reuses_iff
  refine ⟨hlisted, hreuses, ?_, ?_⟩
  · rw [hlisted]
    constructor
    · intro hsame
      refine length_firstUses_eq_iff.mp ?_
      simpa [registered, HostTable.registeredLabels] using congrArg List.length hsame
    · intro hapart
      rw [firstUses_eq_of_injective hapart]
  · rw [hreuses, hosts.nodup_names_iff]
    tauto

/-- Two materials that share a name, and a mesh that uses them once each. -/
def namesakes : HostTable Float :=
  ⟨#[{ handle := 1, name := "A", channels := [] }, { handle := 2, name := "A", channels := [] }]⟩

/-- The second of two materials with one name is missing in the mesh. -/
theorem Context.compileScene_meshIds_namesakes :
    let ctx : Context Float :=
      Context.start Options.standard .none { ids := { chosen := ["a", "b"] } } ∅
    let request : SceneRequest Float := { materials := [0, 1], meshes := [(.text "Box", [0, 1])] }
    ∃ compiled later, ctx.compileScene namesakes request = (.ok compiled, later) ∧
      namesakes.registeredId later.registrar.registry 0 = some "a" ∧
      namesakes.registeredId later.registrar.registry 1 = some "b" ∧
      (later.usage.materialIds (.text "Box")).map some = [some (.text "a")] ∧
      later.usage.reuses (.text "Box") = true := by
  intro ctx request
  have hfine : (ctx.compileScene namesakes request).1.isOk = true := by decide +kernel
  have hregistered :
      let registry := (ctx.compileScene namesakes request).2.registrar.registry
      (∀ r ∈ registry.recordList, r.materialId ≠ "") ∧
        namesakes.registeredId registry 0 = some "a" ∧
        namesakes.registeredId registry 1 = some "b" := by decide +kernel
  cases hrun : ctx.compileScene namesakes request with
  | mk result later =>
    rw [hrun] at hfine hregistered
    cases result with
    | error e => contradiction
    | ok compiled =>
      obtain ⟨hids, hfirst, hsecond⟩ := hregistered
      obtain ⟨hlisted, hreuses, -, -⟩ := compileScene_meshIds ctx namesakes request
        (List.nodup_singleton _) hrun hids (List.mem_singleton_self _)
      have hfirsts : firstUses namesakes.name [0, 1] = [0] := by decide
      rw [hfirsts, HostTable.registeredLabels, List.map_singleton, hfirst] at hlisted
      exact ⟨compiled, later, rfl, hfirst, hsecond, hlisted, hreuses.mpr (by decide)⟩

end ShadeGraph
