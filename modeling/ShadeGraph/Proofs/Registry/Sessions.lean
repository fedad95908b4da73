import ShadeGraph.Proofs.Registry.HostScene
import ShadeGraph.Proofs.Registry.Reload

/-!
# Sessions that load

A session may load an attachment and go on registering materials. Loading brings records with places
in the generated material table of another session, but not that table: the first plain material that
is registered afterwards gets the first place again. How the numbers of the two kinds of materials fall
together depends on nothing but how many there are of each.
-/

namespace ShadeGraph

namespace Registry

section

variable {α : Type} (hosts : HostTable α) (known : List HostId)

/-- The record of a plain material gives it this place in the generated material table. -/
def PlacedAt (registry : Registry) (p : HostId) (index : Int) : Prop :=
  ∃ r, registry.find? (hosts.key p) = some r ∧ r.generatedOf = [(0, index)]

/-- Another plain material has the place of this one. -/
def SharesPlace (registry : Registry) (p : HostId) : Prop :=
  ∃ q, hosts.Reached known q ∧ hosts.IsPlain q ∧ q ≠ p ∧
    ∃ index, registry.PlacedAt hosts p index ∧ registry.PlacedAt hosts q index

/-- Every generated index that a record tells is a place of the generated material table. -/
def InRange (registry : Registry) : Prop :=
  ∀ index ∈ registry.indices, 0 ≤ index ∧ index < registry.materialCount

/-- The records of another session, whose plain materials were `carried` in the order of their
places. -/
structure Carries (carried : List HostId) (start : Registry) : Prop where
  generated : start.generated = []
  owners : ∃ order, start.records.keys = order.map hosts.key ∧ (order.map hosts.key).Nodup ∧
    (∀ id ∈ order, hosts.Reached known id) ∧ hosts.plains order = carried
  placedAt : ∀ {i : Nat} {p}, carried[i]? = some p → start.PlacedAt hosts p i
  told : ∀ {index : Int}, start.Told index → index = 0 ∨ 0 ≤ index ∧ index < carried.length

/-- How the plain materials are numbered that were `carried` into a registry, and those that were
`placed` since. -/
structure Numbering (carried placed : List HostId) (registry : Registry) : Prop where
  nodup : (carried ++ placed).Nodup
  held_iff : ∀ {p}, hosts.Reached known p → hosts.IsPlain p →
    ((∃ r, registry.find? (hosts.key p) = some r) ↔ p ∈ carried ++ placed)
  carriedAt : ∀ {i : Nat} {p}, carried[i]? = some p → registry.PlacedAt hosts p i
  placedAt : ∀ {i : Nat} {p}, placed[i]? = some p → registry.PlacedAt hosts p i
  length : registry.generated.length = placed.length
  inRange_iff : registry.InRange ↔ placed = [] ∨ carried.length ≤ placed.length
  shares_iff : ∀ {i : Nat} {p}, placed[i]? = some p →
    (registry.SharesPlace hosts known p ↔ i < carried.length)

end

variable {α : Type} {hosts : HostTable α} {known carried order : List HostId}
variable {start registry : Registry}

theorem PlacedAt.unique {p : HostId} {i j : Int} (hi : registry.PlacedAt hosts p i)
    (hj : registry.PlacedAt hosts p j) : i = j := by
  obtain ⟨r, hr, hi⟩ := hi
  obtain ⟨r', hr', hj⟩ := hj
  obtain rfl := Option.some.inj (hr.symm.trans hr')
  simpa using hi.symm.trans hj

theorem PlacedAt.held {p : HostId} {i : Int} (h : registry.PlacedAt hosts p i) :
    ∃ r, registry.find? (hosts.key p) = some r := by
  obtain ⟨r, hr, _⟩ := h
  exact ⟨r, hr⟩

theorem PlacedAt.mem_indices {p : HostId} {i : Int} (h : registry.PlacedAt hosts p i)
    (hkeys : registry.records.keys.Nodup) : i ∈ registry.indices := by
  obtain ⟨r, hr, hplace⟩ := h
  rw [mem_indices_iff hkeys]
  exact ⟨_, r, hr, by simp [hplace]⟩

theorem carries_empty (hrecords : start.records = []) (hgenerated : start.generated = []) :
    Carries hosts known [] start where
  generated := hgenerated
  owners := ⟨[], by simp [hrecords, HostTable.plains]⟩
  placedAt := by simp
  told := by
    rintro index (rfl | ⟨key, r, hr, _⟩)
    · exact .inl rfl
    · rw [find?, hrecords] at hr
      contradiction

/-! ### Numbering -/

namespace Grown

variable (hkeys : hosts.DistinctKeys known) (hcarries : Carries hosts known carried start)
  (h : Grown hosts known start ⟨order, registry⟩)

include hcarries h

theorem carried_placedAt {i : Nat} {p : HostId} (hp : carried[i]? = some p) :
    registry.PlacedAt hosts p i := by
  obtain ⟨r, hr, hplace⟩ := hcarries.placedAt hp
  exact ⟨r, h.kept hr, hplace⟩

theorem placedAt {i : Nat} {p : HostId} (hp : (hosts.plains order)[i]? = some p) :
    registry.PlacedAt hosts p i := by
  obtain ⟨r, hr, hplace⟩ := h.placed hp
  refine ⟨r, hr, ?_⟩
  simpa [hcarries.generated] using hplace

theorem length_generated : registry.generated.length = (hosts.plains order).length := by
  simpa [hcarries.generated] using h.length

/-- The records that were carried and those that were added belong to materials with keys of their
own. -/
theorem owners_append : ∃ owners, registry.records.keys = owners.map hosts.key ∧
    (owners.map hosts.key).Nodup ∧ (∀ id ∈ owners, hosts.Reached known id) ∧
    hosts.plains owners = carried ++ hosts.plains order := by
  obtain ⟨before, hbefore, hnodup, hreached, rfl⟩ := hcarries.owners
  refine ⟨before ++ order, ?_, ?_, ?_, List.filter_append _ _⟩
  · rw [List.map_append, ← hbefore]
    exact h.keys
  · rw [List.map_append]
    apply hnodup.append h.nodup
    intro key hkey hkey'
    obtain ⟨id, hid, rfl⟩ := List.mem_map.mp hkey'
    have hnew := h.new id hid
    rw [find?, Table.get?_eq_none_iff_notMem, hbefore] at hnew
    exact hnew hkey
  · intro id hid
    rcases List.mem_append.mp hid with hid | hid
    · exact hreached id hid
    · exact h.reached id hid

theorem nodup_carried_append : (carried ++ hosts.plains order).Nodup := by
  obtain ⟨owners, _, hnodup, _, hplains⟩ := h.owners_append hcarries
  rw [← hplains]
  exact (hnodup.of_map _).filter _

theorem nodup_keys : registry.records.keys.Nodup := by
  obtain ⟨owners, hrecords, hnodup, _⟩ := h.owners_append hcarries
  rw [hrecords]
  exact hnodup

theorem told_cases {index : Int} (hindex : index ∈ registry.indices) :
    index = 0 ∨ 0 ≤ index ∧ (index < carried.length ∨ index < (hosts.plains order).length) := by
  rw [mem_indices_iff (h.nodup_keys hcarries)] at hindex
  rcases h.told (.inr hindex) with hstart | ⟨hlow, hhigh⟩
  · rcases hcarries.told hstart with rfl | ⟨hlow, hhigh⟩
    · exact .inl rfl
    · exact .inr ⟨hlow, .inl hhigh⟩
  · have hlength : registry.generated.length = (hosts.plains order).length :=
      h.length_generated hcarries
    rw [hcarries.generated] at hlow
    dsimp only at hhigh
    exact .inr ⟨by simpa using hlow, .inr (by omega)⟩

theorem inRange_iff :
    registry.InRange ↔ hosts.plains order = [] ∨ carried.length ≤ (hosts.plains order).length := by
  have hlength := h.length_generated hcarries
  by_cases hnone : hosts.plains order = []
  · have hempty : registry.generated = [] := by simpa [hnone] using hlength
    refine iff_of_true ?_ (.inl hnone)
    intro index hindex
    refine ⟨?_, lt_materialCount hempty hindex⟩
    rcases h.told_cases hcarries hindex with rfl | ⟨hlow, _⟩ <;> omega
  · have hsome : registry.generated ≠ [] := by
      rw [← List.length_pos_iff, hlength, List.length_pos_iff]
      exact hnone
    have hcount : registry.materialCount = (hosts.plains order).length := by
      rw [materialCount_of_nonempty hsome, hlength]
    rw [or_iff_right hnone]
    constructor
    · intro hrange
      by_contra hmore
      have hlast : carried.length - 1 < carried.length := by omega
      have hplace := h.carried_placedAt hcarries (List.getElem?_eq_getElem hlast)
      have hbound := (hrange _ (hplace.mem_indices (h.nodup_keys hcarries))).2
      rw [hcount] at hbound
      omega
    · intro hle index hindex
      have hpos := List.length_pos_iff.mpr hnone
      rw [hcount]
      rcases h.told_cases hcarries hindex with rfl | ⟨hlow, hhigh⟩ <;> omega

include hkeys in
theorem held_iff {p : HostId} (hp : hosts.Reached known p) (hplain : hosts.IsPlain p) :
    (∃ r, registry.find? (hosts.key p) = some r) ↔ p ∈ carried ++ hosts.plains order := by
  obtain ⟨owners, hrecords, _, hreached, hplains⟩ := h.owners_append hcarries
  rw [find?, ← Table.mem_keys_iff, hrecords, hkeys.key_mem_iff hreached hp, ← hplains,
    HostTable.mem_plains_iff, and_iff_left hplain]

include hkeys in
/-- A place is shared as far as there are materials that were carried. -/
theorem shares_iff {i : Nat} {p : HostId} (hp : (hosts.plains order)[i]? = some p) :
    registry.SharesPlace hosts known p ↔ i < carried.length := by
  have hplace := h.placedAt hcarries hp
  have hnodup := h.nodup_carried_append hcarries
  constructor
  · rintro ⟨q, hq, hplain, hne, index, hindex, hindex'⟩
    obtain rfl := hindex.unique hplace
    have hmem := (h.held_iff hkeys hcarries hq hplain).mp hindex'.held
    rcases List.mem_append.mp hmem with hmem | hmem
    · obtain ⟨j, hj⟩ := List.getElem?_of_mem hmem
      have hsame := hindex'.unique (h.carried_placedAt hcarries hj)
      obtain ⟨hlt, _⟩ := List.getElem?_eq_some_iff.mp hj
      omega
    · obtain ⟨j, hj⟩ := List.getElem?_of_mem hmem
      have hsame := hindex'.unique (h.placedAt hcarries hj)
      obtain rfl : i = j := by omega
      exact absurd (Option.some.inj (hj.symm.trans hp)) hne
  · intro hi
    obtain ⟨before, _, _, hreached, rfl⟩ := hcarries.owners
    have hmem : (hosts.plains before)[i] ∈ hosts.plains before := List.getElem_mem hi
    obtain ⟨hbefore, hplain⟩ := HostTable.mem_plains_iff.mp hmem
    refine ⟨(hosts.plains before)[i], hreached _ hbefore, hplain, ?_, i, hplace,
      h.carried_placedAt hcarries (List.getElem?_eq_getElem hi)⟩
    intro heq
    exact (List.nodup_append'.mp hnodup).2.2 hmem (heq ▸ List.mem_of_getElem? hp)

include hkeys in
theorem numbering : Numbering hosts known carried (hosts.plains order) registry where
  nodup := h.nodup_carried_append hcarries
  held_iff := h.held_iff hkeys hcarries
  carriedAt := h.carried_placedAt hcarries
  placedAt := h.placedAt hcarries
  length := h.length_generated hcarries
  inRange_iff := h.inRange_iff hcarries
  shares_iff := h.shares_iff hkeys hcarries

end Grown

end Registry

/-! ### Sessions -/

namespace Registrar

open Registry

variable {α : Type} {hosts : HostTable α} {known carried : List HostId} {s : Registrar}

/-- What was written of materials that were registered carries them in the order of exploring. -/
theorem carries_registered {ids : List HostId} (hids : ∀ id ∈ ids, id ∈ known)
    (hrecords : s.registry.records = []) (hgenerated : s.registry.generated = [])
    (target : Registry) : Carries hosts known (hosts.plains (hosts.explore ids))
      { target with records := (registered hosts ids s).records, generated := [] } := by
  have hempty : Settled hosts known ⟨[], s.registry⟩ := .empty hrecords hgenerated
  have hsettled : Settled hosts known ⟨hosts.explore ids, registered hosts ids s⟩ :=
    (hempty.registerAll_explored fun id hid => ⟨id, hids id hid, .refl⟩).2
  obtain ⟨order, hgrown⟩ := grown_registered hosts ids s
  have hlength : (registered hosts ids s).generated.length =
      (hosts.plains (hosts.explore ids)).length := by
    simpa using congrArg List.length hsettled.sound.generated
  refine ⟨rfl, ⟨hosts.explore ids, hsettled.sound.keys, hsettled.sound.nodup,
    hsettled.sound.reached, rfl⟩, ?_, ?_⟩
  · intro i p hp
    have hplace := hsettled.sound.getElem?_generated i
    rw [hp, Option.map_some] at hplace
    obtain ⟨r, hr, hfind⟩ := Option.map_eq_some_iff.mp hplace
    exact ⟨r, hfind.symm, hsettled.sound.numbered hr⟩
  · intro index hindex
    rcases hgrown.told hindex with (rfl | ⟨key, r, hr, _⟩) | ⟨hlow, hhigh⟩
    · exact .inl rfl
    · rw [find?, hrecords] at hr
      contradiction
    · rw [hgenerated] at hlow
      dsimp only at hhigh
      exact .inr ⟨by simpa using hlow, by omega⟩

theorem run_loadAttachment_of_ok {bytes : List UInt8} {registry : Registry}
    (h : s.registry.loadAttachment bytes = .ok registry) :
    (loadAttachment bytes).run s = (.ok (), { s with registry }) := by
  simp only [loadAttachment, StateT.run_bind, StateT.run_get, pure_bind, h]
  rfl

/-- A session that registers known materials, clears its registry, and loads attachments that were
written after registering known materials elsewhere. The plain ones of these are `carried`. -/
inductive Session (hosts : HostTable α) (known : List HostId) : List HostId → Registrar → Prop
  | start {s : Registrar} : s.registry.records = [] → s.registry.generated = [] →
    Session hosts known [] s
  | register {carried : List HostId} {s : Registrar} {id : HostId} :
    Session hosts known carried s → id ∈ known →
    Session hosts known carried ((Registrar.register hosts id).run s).2
  | clear {carried : List HostId} {s : Registrar} : Session hosts known carried s →
    Session hosts known [] { s with registry := s.registry.clear }
  | load {carried ids : List HostId} {s writer : Registrar} {versioned : Bool}
      {bytes : List UInt8} : Session hosts known carried s →
    (∀ id ∈ ids, id ∈ known) → writer.registry.records = [] → writer.registry.generated = [] →
    (registered hosts ids writer).TellsLayout versioned →
    (registered hosts ids writer).toAttachment versioned = .ok bytes →
    Session hosts known (hosts.plains (hosts.explore ids)) ((loadAttachment bytes).run s).2

theorem grown_register {start : Registry} {order : List HostId} {id : HostId}
    (h : Grown hosts known start ⟨order, s.registry⟩) (hid : id ∈ known) :
    ∃ added, Grown hosts known start
      ⟨order ++ added, ((Registrar.register hosts id).run s).2.registry⟩ := by
  obtain ⟨⟨added, hadded⟩, _⟩ :=
    enters_registerWithin hosts known (hosts.size + 1) id s ⟨id, hid, .refl⟩
  exact ⟨added, h.additions (hadded.behind order)⟩

theorem Session.grown (h : Session hosts known carried s) :
    ∃ start order, Carries hosts known carried start ∧
      Grown hosts known start ⟨order, s.registry⟩ := by
  induction h with
  | start hrecords hgenerated => exact ⟨_, [], carries_empty hrecords hgenerated, .refl _⟩
  | register _ hid ih =>
    obtain ⟨start, order, hcarries, hgrown⟩ := ih
    obtain ⟨added, hgrown⟩ := grown_register hgrown hid
    exact ⟨start, order ++ added, hcarries, hgrown⟩
  | clear _ _ => exact ⟨_, [], carries_empty rfl rfl, .refl _⟩
  | @load _ ids s writer _ _ _ hids hrecords hgenerated hlayout hbytes _ =>
    have hload := loadAttachment_registered hosts ids writer hrecords hlayout hbytes s.registry
    rw [run_loadAttachment_of_ok hload]
    exact ⟨_, [], carries_registered hids hrecords hgenerated s.registry, .refl _⟩

/-- In every session the plain materials that were registered since the last attachment was loaded are
numbered from zero, and so are those that were carried by it. Hence all indices are in range exactly
if nothing new was placed or if as much was placed as was carried. A material that is placed by a call
of `register` shares its index with another one exactly if fewer were placed before it than carried. -/
theorem session_numbering (hkeys : hosts.DistinctKeys known) (h : Session hosts known carried s) :
    ∃ placed, Numbering hosts known carried placed s.registry ∧
      ∀ id ∈ known, ∃ more, Numbering hosts known carried (placed ++ more)
        ((Registrar.register hosts id).run s).2.registry := by
  obtain ⟨start, order, hcarries, hgrown⟩ := h.grown
  refine ⟨hosts.plains order, hgrown.numbering hkeys hcarries, ?_⟩
  intro id hid
  obtain ⟨added, hgrown'⟩ := grown_register hgrown hid
  refine ⟨hosts.plains added, ?_⟩
  have hplains : hosts.plains (order ++ added) = hosts.plains order ++ hosts.plains added :=
    List.filter_append _ _
  rw [← hplains]
  exact hgrown'.numbering hkeys hcarries

def threePlain : HostTable Unit :=
  ⟨#[{ handle := 1, name := "A" }, { handle := 2, name := "B" }, { handle := 3, name := "C" }]⟩

theorem distinctKeys_threePlain : threePlain.DistinctKeys [0, 1, 2] :=
  HostTable.distinctKeys_of_closed [0, 1, 2] (by decide) (by decide) (by decide)

/-- After loading the first two materials the third one gets the place of the first, and there is one
place for three materials. -/
theorem session_numbering_threePlain :
    threePlain.DistinctKeys [0, 1, 2] ∧ ∃ s bytes,
      (registered threePlain [0, 1] {}).toAttachment false = .ok bytes ∧
      s = ((register threePlain 2).run ((loadAttachment bytes).run {}).2).2 ∧
      Session threePlain [0, 1, 2] [0, 1] s ∧
      ¬ s.registry.InRange ∧ s.registry.SharesPlace threePlain [0, 1, 2] 2 := by
  have hlayout : (registered threePlain [0, 1] {}).TellsLayout false := .inr (by decide +kernel)
  have hwritten : ((registered threePlain [0, 1] {}).toAttachment false).isOk = true := by
    decide +kernel
  cases hbytes : (registered threePlain [0, 1] {}).toAttachment false with
  | error e =>
    rw [hbytes] at hwritten
    contradiction
  | ok bytes =>
    have hloaded := (Session.start rfl rfl : Session threePlain [0, 1, 2] [] {}).load
      (by decide) rfl rfl hlayout hbytes
    have hsession := hloaded.register (by decide : 2 ∈ [0, 1, 2])
    have hcarried : threePlain.plains (threePlain.explore [0, 1]) = [0, 1] := by decide
    rw [hcarried] at hsession
    obtain ⟨placed, hnumbering, _⟩ := session_numbering distinctKeys_threePlain hsession
    have hload := loadAttachment_registered threePlain [0, 1] {} rfl hlayout hbytes {}
    have hrun := run_loadAttachment_of_ok (s := {}) hload
    rw [hrun] at hnumbering hsession
    have hlength : placed.length = 1 := by
      rw [← hnumbering.length]
      decide +kernel
    have hheld : 2 ∈ [0, 1] ++ placed := by
      rw [← hnumbering.held_iff ⟨2, by decide, .refl⟩ (by decide)]
      exact Option.isSome_iff_exists.mp (by decide +kernel)
    obtain ⟨p, rfl⟩ := List.length_eq_one_iff.mp hlength
    obtain rfl : 2 = p := by simpa using hheld
    refine ⟨distinctKeys_threePlain, _, bytes, rfl, rfl, ?_⟩
    rw [hrun]
    refine ⟨hsession, ?_, ?_⟩
    · rw [hnumbering.inRange_iff]
      decide
    · exact (hnumbering.shares_iff (i := 0) rfl).mpr (by decide)

end Registrar

end ShadeGraph
