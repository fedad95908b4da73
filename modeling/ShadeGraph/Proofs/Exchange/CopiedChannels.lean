import ShadeGraph.Proofs.Exchange.Copying

/-!
# Channels whose textures are copied

The texture nodes of a channel are pointed to copies, or the channel gets an exit of its own where a
file is missing. Both stay as they are when other channels are done.
-/

namespace ShadeGraph.TextureCopies

variable {α : Type} {start s later : TextureCopies α}

/-! ### What becomes of a channel -/

/-- The exit of a channel of the material at an index. -/
def exit? (s : TextureCopies α) (index : Nat) (channel : String) : Option NodeId :=
  (s.materials[index]?).bind (·.channels.get? channel)

/-- The color node of a channel whose textures are not all there. -/
def fallbackColor [Scalar α] (channel : String) : Node α :=
  { operation := .color (Channel.fallback channel), inputs := [] }

/-- A channel of a material with its exit. -/
structure Job where
  index : Nat
  channel : String
  exit : NodeId

namespace Job

variable {job : Job}

def key (job : Job) : Nat × String := (job.index, job.channel)

/-- A texture node of the channel reads a file that was not there at the start. -/
def Misses (start : TextureCopies α) (job : Job) : Prop :=
  ∃ e ∈ start.network.texturePaths job.exit, start.bench.disk.isFile e.2 = false

/-- The channel got an exit of its own that shows its fallback color. -/
def Replaced [Scalar α] (start s : TextureCopies α) (job : Job) : Prop :=
  ∃ exit, s.exit? job.index job.channel = some exit ∧ start.network.size ≤ exit ∧
    s.network.get? exit = some (fallbackColor job.channel)

/-- The channel has its exit, and its texture nodes are done with. -/
structure Kept (start s : TextureCopies α) (job : Job) : Prop where
  exit : s.exit? job.index job.channel = some job.exit
  settled : ∀ e ∈ start.network.texturePaths job.exit, s.Settled e.1 e.2

/-- What a channel is when it is done. -/
def Done [Scalar α] (start s : TextureCopies α) (job : Job) : Prop :=
  job.Kept start s ∨ job.Replaced start s ∧ job.Misses start

theorem Done.evolves [Scalar α] (h : job.Done start s) (hevolves : Evolves start s later)
    (hexit : later.exit? job.index job.channel = s.exit? job.index job.channel) :
    job.Done start later := by
  rcases h with ⟨hkept, hsettled⟩ | ⟨⟨exit, hnew, hsize, hcolor⟩, hmisses⟩
  · refine .inl ⟨hexit.trans hkept, fun e he => hevolves.settled ?_ (hsettled e he)⟩
    exact (Network.mem_texturePaths_iff.mp he).2.1
  · exact .inr ⟨⟨exit, hexit.trans hnew, hsize, hevolves.plain hcolor rfl⟩, hmisses⟩

end Job

/-! ### The nodes of a channel -/

/-- The node had a path at the start, and its file, or the copy it reads, is there. -/
def Due (start s : TextureCopies α) (e : NodeId × String) : Prop :=
  ∃ original, start.network.pathAt? e.1 = some original ∧
    (e.2 = original ∨ (original, e.2) ∈ s.copied) ∧
    (s.Known e.2 ∨ s.bench.disk.isFile e.2 = true)

theorem Due.grow {e : NodeId × String} (h : Due start s e) (hevolves : Evolves start s later) :
    Due start later e := by
  obtain ⟨original, hstart, hcurrent, hfile⟩ := h
  exact ⟨original, hstart, hcurrent.imp_right (hevolves.copied.subset ·),
    hfile.imp (·.grow hevolves.copied) hevolves.files⟩

theorem isEmpty_absent_iff {textures : List (NodeId × String)} :
    (s.absent textures).isEmpty = true ↔
      ∀ e ∈ textures, e.2 ∈ s.copied.keys ∨ s.bench.disk.isFile e.2 = true := by
  rw [List.isEmpty_iff, absent, List.filter_eq_nil_iff, List.forall_mem_map]
  refine forall₂_congr fun e _ => ?_
  rw [Bool.and_eq_true, Bool.not_eq_true', Bool.not_eq_true', Table.contains_eq_false_iff,
    not_and_or, not_not, Bool.not_eq_false]

theorem Copying.below_iff (h : Copying start s) {exit id : NodeId}
    (hexit : exit < start.network.size) :
    s.network.Below exit id ↔ start.network.Below exit id := by
  constructor <;> intro hbelow <;> apply hbelow.congr
  · exact fun j hj => (h.inputs j (hj.trans_lt hexit)).symm
  · exact fun j hj => h.inputs j (hj.trans_lt hexit)

/-- A texture node reads the path that it had at the start or the copy of it. -/
theorem Copying.exists_original (h : Copying start s) {exit id : NodeId} {current : String}
    (hexit : exit < start.network.size) (hmem : (id, current) ∈ s.network.texturePaths exit) :
    ∃ original, start.network.Below exit id ∧ start.network.pathAt? id = some original ∧
      (current = original ∨ (original, current) ∈ s.copied) := by
  obtain ⟨hbelow, hcurrent, _⟩ := Network.mem_texturePaths_iff.mp hmem
  rw [h.below_iff hexit] at hbelow
  cases hstart : start.network.pathAt? id with
  | none =>
    rw [h.others (hbelow.le.trans_lt hexit) hstart] at hcurrent
    cases hcurrent
  | some original =>
    obtain ⟨path, hpath, hsame⟩ := h.paths hstart
    obtain rfl : path = current := Option.some.inj (hpath.symm.trans hcurrent)
    exact ⟨original, hbelow, rfl, hsame⟩

/-- Where a file is missing, it was missing at the start. -/
theorem Copying.misses (h : Copying start s) {job : Job} (hexit : job.exit < start.network.size)
    (habsent : ¬ (s.absent (s.network.texturePaths job.exit)).isEmpty = true) :
    job.Misses start := by
  rw [isEmpty_absent_iff] at habsent
  push Not at habsent
  obtain ⟨⟨id, current⟩, hmem, _, hfile⟩ := habsent
  obtain ⟨original, hbelow, hstart, rfl | he⟩ := h.exists_original hexit hmem
  · have hpath := (Network.mem_texturePaths_iff.mp hmem).2.2
    exact ⟨(id, current), Network.mem_texturePaths_iff.mpr ⟨hbelow, hstart, hpath⟩,
      Bool.eq_false_iff.mpr fun hthere => hfile (h.isFile_of_start hthere)⟩
  · exact absurd (h.reached _ he).2 hfile

theorem Copying.due (h : Copying start s) {exit : NodeId} (hexit : exit < start.network.size)
    (hpresent : (s.absent (s.network.texturePaths exit)).isEmpty = true) :
    ∀ e ∈ s.network.texturePaths exit, Due start s e := by
  intro e he
  obtain ⟨original, _, hstart, hsame⟩ := h.exists_original hexit he
  exact ⟨original, hstart, hsame, (isEmpty_absent_iff.mp hpresent e he).imp_left .inl⟩

/-! ### Words about missing files -/

/-- The state after words about missing files. -/
def told (s : TextureCopies α) (journal : Journal) (missing warnings : List String) :
    TextureCopies α :=
  { s with bench := { s.bench with journal }, missing, warnings }

theorem run_warnAbsent (s : TextureCopies α) (path : String) :
    ∃ journal missing warnings,
      (warnAbsent path : Step α Unit).run.run s = (.ok (), s.told journal missing warnings) := by
  unfold warnAbsent
  rw [run_get_bind]
  split
  · exact ⟨_, _, _, rfl⟩
  · exact ⟨s.bench.journal, s.missing, s.warnings, rfl⟩

theorem run_forM_warnAbsent (s : TextureCopies α) (paths : List String) :
    ∃ journal missing warnings, (paths.forM warnAbsent : Step α Unit).run.run s =
      (.ok (), s.told journal missing warnings) := by
  induction paths generalizing s with
  | nil => exact ⟨s.bench.journal, s.missing, s.warnings, rfl⟩
  | cons path paths ih =>
    obtain ⟨journal, missing, warnings, hfirst⟩ := run_warnAbsent s path
    obtain ⟨journal', missing', warnings', hrest⟩ := ih (s.told journal missing warnings)
    refine ⟨journal', missing', warnings', ?_⟩
    change (warnAbsent path >>= fun _ => paths.forM warnAbsent).run.run s = _
    rw [run_bind, hfirst]
    exact hrest

theorem evolves_told (start s : TextureCopies α) (journal : Journal)
    (missing warnings : List String) : Evolves start s (s.told journal missing warnings) :=
  ⟨List.prefix_rfl, fun hfile => hfile, fun _ hsettled => hsettled, fun hnode _ => hnode⟩

theorem Copying.told (h : Copying start s) (journal : Journal) (missing warnings : List String) :
    Copying start (s.told journal missing warnings) := { h with }

/-! ### A channel of its own color -/

variable [Scalar α]

/-- The state after a channel got a color node of its own. -/
def withFallback (s : TextureCopies α) (index : Nat) (channel : String) : TextureCopies α :=
  { s with
    network := s.network.insert (fallbackColor channel)
    materials := s.materials.modify index fun m =>
      { m with channels := m.channels.insert channel s.network.size } }

theorem exit?_withFallback (s : TextureCopies α) (index other : Nat) (channel name : String)
    {exit : NodeId} (h : s.exit? index channel = some exit) :
    (s.withFallback index channel).exit? other name =
      if (other, name) = (index, channel) then some s.network.size else s.exit? other name := by
  rw [exit?, withFallback, List.getElem?_modify]
  by_cases hindex : index = other
  · subst hindex
    obtain ⟨m, hm, _⟩ := Option.bind_eq_some_iff.mp h
    simp [exit?, hm, Table.get?_insert]
  · simp [exit?, hindex, Ne.symm hindex]

theorem Copying.withFallback (h : Copying start s) (index : Nat) (channel : String) :
    Copying start (s.withFallback index channel) := by
  have hlt {id : NodeId} (hid : id < start.network.size) : id < s.network.size :=
    hid.trans_le h.size
  refine { h with size := ?_, inputs := ?_, paths := ?_, others := ?_ }
  · exact h.size.trans (Network.size_insert s.network _ ▸ Nat.le_succ _)
  · exact fun id hid => (Network.inputs_insert_of_lt _ (hlt hid)).trans (h.inputs id hid)
  · intro id path hpath
    rw [TextureCopies.withFallback,
      Network.pathAt?_insert_of_lt _ (hlt (Network.lt_size_of_pathAt? hpath))]
    exact h.paths hpath
  · exact fun hid hnone => (Network.pathAt?_insert_of_lt _ (hlt hid)).trans (h.others hid hnone)

theorem evolves_withFallback (h : Copying start s) (index : Nat) (channel : String) :
    Evolves start s (s.withFallback index channel) := by
  refine ⟨List.prefix_rfl, fun hfile => hfile, fun hpath hsettled => ⟨hsettled.1, ?_⟩,
    fun hnode _ => ?_⟩
  · have hlt := (Network.lt_size_of_pathAt? hpath).trans_le h.size
    exact (Network.pathAt?_insert_of_lt _ hlt).trans hsettled.2
  · exact (Network.get?_insert_of_lt _ (Network.lt_size_of_get? hnode)).trans hnode

theorem replaced_withFallback {job : Job} (h : Copying start s)
    (hexit : s.exit? job.index job.channel = some job.exit) :
    job.Replaced start (s.withFallback job.index job.channel) := by
  refine ⟨s.network.size, ?_, h.size, ?_⟩
  · rw [exit?_withFallback s _ _ _ _ hexit, if_pos rfl]
  · exact Network.get?_insert_size _ fun j hj => absurd hj List.not_mem_nil

/-! ### One channel -/

theorem grows_copyNodes (policy : RetryPolicy α) (directory : String)
    (textures : List (NodeId × String)) :
    Grows (textures.forM fun e => copyNode policy directory e.1 e.2) := by
  apply grows_forM
  exact fun e => grows_copyNode policy directory e.1 e.2

theorem achieves_copyNodes (policy : RetryPolicy α) (directory : String) (h : Copying start s)
    {textures : List (NodeId × String)} (hdue : ∀ e ∈ textures, Due start s e) :
    Achieves (Refused directory) start s
        (textures.forM fun e => copyNode policy directory e.1 e.2) fun _ later =>
      Copying start later ∧ Evolves start s later ∧ later.materials = s.materials ∧
        ∀ e ∈ textures, ∀ original, start.network.pathAt? e.1 = some original →
          later.Settled e.1 original := by
  induction textures generalizing s with
  | nil =>
    apply Achieves.of_run rfl
    exact ⟨h, .refl start s, rfl, fun _ he => absurd he List.not_mem_nil⟩
  | cons e es ih =>
    obtain ⟨⟨original, hstart, hcurrent, hfile⟩, hdue⟩ := List.forall_mem_cons.mp hdue
    have hgrows := grows_copyNodes policy directory es
    refine (achieves_copyNode policy directory h hstart hcurrent hfile).bind (fun _ => hgrows) ?_
    rintro - middle ⟨hmiddle, hevolves, hsettled, hmaterials⟩
    refine (ih hmiddle fun e he => (hdue e he).grow hevolves).mono ?_
    rintro - later ⟨hlater, hlast, hsame, hrest⟩
    refine ⟨hlater, hevolves.trans hlast, hsame.trans hmaterials,
      List.forall_mem_cons.mpr ⟨fun original' hstart' => ?_, hrest⟩⟩
    obtain rfl : original = original' := Option.some.inj (hstart.symm.trans hstart')
    exact hlast.settled hstart hsettled

theorem run_copyChannel_of_present (policy : RetryPolicy α) (directory : String) (index : Nat)
    (channel : String) {exit : NodeId}
    (h : (s.absent (s.network.texturePaths exit)).isEmpty = true) :
    (copyChannel policy (.text directory) index channel exit).run.run s =
      ((s.network.texturePaths exit).forM fun e =>
        copyNode policy directory e.1 e.2).run.run s := by
  unfold copyChannel
  rw [run_get_bind]
  dsimp only
  rw [if_pos h]
  rfl

theorem run_copyChannel_of_absent (policy : RetryPolicy α) (directory : Value α) (index : Nat)
    (channel : String) {exit : NodeId}
    (h : ¬ (s.absent (s.network.texturePaths exit)).isEmpty = true) :
    ∃ journal missing warnings, (copyChannel policy directory index channel exit).run.run s =
      (.ok (), (s.told journal missing warnings).withFallback index channel) := by
  obtain ⟨journal, missing, warnings, hwarn⟩ :=
    run_forM_warnAbsent s (s.absent (s.network.texturePaths exit))
  refine ⟨journal, missing, warnings, ?_⟩
  unfold copyChannel
  rw [run_get_bind]
  dsimp only
  rw [if_neg h, run_bind, hwarn]
  rfl

theorem grows_copyChannel (policy : RetryPolicy α) (directory : String) (index : Nat)
    (channel : String) (exit : NodeId) :
    Grows (copyChannel policy (.text directory) index channel exit) := by
  intro s
  by_cases h : (s.absent (s.network.texturePaths exit)).isEmpty = true
  · rw [run_copyChannel_of_present policy directory index channel h]
    exact grows_copyNodes policy directory _ s
  · obtain ⟨_, _, _, hrun⟩ := run_copyChannel_of_absent policy (.text directory) index channel h
    rw [hrun]
    exact List.prefix_rfl

/-- One channel is done, and no other one has another exit. -/
theorem achieves_copyChannel (policy : RetryPolicy α) (directory : String) {job : Job}
    (h : Copying start s) (hsize : job.exit < start.network.size)
    (hexit : s.exit? job.index job.channel = some job.exit) :
    Achieves (Refused directory) start s
      (copyChannel policy (.text directory) job.index job.channel job.exit)
      fun _ later => Copying start later ∧ Evolves start s later ∧ job.Done start later ∧
        ∀ index channel, (index, channel) ≠ job.key →
          later.exit? index channel = s.exit? index channel := by
  by_cases hpresent : (s.absent (s.network.texturePaths job.exit)).isEmpty = true
  · refine .congr ?_ (run_copyChannel_of_present policy directory job.index job.channel hpresent)
    refine (achieves_copyNodes policy directory h (h.due hsize hpresent)).mono ?_
    rintro - later ⟨hlater, hevolves, hmaterials, hsettled⟩
    have hexits (index : Nat) (channel : String) :
        later.exit? index channel = s.exit? index channel := by rw [exit?, exit?, hmaterials]
    refine ⟨hlater, hevolves, .inl ⟨(hexits _ _).trans hexit, ?_⟩, fun _ _ _ => hexits _ _⟩
    rintro ⟨id, original⟩ he
    obtain ⟨hbelow, hstart, hpath⟩ := Network.mem_texturePaths_iff.mp he
    obtain ⟨current, hcurrent, hsame⟩ := h.paths hstart
    by_cases hempty : current = ""
    · -- A copy without a name is not looked at again.
      have hmem := hsame.resolve_left fun heq => hpath (heq ▸ hempty)
      refine hevolves.settled hstart ⟨.inl (List.mem_map.mpr ⟨_, hmem, rfl⟩), ?_⟩
      rw [h.get?_of_mem hmem, hcurrent, Option.getD_some]
    · exact hsettled (id, current) (Network.mem_texturePaths_iff.mpr
        ⟨(h.below_iff hsize).mpr hbelow, hcurrent, hempty⟩) original hstart
  · obtain ⟨journal, missing, warnings, hrun⟩ :=
      run_copyChannel_of_absent policy (.text directory) job.index job.channel hpresent
    obtain ⟨told, htold, hevolves, hexits, hrun⟩ : ∃ told, Copying start told ∧
        Evolves start s told ∧ (∀ index channel, told.exit? index channel = s.exit? index channel) ∧
        (copyChannel policy (.text directory) job.index job.channel job.exit).run.run s =
          (.ok (), told.withFallback job.index job.channel) :=
      ⟨_, h.told journal missing warnings, evolves_told start s journal missing warnings,
        fun _ _ => rfl, hrun⟩
    have hexit' := (hexits job.index job.channel).trans hexit
    refine .of_run hrun ⟨htold.withFallback _ _, hevolves.trans (evolves_withFallback htold _ _),
      .inr ⟨replaced_withFallback htold hexit', h.misses hsize hpresent⟩, ?_⟩
    intro index channel hother
    rw [exit?_withFallback _ _ _ _ _ hexit']
    exact (if_neg hother).trans (hexits index channel)

end ShadeGraph.TextureCopies
