import Mathlib.Data.List.Sigma
import ShadeGraph.Proofs.Exchange.CopiedChannels

/-!
# Materials whose textures are copied

One channel is done after the other. A channel is replaced where a file is missing, and its nodes read
the copies of their files otherwise. Only where a copy of another file went before is a file not missed,
and what is copied from there, if anything, is no longer that file.
-/

namespace ShadeGraph.TextureCopies

variable {α : Type} {start s later : TextureCopies α}

/-! ### All channels -/

/-- The channels of materials at these indices. -/
def jobs (materials : List (Material × Nat)) : List Job :=
  materials.flatMap fun (m, index) => m.channels.map fun (channel, exit) => ⟨index, channel, exit⟩

theorem jobs_cons (m : Material × Nat) (materials : List (Material × Nat)) :
    jobs (m :: materials) =
      m.1.channels.map (fun e => ⟨m.2, e.1, e.2⟩) ++ jobs materials := rfl

theorem mem_jobs_iff (hchannels : ∀ m ∈ start.materials, m.channels.keys.Nodup) {job : Job} :
    job ∈ jobs start.materials.zipIdx ↔
      start.exit? job.index job.channel = some job.exit := by
  simp only [jobs, List.mem_flatMap, List.mem_map, Prod.exists, List.mem_zipIdx_iff_getElem?,
    exit?, Option.bind_eq_some_iff]
  constructor
  · rintro ⟨m, index, hm, channel, exit, hmem, rfl⟩
    exact ⟨m, hm, Table.get?_eq_some_of_mem (hchannels m (List.mem_of_getElem? hm)) hmem⟩
  · rintro ⟨m, hm, hexit⟩
    exact ⟨m, job.index, hm, job.channel, job.exit, Table.mem_of_get?_eq_some hexit, rfl⟩

theorem nodup_map_key_jobs (hchannels : ∀ m ∈ start.materials, m.channels.keys.Nodup) :
    ((jobs start.materials.zipIdx).map Job.key).Nodup := by
  have hkeys : (jobs start.materials.zipIdx).map Job.key =
      start.materials.zipIdx.flatMap fun m => m.1.channels.keys.map fun name => (m.2, name) := by
    simp only [jobs, List.map_flatMap, Table.keys, List.map_map]
    rfl
  rw [hkeys, List.nodup_flatMap]
  constructor
  · intro m hm
    refine (hchannels m.1 ?_).map fun _ _ hname => (Prod.mk.inj hname).2
    exact List.mem_of_getElem? (List.mem_zipIdx_iff_getElem?.mp hm)
  · have hindices := List.pairwise_map.mp (List.nodup_zipIdx_map_snd start.materials)
    refine hindices.imp fun hne => ?_
    simp only [Function.onFun, List.disjoint_left, List.mem_map, not_exists, not_and]
    rintro _ ⟨_, _, rfl⟩ name _ heq
    exact hne (Prod.mk.inj heq).1.symm

variable [Scalar α]

/-- The state while some channels are still to do. -/
structure Touring (start : TextureCopies α) (todo : List Job) (s : TextureCopies α) : Prop where
  copying : Copying start s
  distinct : (todo.map Job.key).Nodup
  ahead : ∀ job ∈ todo, job.exit < start.network.size ∧
    s.exit? job.index job.channel = some job.exit
  done : ∀ job ∈ jobs start.materials.zipIdx,
    job ∈ todo ∨ job.key ∉ todo.map Job.key ∧ job.Done start s

theorem Touring.step {job : Job} {todo : List Job} (h : Touring start (job :: todo) s)
    (hcopying : Copying start later) (hevolves : Evolves start s later)
    (hdone : job.Done start later)
    (hexits : ∀ index channel, (index, channel) ≠ job.key →
      later.exit? index channel = s.exit? index channel) : Touring start todo later := by
  obtain ⟨hnew, hdistinct⟩ := List.nodup_cons.mp h.distinct
  refine ⟨hcopying, hdistinct, fun other hother => ?_, fun other hother => ?_⟩
  · obtain ⟨hsize, hexit⟩ := h.ahead other (List.mem_cons_of_mem _ hother)
    refine ⟨hsize, (hexits _ _ fun hkey => hnew ?_).trans hexit⟩
    exact List.mem_map.mpr ⟨other, hother, hkey⟩
  · rcases h.done other hother with hmem | ⟨hkey, hold⟩
    · rcases List.mem_cons.mp hmem with rfl | hmem
      · exact .inr ⟨hnew, hdone⟩
      · exact .inl hmem
    · rw [List.map_cons, List.mem_cons, not_or] at hkey
      exact .inr ⟨hkey.2, hold.evolves hevolves (hexits _ _ hkey.1)⟩

theorem touring_start (hcopied : start.copied = [])
    (hchannels : ∀ m ∈ start.materials, m.channels.keys.Nodup)
    (hexits : ∀ m ∈ start.materials, ∀ e ∈ m.channels, e.2 < start.network.size) :
    Touring start (jobs start.materials.zipIdx) start := by
  refine ⟨.initial hcopied, nodup_map_key_jobs hchannels, fun job hjob => ?_, fun _ => .inl⟩
  have hexit := (mem_jobs_iff hchannels).mp hjob
  refine ⟨?_, hexit⟩
  obtain ⟨m, hm, hget⟩ := Option.bind_eq_some_iff.mp hexit
  exact hexits m (List.mem_of_getElem? hm) _ (Table.mem_of_get?_eq_some hget)

/-- The channels of a material, one after the other. -/
def copyMaterial (policy : RetryPolicy α) (directory : String) (m : Material × Nat) :
    Step α Unit :=
  m.1.channels.forM fun e => copyChannel policy (.text directory) m.2 e.1 e.2

theorem grows_copyMaterial (policy : RetryPolicy α) (directory : String) (m : Material × Nat) :
    Grows (copyMaterial policy directory m) := by
  apply grows_forM
  exact fun e => grows_copyChannel policy directory m.2 e.1 e.2

theorem achieves_copyMaterial (policy : RetryPolicy α) (directory : String) (m : Material × Nat)
    {materials : List (Material × Nat)} (h : Touring start (jobs (m :: materials)) s) :
    Achieves (Refused directory) start s (copyMaterial policy directory m) fun _ =>
      Touring start (jobs materials) := by
  rw [jobs_cons] at h
  refine Achieves.forM (I := fun channels : Table String NodeId =>
    Touring start (channels.map (fun e => ⟨m.2, e.1, e.2⟩) ++ jobs materials)) ?_ ?_ _ h
  · exact fun e => grows_copyChannel policy directory m.2 e.1 e.2
  · intro e channels s hs
    obtain ⟨hsize, hexit⟩ := hs.ahead ⟨m.2, e.1, e.2⟩ List.mem_cons_self
    refine (achieves_copyChannel policy directory hs.copying hsize hexit).mono ?_
    rintro - later ⟨hlater, hevolves, hdone, hexits⟩
    exact hs.step hlater hevolves hdone hexits

theorem achieves_copyAll (policy : RetryPolicy α) (directory : String)
    (h : Touring start (jobs start.materials.zipIdx) start) :
    Achieves (Refused directory) start start (copyAll policy (.text directory)) fun _ =>
      Touring start [] := by
  have hrun : (copyAll policy (.text directory)).run.run start =
      (start.materials.zipIdx.forM (copyMaterial policy directory)).run.run start := rfl
  refine .congr ?_ hrun
  refine Achieves.forM (I := fun materials => Touring start (jobs materials)) ?_ ?_ _ h
  · exact grows_copyMaterial policy directory
  · exact fun m materials s => achieves_copyMaterial policy directory m

/-! ### What has become of the channels -/

/-- What has become of a channel when all are done. A copy of another file that went to where a path
leads is in the way of its own file. -/
structure Job.Outcome (start final : TextureCopies α) (job : Job) : Prop where
  misses : job.Replaced start final → job.Misses start
  /-- No file was there at the start, even with the directories that were made since. -/
  replaced : (∃ e ∈ start.network.texturePaths job.exit,
    { start.bench.disk with made := final.bench.disk.made }.isFile e.2 = false ∧
      ¬ final.Overwritten e.2) → job.Replaced start final
  kept : ¬ job.Replaced start final → final.exit? job.index job.channel = some job.exit
  shown : ¬ job.Replaced start final → ∀ e ∈ start.network.texturePaths job.exit,
    final.network.pathAt? e.1 = some ((final.copied.get? e.2).getD e.2)
  reads : ¬ job.Replaced start final → ∀ e ∈ start.network.texturePaths job.exit,
    final.ReadsCopy e.1 e.2 ↔ ¬ final.Overwritten e.2
  /-- A path that another file was copied to by this very name is not copied. -/
  stays : ¬ job.Replaced start final → ∀ e ∈ start.network.texturePaths job.exit,
    ∀ source, source ≠ e.2 → (source, e.2) ∈ final.copied → e.2 ∉ final.copied.keys

theorem Copying.outcome {final : TextureCopies α} (h : Copying start final) {job : Job}
    (hsize : job.exit < start.network.size) (hdone : job.Done start final) :
    job.Outcome start final := by
  rcases hdone with ⟨hexit, hsettled⟩ | ⟨hreplaced, hmisses⟩
  · have hold : ¬ job.Replaced start final := by
      rintro ⟨exit, hnew, hlater, _⟩
      obtain rfl : job.exit = exit := Option.some.inj (hexit.symm.trans hnew)
      exact absurd hsize hlater.not_gt
    refine ⟨fun hnew => absurd hnew hold, ?_, fun _ => hexit, fun _ e he => (hsettled e he).2,
      fun _ e he => h.readsCopy_iff (hsettled e he), fun _ e he source hne => h.notMem_keys hne⟩
    rintro ⟨e, he, hfile, hfree⟩
    have hthere := h.isFile_of_readsCopy (h.readsCopy (hsettled e he) hfree)
    exact absurd hthere (Bool.eq_false_iff.mp hfile)
  · exact ⟨fun _ => hmisses, fun _ => hreplaced, (absurd hreplaced ·), (absurd hreplaced ·),
      (absurd hreplaced ·), (absurd hreplaced ·)⟩

/-- Copying at the first try ends well, unless the file system refuses it. When it does, each copy is
made once, and every channel ends as told. -/
theorem copyAll_channels (policy : RetryPolicy α) (directory : String)
    {start : TextureCopies α} (hcopied : start.copied = [])
    (hchannels : ∀ m ∈ start.materials, m.channels.keys.Nodup)
    (hexits : ∀ m ∈ start.materials, ∀ e ∈ m.channels, e.2 < start.network.size) :
    ((∀ path, start.bench.disk.waiting path = []) →
      (∃ final, (copyAll policy (.text directory)).run.run start = (.ok (), final)) ∨
      ∃ e final, (copyAll policy (.text directory)).run.run start = (.error e, final) ∧
        Refused directory e final) ∧
    ∀ final, (copyAll policy (.text directory)).run.run start = (.ok (), final) →
      AtOnce start final →
      final.bench.disk.copies = start.bench.disk.copies ++ final.copied ∧
      final.targets.Nodup ∧
      ∀ job : Job, start.exit? job.index job.channel = some job.exit →
        job.Outcome start final := by
  have htour := touring_start hcopied hchannels hexits
  have hrun := achieves_copyAll policy directory htour
  refine ⟨fun hwaiting => ?_, fun final hfinal honce => ?_⟩
  · cases hresult : (copyAll policy (.text directory)).run.run start with
    | mk result final =>
      cases result with
      | ok _ => exact .inl ⟨final, rfl⟩
      | error e =>
        refine .inr ⟨e, final, rfl, (hrun.error hresult).resolve_left ?_⟩
        rintro ⟨path, hpath⟩
        exact hpath (hwaiting path)
  · have hend := hrun.ok hfinal honce
    refine ⟨hend.copying.disk.copies, hend.copying.distinct, fun job hexit => ?_⟩
    have hmem := (mem_jobs_iff hchannels).mpr hexit
    have hdone := (hend.done job hmem).resolve_left List.not_mem_nil
    exact hend.copying.outcome (htour.ahead job hmem).1 hdone.2

def lookupOf (path : String) : TextureLookup Float :=
  { textureName := "a", texturePath := path, tileU := 1.0, tileV := 1.0, offsetU := 0.0,
    offsetV := 0.0 }

/-- Two channels read files of one name. The second file is not there, and it is where the first one
is copied to. -/
def crossed : TextureCopies Float where
  bench := { disk := { files := ["/src/a.png"], tree := { FileTree.flat with guarded := true } } }
  network := ((∅ : Network Float).insert
    { operation := .texture (lookupOf "/src/a.png"), inputs := [] }).insert
    { operation := .texture (lookupOf "/out/a.png"), inputs := [] }
  materials := [
    { name := "a", channels := [("base_color", 0), ("refl_color", 1)],
      identity := { handle := 1, materialId := "m", name := .ofString "a" } }]

theorem copyAll_channels_crossed :
    crossed.copied = [] ∧ (∀ m ∈ crossed.materials, m.channels.keys.Nodup) ∧
    (∀ m ∈ crossed.materials, ∀ e ∈ m.channels, e.2 < crossed.network.size) ∧
    (∀ path, crossed.bench.disk.waiting path = []) ∧
    ∃ final, (copyAll .standard (.text "/out")).run.run crossed = (.ok (), final) ∧
      AtOnce crossed final ∧ crossed.bench.disk.isFile "/out/a.png" = false ∧
      ¬ Job.Replaced crossed final ⟨0, "refl_color", 1⟩ ∧
      final.network.pathAt? 1 = some "/out/a.png" ∧ "/out/a.png" ∉ final.copied.keys ∧
      ¬ final.ReadsCopy 1 "/out/a.png" := by
  have hchannels : ∀ m ∈ crossed.materials, m.channels.keys.Nodup := by decide
  have hexits : ∀ m ∈ crossed.materials, ∀ e ∈ m.channels, e.2 < crossed.network.size := by
    decide
  have hwaiting : ∀ path, crossed.bench.disk.waiting path = [] := fun _ => rfl
  obtain ⟨hends, houtcome⟩ := copyAll_channels .standard "/out" rfl hchannels hexits
  obtain ⟨final, hrun⟩ :
      ∃ final, (copyAll .standard (.text "/out")).run.run crossed = (.ok (), final) := by
    refine (hends hwaiting).resolve_right ?_
    rintro ⟨e, final, hrun, _⟩
    have hok : ((copyAll .standard (.text "/out")).run.run crossed).1.isOk = true := by
      decide +kernel
    rw [hrun] at hok
    cases hok
  have hfinal : final = ((copyAll .standard (.text "/out")).run.run crossed).2 :=
    (congrArg Prod.snd hrun).symm
  have honce : AtOnce crossed final := fun e _ => hwaiting e.1
  have hcopied : final.copied = [("/src/a.png", "/out/a.png")] := by
    rw [hfinal]
    decide +kernel
  have hexit : final.exit? 0 "refl_color" = some 1 := by
    rw [hfinal]
    decide +kernel
  have hkept : ¬ Job.Replaced crossed final ⟨0, "refl_color", 1⟩ := by
    rintro ⟨exit, hnew, hsize, _⟩
    obtain rfl : 1 = exit := Option.some.inj (hexit.symm.trans hnew)
    exact absurd hsize (by decide)
  have hover : final.Overwritten "/out/a.png" :=
    ⟨[], [], "/src/a.png", "/out/a.png", hcopied, by decide, rfl, List.not_mem_nil⟩
  have hnode : (1, "/out/a.png") ∈ crossed.network.texturePaths 1 := by decide +kernel
  have hjob := (houtcome final hrun honce).2.2 ⟨0, "refl_color", 1⟩ rfl
  have hnever : "/out/a.png" ∉ final.copied.keys :=
    hjob.stays hkept _ hnode "/src/a.png" (by decide) (hcopied ▸ List.mem_singleton_self _)
  have hpath := hjob.shown hkept _ hnode
  rw [Table.get?_eq_none_iff_notMem.mpr hnever, Option.getD_none] at hpath
  have hreads : ¬ final.ReadsCopy 1 "/out/a.png" :=
    (hjob.reads hkept _ hnode).not.mpr (not_not_intro hover)
  exact ⟨rfl, hchannels, hexits, hwaiting, final, hrun, honce, by decide, hkept, hpath, hnever,
    hreads⟩

end ShadeGraph.TextureCopies
