import ShadeGraph.Proofs.Exchange.CopiedMaterials

/-!
# Where copies go

Whatever fails on the way, a copy is made at most once for each file, under a name that no copy
before it has, whatever their case, and in the directory that was given. The copies that were made
are those in the log.
-/

namespace ShadeGraph

/-! ### Names in a directory -/

/-- A numbered form of a name for a file is a name for a file. -/
theorem numberedFile_notMem {name : String} (h : name ∉ ["", ".", ".."]) (n : Nat) :
    numberedFile name n ∉ ["", ".", ".."] := by
  by_cases hn : n = 0
  · rwa [hn, numberedFile_zero]
  · have hmark : '_' ∈ (numberedFile name n).toList := by
      rw [toList_numberedFile name hn]
      simp
    intro hmem
    simp only [List.mem_cons, List.not_mem_nil, or_false] at hmem
    rcases hmem with hname | hname | hname <;> exact absurd (hname ▸ hmark) (by decide)

namespace Text

/-- The path is that of a file in the directory itself. -/
def LiesIn (directory path : String) : Prop :=
  ∃ name, path = joinPath directory name ∧ '/' ∉ name.toList ∧ name ∉ ["", ".", ".."]

theorem LiesIn.fileName_notMem {directory path : String} (h : LiesIn directory path) :
    fileName path ∉ ["", ".", ".."] := by
  obtain ⟨name, rfl, hslash, hname⟩ := h
  rwa [fileName_joinPath hslash]

end Text

/-! ### A copy that is made -/

namespace Disk

variable {disk later : Disk} {source target : String}

/-- No file is where a path with the name of a directory leads to. -/
def HasNames (disk : Disk) : Prop :=
  ∀ path, disk.tree.place path ∈ disk.files → Text.fileName path ∉ ["", ".", ".."]

theorem copy?_of_attempt (h : disk.attempt source target = (none, later)) :
    disk.copy? source target = .ok later := by
  unfold attempt at h
  split at h
  · cases h
  · split at h <;> cases h
    assumption

/-- A failure leaves all but the failures as it is. -/
theorem exists_failures_of_attempt {e : FileError}
    (h : disk.attempt source target = (some e, later)) :
    ∃ failures, later = { disk with failures } := by
  unfold attempt at h
  split at h
  · cases h
    exact ⟨_, rfl⟩
  · split at h <;> cases h
    exact ⟨disk.failures, rfl⟩

end Disk

namespace Workbench

variable {α : Type} [Scalar α] {policy : RetryPolicy α} {source target : String}

/-- A run of attempts that ends well copies the file once, whatever failures are left. -/
theorem Tries.exists_copy? {n : ℕ} {d : α} {w later : Workbench α} {events : List (CopyEvent α)}
    {result : Except CopyError Unit} (h : Tries policy source target n d w events result later)
    (hok : result = .ok ()) :
    ∃ failures, { w.disk with failures }.copy? source target = .ok later.disk := by
  induction h with
  | @copied _ _ w _ hattempt => exact ⟨w.disk.failures, Disk.copy?_of_attempt hattempt⟩
  | again hattempt _ _ _ _ ih =>
    obtain ⟨failures, hcopy⟩ := ih hok
    obtain ⟨_, rfl⟩ := Disk.exists_failures_of_attempt hattempt
    rw [disk_delayed] at hcopy
    exact ⟨failures, hcopy⟩
  | _ => cases hok

theorem gained_of_copy {bench later : Workbench α}
    (h : (copy policy source target).run bench = (.ok (), later)) :
    bench.disk.Gained later.disk source target := by
  cases hprepare : bench.disk.prepare? target with
  | error e => cases (run_copy_of_refused policy hprepare).symm.trans h
  | ok ready =>
    obtain ⟨events, result, later', hrun, htries⟩ := exists_tries policy source hprepare
    cases hrun.symm.trans h
    obtain ⟨failures, hcopy⟩ := htries.exists_copy? rfl
    exact (Disk.prepared_of_prepare? hprepare).gained hcopy

end Workbench

namespace TextureCopies

variable {α β γ ι : Type} {directory : String} {bench : Workbench α} {s later : TextureCopies α}

/-! ### Copies under names of their own -/

/-- The name of a copy in lower case. -/
def lowerName (e : String × String) : String := Text.lower (Text.fileName e.2)

/-- Copies of different files into a directory, each under the first free form of the file's name. -/
inductive Placed (directory : String) : Table String String → Prop
  | none : Placed directory []
  | copy {copied : Table String String} {path : String} : Placed directory copied →
    path ∉ copied.keys →
    Placed directory (copied ++ [(path, Text.joinPath directory
      (freeName (copied.map lowerName).reverse (Text.fileName path)))])

namespace Placed

variable {copied : Table String String}

theorem nodup_keys (h : Placed directory copied) : copied.keys.Nodup := by
  induction h with
  | none => exact List.nodup_nil
  | copy _ hnew ih =>
    rw [Table.keys_append]
    exact ih.append (List.nodup_singleton _) (List.disjoint_singleton.mpr hnew)

theorem nodup_lowerName (h : Placed directory copied) : (copied.map lowerName).Nodup := by
  induction h with
  | none => exact List.nodup_nil
  | copy _ _ ih =>
    rw [List.map_append]
    refine ih.append (List.nodup_singleton _) (List.disjoint_singleton.mpr ?_)
    rw [lowerName, fileName_joinPath_freeName]
    intro hmem
    exact (freeName_spec _ _).1 (List.mem_reverse.mpr hmem)

/-- A copy has a numbered form of the name of its file. -/
theorem exists_number (h : Placed directory copied) {e : String × String} (he : e ∈ copied) :
    ∃ n, e.2 = Text.joinPath directory (numberedFile (Text.fileName e.1) n) := by
  induction h with
  | none => exact absurd he List.not_mem_nil
  | copy _ _ ih =>
    rcases List.mem_append.mp he with hold | hnew
    · exact ih hold
    · obtain rfl := List.mem_singleton.mp hnew
      obtain ⟨n, hn⟩ := (freeName_spec _ _).2
      exact ⟨n, congrArg (Text.joinPath directory) hn⟩

theorem liesIn (h : Placed directory copied) {e : String × String} (he : e ∈ copied)
    (hname : Text.fileName e.1 ∉ ["", ".", ".."]) : Text.LiesIn directory e.2 := by
  obtain ⟨n, hn⟩ := h.exists_number he
  exact ⟨_, hn, slash_notMem_numberedFile (Text.slash_notMem_fileName e.1) n,
    numberedFile_notMem hname n⟩

end Placed

/-! ### What every step keeps -/

/-- The state of copying into a directory from this bench on, whatever failed so far. -/
structure Placing (directory : String) (bench : Workbench α) (s : TextureCopies α) : Prop where
  placed : Placed directory s.copied
  used : s.used = (s.copied.map lowerName).reverse
  named : bench.disk.HasNames → ∀ e ∈ s.copied, Text.fileName e.1 ∉ ["", ".", ".."]
  disk : bench.disk.Copied s.bench.disk s.copied

namespace Placing

theorem initial (directory : String) (bench : Workbench α) (network : Network α)
    (materials : List Material) : Placing directory bench { bench, network, materials } where
  placed := .none
  used := rfl
  named := fun _ _ he => absurd he List.not_mem_nil
  disk := .none _

/-- A file that is there has no name of a directory, be it a copy or not. -/
theorem fileName_notMem (h : Placing directory bench s) (hnames : bench.disk.HasNames)
    {path : String} (hfile : s.bench.disk.tree.place path ∈ s.bench.disk.files) :
    Text.fileName path ∉ ["", ".", ".."] := by
  rw [h.disk.tree, h.disk.files] at hfile
  rcases hfile with hfile | ⟨e, he, hplace⟩
  · exact hnames path hfile
  · have hcopy := (h.placed.liesIn he (h.named hnames e he)).fileName_notMem
    exact fun hdirectory => hcopy (bench.disk.tree.named hplace.symm hdirectory)

theorem withCopy {path target : String} {bench' : Workbench α} (h : Placing directory bench s)
    (hnew : ¬ s.Known path)
    (htarget : target = Text.joinPath directory (freeName s.used (Text.fileName path)))
    (hgained : s.bench.disk.Gained bench'.disk path target) :
    Placing directory bench
      (s.withCopy path (freeName s.used (Text.fileName path)) target bench') := by
  have hname : lowerName (path, target) = Text.lower (freeName s.used (Text.fileName path)) := by
    rw [lowerName, htarget, fileName_joinPath_freeName]
  constructor
  case placed =>
    have hplaced := h.placed.copy fun hmem => hnew (.inl hmem)
    rwa [← h.used, ← htarget] at hplaced
  case used =>
    rw [TextureCopies.withCopy, List.map_append, List.reverse_append, ← h.used, List.map_singleton,
      hname]
    rfl
  case named =>
    intro hnames e he
    rcases List.mem_append.mp he with hold | hlast
    · exact h.named hnames e hold
    · obtain rfl := List.mem_singleton.mp hlast
      exact h.fileName_notMem hnames hgained.existed
  case disk => exact h.disk.copy hgained

end Placing

/-- What holds before the step holds behind it, if the step succeeds. -/
def Maintains (I : TextureCopies α → Prop) (p : Step α β) : Prop :=
  ∀ ⦃s b later⦄, I s → p.run.run s = (.ok b, later) → I later

section

variable {I : TextureCopies α → Prop}

theorem Maintains.bind {p : Step α β} {f : β → Step α γ} (hp : Maintains I p)
    (hf : ∀ b, Maintains I (f b)) : Maintains I (p >>= f) := by
  intro s c later hs hrun
  rw [run_bind] at hrun
  cases hfirst : p.run.run s with
  | mk result middle =>
    rw [hfirst] at hrun
    cases result with
    | ok b => exact hf b (hp hs hfirst) hrun
    | error e => cases hrun

theorem maintains_forM {f : ι → Step α PUnit} (h : ∀ x, Maintains I (f x)) (xs : List ι) :
    Maintains I (xs.forM f) := by
  induction xs with
  | nil =>
    intro s b later hs hrun
    cases hrun
    exact hs
  | cons x xs ih => exact (h x).bind fun _ => ih

end

variable [Scalar α]

theorem maintains_copyFile (policy : RetryPolicy α) (directory : String) (bench : Workbench α)
    (path : String) :
    Maintains (Placing directory bench) (copyFile policy (.text directory) path) := by
  intro s b later hs hrun
  by_cases hknown : s.Known path
  · rw [run_copyFile_known policy _ hknown] at hrun
    cases hrun
    exact hs
  · rw [run_copyFile_new policy directory hknown rfl rfl] at hrun
    split at hrun
    next bench' hcopy =>
      cases hrun
      exact hs.withCopy hknown rfl (Workbench.gained_of_copy hcopy)
    next => cases hrun

theorem maintains_copyNode (policy : RetryPolicy α) (directory : String) (bench : Workbench α)
    (id : NodeId) (path : String) :
    Maintains (Placing directory bench) (copyNode policy directory id path) := by
  refine (maintains_copyFile policy directory bench path).bind fun _ => ?_
  intro s b later hs hrun
  cases hrun
  exact { hs with }

theorem maintains_copyNodes (policy : RetryPolicy α) (directory : String) (bench : Workbench α)
    (textures : List (NodeId × String)) :
    Maintains (Placing directory bench)
      (textures.forM fun e => copyNode policy directory e.1 e.2) := by
  apply maintains_forM
  exact fun e => maintains_copyNode policy directory bench e.1 e.2

theorem maintains_copyChannel (policy : RetryPolicy α) (directory : String) (bench : Workbench α)
    (index : Nat) (channel : String) (exit : NodeId) :
    Maintains (Placing directory bench)
      (copyChannel policy (.text directory) index channel exit) := by
  intro s b later hs hrun
  by_cases hpresent : (s.absent (s.network.texturePaths exit)).isEmpty = true
  · rw [run_copyChannel_of_present policy directory index channel hpresent] at hrun
    exact maintains_copyNodes policy directory bench _ hs hrun
  · obtain ⟨journal, missing, warnings, habsent⟩ :=
      run_copyChannel_of_absent policy (.text directory) index channel hpresent
    rw [habsent] at hrun
    cases hrun
    exact { hs with }

theorem maintains_copyMaterial (policy : RetryPolicy α) (directory : String)
    (bench : Workbench α) (m : Material × Nat) :
    Maintains (Placing directory bench) (copyMaterial policy directory m) := by
  apply maintains_forM
  exact fun e => maintains_copyChannel policy directory bench m.2 e.1 e.2

theorem maintains_copyAll (policy : RetryPolicy α) (directory : String) (bench : Workbench α) :
    Maintains (Placing directory bench) (copyAll policy (.text directory)) := by
  intro s b later hs hrun
  have hmaterials : (s.materials.zipIdx.forM (copyMaterial policy directory)).run.run s =
      (.ok b, later) := hrun
  exact maintains_forM (maintains_copyMaterial policy directory bench) _ hs hmaterials

/-- However many copies fail before, where copying ends well the copies on the disk are those in the
log, one for each of their files, under names that differ without their case. Each copy has the
first form of the file's name that no copy before it has; numbering always comes to such a form. -/
theorem copyAll_placed (policy : RetryPolicy α) (directory : String) (bench : Workbench α)
    (network : Network α) (materials : List Material) {final : TextureCopies α}
    (hrun : (copyAll policy (.text directory)).run.run { bench, network, materials } =
      (.ok (), final)) :
    final.bench.disk.copies = bench.disk.copies ++ final.copied ∧
    final.copied.keys.Nodup ∧
    (final.targets.map fun target => Text.lower (Text.fileName target)).Nodup ∧
    Placed directory final.copied ∧
    (bench.disk.HasNames → ∀ e ∈ final.copied, Text.LiesIn directory e.2) ∧
    ∀ used name, ∃ n ≤ used.length, freeName used name = numberedFile name n ∧
      IsLeast {k | Text.lower (numberedFile name k) ∉ used} n := by
  have hfinal : Placing directory bench final :=
    maintains_copyAll policy directory bench (.initial directory bench network materials) hrun
  refine ⟨hfinal.disk.copies, hfinal.placed.nodup_keys, ?_, hfinal.placed, fun hnames e he => ?_,
    exists_isLeast_freeName⟩
  · rw [targets, List.map_map]
    exact hfinal.placed.nodup_lowerName
  · exact hfinal.placed.liesIn he (hfinal.named hnames e he)

/-- Two files have one name but for its case, and one of them is in use at first. -/
theorem copyAll_placed_sameName :
    let bench : Workbench Float := { disk := {
      files := ["/src/a.png", "/old/A.PNG"], failures := [("/src/a.png", [.busy])] } }
    let network : Network Float := ((∅ : Network Float).insert
      { operation := .texture (lookupOf "/src/a.png"), inputs := [] }).insert
      { operation := .texture (lookupOf "/old/A.PNG"), inputs := [] }
    let material : Material :=
      { name := "a", channels := [("base_color", 0), ("refl_color", 1)],
        identity := { handle := 1, materialId := "m", name := .ofString "a" } }
    bench.disk.HasNames ∧ ∃ final,
      (copyAll .standard (.text "/out")).run.run { bench, network, materials := [material] } =
        (.ok (), final) ∧
      final.copied = [("/src/a.png", "/out/a.png"), ("/old/A.PNG", "/out/A_1.PNG")] ∧
      final.bench.disk.copies = final.copied ∧
      ∀ e ∈ final.copied, Text.LiesIn "/out" e.2 := by
  intro bench network material
  have hnames : bench.disk.HasNames := by
    intro path hpath
    obtain rfl | rfl : path = "/src/a.png" ∨ path = "/old/A.PNG" := by
      simpa [bench, FileTree.flat] using hpath
    · decide +kernel
    · decide +kernel
  let start : TextureCopies Float := { bench, network, materials := [material] }
  have hok : ((copyAll .standard (.text "/out")).run.run start).1 = .ok () := by decide +kernel
  obtain ⟨final, hfinal⟩ : ∃ final, ((copyAll .standard (.text "/out")).run.run start).2 = final :=
    ⟨_, rfl⟩
  have hrun : (copyAll .standard (.text "/out")).run.run start = (.ok (), final) :=
    Prod.ext hok hfinal
  have hcopied : final.copied = [("/src/a.png", "/out/a.png"), ("/old/A.PNG", "/out/A_1.PNG")] := by
    rw [← hfinal]
    decide +kernel
  obtain ⟨hcopies, _, _, _, hplace, _⟩ :=
    copyAll_placed .standard "/out" bench network [material] hrun
  exact ⟨hnames, final, hrun, hcopied, hcopies, hplace hnames⟩

end TextureCopies

end ShadeGraph
