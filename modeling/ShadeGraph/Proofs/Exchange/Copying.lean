import ShadeGraph.Proofs.Exchange.Attempts
import ShadeGraph.Proofs.Exchange.CopyLog
import ShadeGraph.Proofs.Exchange.FileNames
import ShadeGraph.Proofs.Running

/-!
# Copying files and pointing to them

A file that no failure waits for is copied at once, unless its path is in the log already, and the
node that reads it is pointed to the copy. Only the file system can be in the way, by a directory that
cannot be made or a file that is to be copied onto itself. What holds when every file was copied at once
is told step by step; a file that was not shows in the log for good.
-/

namespace ShadeGraph

/-! ### One copy -/

/-- Why a copy that no failure waits for is not made. -/
inductive Disk.Refuses (disk : Disk) (source target : String) : CopyError → Prop
  | directory {e : FileError} :
    disk.tree.refuses? disk.files (Text.directoryName target) = some e →
    Refuses disk source target (.directory e)
  | sameFile :
    disk.tree.guarded = true → disk.isFile source = true →
    disk.tree.place source = disk.tree.place target →
    Refuses disk source target (.failed source target (.sameFile source target))

/-- A file that is there is refused only as a copy onto itself. -/
theorem Disk.eq_sameFile_of_refuses? {disk : Disk} {source target : String} {e : FileError}
    (hfile : disk.isFile source = true) (h : disk.refuses? source target = some e) :
    disk.tree.guarded = true ∧ disk.tree.place source = disk.tree.place target ∧
      e = .sameFile source target := by
  unfold Disk.refuses? at h
  rw [hfile, Bool.not_true, if_neg Bool.false_ne_true] at h
  split_ifs at h with hsame
  rw [Bool.and_eq_true, beq_iff_eq] at hsame
  exact ⟨hsame.1, hsame.2, (Option.some.inj h).symm⟩

namespace Workbench

variable {α : Type} [Scalar α] {bench : Workbench α} {source target : String}

/-- A file that is there and that no failure waits for is copied, unless the file system refuses. -/
theorem run_copy_cases (policy : RetryPolicy α) (hwaiting : bench.disk.waiting source = [])
    (hfile : bench.disk.isFile source = true) :
    (∃ later, (copy policy source target).run bench = (.ok (), later) ∧
      bench.disk.Gained later.disk source target ∧
      later.disk.failures = bench.disk.failures) ∨
    ∃ e later, (copy policy source target).run bench = (.error e, later) ∧
      later.disk.Refuses source target e := by
  cases hprepare : bench.disk.prepare? target with
  | error e =>
    have hrefuses := Disk.refuses?_of_prepare? hprepare
    exact .inr ⟨_, bench, run_copy_of_refused policy hprepare, .directory hrefuses⟩
  | ok ready =>
    have hready := Disk.prepared_of_prepare? hprepare
    rw [run_copy_of_ready policy hprepare, hready.waiting, hwaiting, copyAgainst, run_copyNow_eq]
    cases hcopy : ready.copy? source target with
    | ok later =>
      refine .inl ⟨_, rfl, hready.gained hcopy, ?_⟩
      obtain ⟨-, rfl⟩ := Disk.copy?_eq_ok_iff.mp hcopy
      exact hready.failures
    | error e =>
      obtain ⟨hguarded, hsame, rfl⟩ :=
        Disk.eq_sameFile_of_refuses? (hready.isFile hfile) (Disk.refuses?_of_copy? hcopy)
      exact .inr ⟨_, _, rfl, .sameFile hguarded (hready.isFile hfile) hsame⟩

end Workbench

namespace TextureCopies

variable {α β γ ι : Type} {start s later : TextureCopies α}

/-! ### Steps that copy at once -/

/-- No failure waited for a file that was copied. -/
def AtOnce (start s : TextureCopies α) : Prop :=
  ∀ e ∈ s.copied, start.bench.disk.waiting e.1 = []

theorem AtOnce.earlier (h : AtOnce start later) (hgrown : s.copied <+: later.copied) :
    AtOnce start s := fun e he => h e (hgrown.subset he)

/-- What was copied stays so, however the step ends. -/
def Grows (p : Step α β) : Prop := ∀ s, s.copied <+: (p.run.run s).2.copied

theorem grows_pure (b : β) : Grows (pure b : Step α β) := fun _ => List.prefix_rfl

theorem grows_modify {f : TextureCopies α → TextureCopies α} (h : ∀ s, s.copied <+: (f s).copied) :
    Grows (modify f : Step α PUnit) := h

theorem Grows.bind {p : Step α β} {f : β → Step α γ} (hp : Grows p) (hf : ∀ b, Grows (f b)) :
    Grows (p >>= f) := by
  intro s
  have hfirst := hp s
  rw [run_bind]
  cases hrun : p.run.run s with
  | mk result middle =>
    rw [hrun] at hfirst
    cases result with
    | ok b => exact hfirst.trans (hf b middle)
    | error e => exact hfirst

theorem grows_forM {f : ι → Step α PUnit} (h : ∀ x, Grows (f x)) (xs : List ι) :
    Grows (xs.forM f) := by
  induction xs with
  | nil => exact grows_pure _
  | cons x xs ih => exact (h x).bind fun _ => ih

/-- From this state the step ends as told if every file was copied at once. It fails only for such
reasons, or where a failure waits for some file. -/
structure Achieves (E : CopyError → TextureCopies α → Prop) (start s : TextureCopies α)
    (p : Step α β) (Q : β → TextureCopies α → Prop) : Prop where
  ok : ∀ {b later}, p.run.run s = (.ok b, later) → AtOnce start later → Q b later
  error : ∀ {e later}, p.run.run s = (.error e, later) →
    (∃ path, start.bench.disk.waiting path ≠ []) ∨ E e later

namespace Achieves

variable {E : CopyError → TextureCopies α → Prop} {p : Step α β}
  {Q Q' : β → TextureCopies α → Prop}

theorem of_run {b : β} (hrun : p.run.run s = (.ok b, later)) (h : Q b later) :
    Achieves E start s p Q := by
  constructor
  · intro b' later' hrun' _
    cases hrun.symm.trans hrun'
    exact h
  · intro e later' hrun'
    cases hrun.symm.trans hrun'

theorem congr {p' : Step α β} (h : Achieves E start s p' Q) (hrun : p.run.run s = p'.run.run s) :
    Achieves E start s p Q :=
  ⟨fun hok => h.ok (hrun.symm.trans hok), fun herror => h.error (hrun.symm.trans herror)⟩

theorem mono (h : Achieves E start s p Q) (hQ : ∀ b later, Q b later → Q' b later) :
    Achieves E start s p Q' :=
  ⟨fun hrun hlater => hQ _ _ (h.ok hrun hlater), h.error⟩

theorem bind {f : β → Step α γ} {R : γ → TextureCopies α → Prop} (hp : Achieves E start s p Q)
    (hgrows : ∀ b, Grows (f b)) (hf : ∀ b middle, Q b middle → Achieves E start middle (f b) R) :
    Achieves E start s (p >>= f) R := by
  constructor
  · intro c later hrun hlater
    rw [run_bind] at hrun
    cases hfirst : p.run.run s with
    | mk result middle =>
      rw [hfirst] at hrun
      cases result with
      | error e => cases hrun
      | ok b =>
        change (f b).run.run middle = (.ok c, later) at hrun
        have hgrown := hgrows b middle
        rw [hrun] at hgrown
        exact (hf b middle (hp.ok hfirst (hlater.earlier hgrown))).ok hrun hlater
  · intro e later hrun
    rw [run_bind] at hrun
    cases hfirst : p.run.run s with
    | mk result middle =>
      rw [hfirst] at hrun
      cases result with
      | error e =>
        cases hrun
        exact hp.error hfirst
      | ok b =>
        by_cases hmiddle : AtOnce start middle
        · exact (hf b middle (hp.ok hfirst hmiddle)).error hrun
        · unfold AtOnce at hmiddle
          push Not at hmiddle
          obtain ⟨e, _, hwaiting⟩ := hmiddle
          exact .inl ⟨e.1, hwaiting⟩

/-- A loop takes its invariant from all entries to none. -/
theorem forM {I : List ι → TextureCopies α → Prop} {f : ι → Step α PUnit}
    (hgrows : ∀ x, Grows (f x))
    (h : ∀ x xs s, I (x :: xs) s → Achieves E start s (f x) fun _ => I xs) (xs : List ι)
    (hs : I xs s) : Achieves E start s (xs.forM f) fun _ => I [] := by
  induction xs generalizing s with
  | nil => exact of_run rfl hs
  | cons x xs ih =>
    exact (h x xs s hs).bind (fun _ => grows_forM hgrows xs) fun _ middle hmiddle => ih hmiddle

end Achieves

/-! ### A file -/

theorem run_onBench (step : StateM (Workbench α) β) (s : TextureCopies α) :
    (onBench step).run.run s =
      (.ok (step.run s.bench).1, { s with bench := (step.run s.bench).2 }) := rfl

theorem isNew_iff {path : String} :
    (!s.copied.contains path && !(s.copied.map (·.2)).contains path) = true ↔ ¬ s.Known path := by
  rw [Bool.and_eq_true, Bool.not_eq_true', Bool.not_eq_true', Table.contains_eq_false_iff,
    ← Bool.not_eq_true, List.contains_iff_mem, Known, targets, not_or]

variable [Scalar α]

theorem run_copyFile_known (policy : RetryPolicy α) (directory : Value α) {path : String}
    (h : s.Known path) : (copyFile policy directory path).run.run s = (.ok (), s) := by
  unfold copyFile
  rw [run_get_bind, if_neg (isNew_iff.not.mpr (not_not_intro h))]
  rfl

theorem run_copyFile_new (policy : RetryPolicy α) (directory : String) {path name target : String}
    (h : ¬ s.Known path) (hname : freeName s.used (Text.fileName path) = name)
    (htarget : Text.joinPath directory name = target) :
    (copyFile policy (.text directory) path).run.run s =
      match (Workbench.copy policy path target).run s.bench with
      | (.ok (), bench) => (.ok (), s.withCopy path name target bench)
      | (.error e, bench) => (.error e, { s with used := Text.lower name :: s.used, bench }) := by
  have hdirectory : (MonadExcept.ofExcept (Value.path? (.text directory : Value α)) :
      Step α String) = pure directory := rfl
  unfold copyFile
  rw [run_get_bind, if_pos (isNew_iff.mpr h)]
  dsimp only
  rw [hdirectory, pure_bind, hname, htarget, run_set_bind, run_bind, run_onBench]
  dsimp only
  cases (Workbench.copy policy path target).run s.bench with
  | mk result bench =>
    cases result with
    | error e => rfl
    | ok _ =>
      have hnew : path ∉ s.copied.keys := fun hmem => h (.inl hmem)
      dsimp only [withCopy]
      rw [← Table.insert_of_notMem hnew]
      rfl

theorem grows_copyFile (policy : RetryPolicy α) (directory path : String) :
    Grows (copyFile policy (.text directory) path) := by
  intro s
  by_cases h : s.Known path
  · rw [run_copyFile_known policy _ h]
  · rw [run_copyFile_new policy directory h rfl rfl]
    split
    · exact List.prefix_append _ _
    · exact List.prefix_rfl

/-- The file system refuses the copy of some file into the directory. -/
def Refused (directory : String) (e : CopyError) (s : TextureCopies α) : Prop :=
  ∃ path n, s.bench.disk.Refuses path
    (Text.joinPath directory (numberedFile (Text.fileName path) n)) e

/-- A file that is there is known behind the step, and no node has changed. -/
theorem achieves_copyFile (policy : RetryPolicy α) (directory : String) {path : String}
    (h : Copying start s) (hfile : s.Known path ∨ s.bench.disk.isFile path = true) :
    Achieves (Refused directory) start s (copyFile policy (.text directory) path) fun _ later =>
      Copying start later ∧ Evolves start s later ∧ later.Known path ∧
        later.network = s.network ∧ later.materials = s.materials := by
  by_cases hknown : s.Known path
  · exact .of_run (run_copyFile_known policy _ hknown) ⟨h, .refl start s, hknown, rfl, rfl⟩
  obtain ⟨hfree, n, hname⟩ := freeName_spec s.used (Text.fileName path)
  have hrun := run_copyFile_new policy directory hknown rfl rfl
  have hmem {target : String} {bench : Workbench α} :
      path ∈ (s.withCopy path (freeName s.used (Text.fileName path)) target bench).copied.keys := by
    rw [withCopy, Table.keys_append]
    exact List.mem_append_right _ (List.mem_singleton_self path)
  by_cases hwaiting : s.bench.disk.waiting path = []
  · obtain ⟨bench, hcopy, hgained, hfailures⟩ | ⟨e, bench, hcopy, hrefuses⟩ :=
      Workbench.run_copy_cases policy hwaiting (hfile.resolve_left hknown)
    · rw [hcopy] at hrun
      refine .of_run hrun ⟨?_, evolves_withCopy start hknown hgained, .inl hmem, rfl, rfl⟩
      exact h.withCopy hknown hfree (fileName_joinPath_freeName _ _ _)
        (lower_mem_freeName_cons _ _) hgained hfailures
    · rw [hcopy] at hrun
      constructor
      · intro _ later hok
        cases hrun.symm.trans hok
      · intro e' later herror
        cases hrun.symm.trans herror
        exact .inr ⟨path, n, hname ▸ hrefuses⟩
  · have hstart : start.bench.disk.waiting path ≠ [] := by
      rwa [Disk.waiting, ← h.failures]
    refine ⟨fun {_ later} hok hlater => ?_, fun _ => .inl ⟨path, hstart⟩⟩
    -- The file was copied, so the failures had their turn.
    have hcopied : path ∈ later.copied.keys := by
      rw [hrun] at hok
      split at hok
      · cases hok
        exact hmem
      · cases hok
    obtain ⟨e, he, rfl⟩ := List.mem_map.mp hcopied
    exact absurd (hlater e he) hstart

/-! ### A texture node -/

/-- Copies the file of a texture node and points the node to the copy. -/
def copyNode (policy : RetryPolicy α) (directory : String) (id : NodeId) (path : String) :
    Step α Unit := do
  copyFile policy (.text directory) path
  repoint id path

theorem grows_copyNode (policy : RetryPolicy α) (directory : String) (id : NodeId)
    (path : String) : Grows (copyNode policy directory id path) :=
  (grows_copyFile policy directory path).bind fun _ => grows_modify fun _ => List.prefix_rfl

theorem achieves_copyNode (policy : RetryPolicy α) (directory : String) {id : NodeId}
    {original current : String} (h : Copying start s)
    (hstart : start.network.pathAt? id = some original)
    (hcurrent : current = original ∨ (original, current) ∈ s.copied)
    (hfile : s.Known current ∨ s.bench.disk.isFile current = true) :
    Achieves (Refused directory) start s (copyNode policy directory id current) fun _ later =>
      Copying start later ∧ Evolves start s later ∧ later.Settled id original ∧
        later.materials = s.materials := by
  refine (achieves_copyFile policy directory h hfile).bind
    (fun _ => grows_modify fun _ => List.prefix_rfl) ?_
  rintro - middle ⟨hmiddle, hevolves, hknown, hnetwork, hmaterials⟩
  replace hcurrent := hcurrent.imp_right (hevolves.copied.subset ·)
  have hpath : (middle.copied.get? current).getD current =
      (middle.copied.get? original).getD original := by
    rcases hcurrent with rfl | he
    · rfl
    · rw [hmiddle.getD_of_mem he, hmiddle.get?_of_mem he, Option.getD_some]
  have horiginal : middle.Known original := by
    rcases hcurrent with rfl | he
    · exact hknown
    · exact .inl (List.mem_map.mpr ⟨_, he, rfl⟩)
  have hrun : (repoint id current).run.run middle = (.ok (), middle.pointed id original) := by
    rw [TextureCopies.pointed, ← hpath]
    rfl
  refine .of_run hrun ⟨hmiddle.pointed hstart, hevolves.trans (evolves_pointed hstart),
    ⟨horiginal, ?_⟩, hmaterials⟩
  obtain ⟨path, hsome, _⟩ := hmiddle.paths hstart
  rw [pathAt?_pointed, if_pos rfl, hsome]
  rfl

end TextureCopies

end ShadeGraph
