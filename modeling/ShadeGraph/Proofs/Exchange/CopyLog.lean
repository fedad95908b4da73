import ShadeGraph.Proofs.Exchange.Attempts
import ShadeGraph.Proofs.Exchange.TexturePaths
import ShadeGraph.Proofs.Table

/-!
# The log of copies

Each copy takes a name of its own, and a file that was copied keeps its name from being taken. So no
two copies go to one path, and none goes to a path that was copied before. The other way round it may
happen: a path that a copy went to is not copied any more, whatever was there before, and one that
leads to the same file by another name is copied as the copy left it.
-/

namespace ShadeGraph

namespace Disk

variable {disk ready later : Disk} {source target : String}

/-- A disk after a file was copied, whatever failed before. -/
structure Gained (disk later : Disk) (source target : String) : Prop where
  existed : disk.tree.place source ∈ disk.files
  reached : disk.tree.reaches later.made source = true
  files : ∀ file, file ∈ later.files ↔ file ∈ disk.files ∨ file = disk.tree.place target
  copies : later.copies = disk.copies ++ [(source, target)]
  tree : later.tree = disk.tree
  made : disk.made ⊆ later.made
  directory : Text.directoryName target ∈ "" :: later.made

theorem isFile_iff {path : String} : disk.isFile path = true ↔
    disk.tree.reaches disk.made path = true ∧ disk.tree.place path ∈ disk.files := by
  rw [isFile, Bool.and_eq_true, List.contains_iff_mem]

theorem copy?_eq_ok_iff : disk.copy? source target = .ok later ↔
    disk.refuses? source target = none ∧ later = { disk with
      files := if disk.files.contains (disk.tree.place target) then disk.files
        else disk.files ++ [disk.tree.place target]
      copies := disk.copies ++ [(source, target)] } := by
  unfold copy?
  cases disk.refuses? source target with
  | none => simp [eq_comm]
  | some e => simp

theorem isFile_of_refuses? (h : disk.refuses? source target = none) :
    disk.isFile source = true := by
  unfold refuses? at h
  split_ifs at h with hmissing
  simpa using hmissing

/-- Failures that wait make no difference to what a copy is. -/
theorem Prepared.gained (hready : disk.Prepared ready target)
    {failures : Table String (List FileError)}
    (hcopy : { ready with failures }.copy? source target = .ok later) :
    disk.Gained later source target := by
  obtain ⟨hfree, rfl⟩ := copy?_eq_ok_iff.mp hcopy
  obtain ⟨hreached, hfile⟩ := isFile_iff.mp (isFile_of_refuses? hfree)
  refine ⟨?_, ?_, fun file => ?_, ?_, hready.tree, hready.made, hready.directory⟩
  · rwa [← hready.tree, ← hready.files]
  · rwa [← hready.tree]
  · rw [← hready.tree, ← hready.files]
    dsimp only
    split_ifs with hthere
    · refine (or_iff_left_of_imp ?_).symm
      rintro rfl
      exact List.contains_iff_mem.mp hthere
    · rw [List.mem_append, List.mem_singleton]
  · rw [← hready.copies]

namespace Gained

variable (h : disk.Gained later source target)
include h

theorem isFile {path : String} (hpath : disk.isFile path = true) : later.isFile path = true := by
  obtain ⟨hreached, hfile⟩ := isFile_iff.mp hpath
  rw [isFile_iff, h.tree]
  exact ⟨disk.tree.reaches_of_subset h.made hreached, (h.files _).mpr (.inl hfile)⟩

/-- A path leads to its copy. -/
theorem isFile_target : later.isFile target = true := by
  rw [isFile_iff, h.tree]
  exact ⟨disk.tree.reaches_of_mem h.directory, (h.files _).mpr (.inr rfl)⟩

end Gained

/-- A disk behind copies: its files are those from before and those where the copies went to. -/
structure Copied (disk later : Disk) (copied : Table String String) : Prop where
  files : ∀ file, file ∈ later.files ↔
    file ∈ disk.files ∨ ∃ e ∈ copied, disk.tree.place e.2 = file
  copies : later.copies = disk.copies ++ copied
  tree : later.tree = disk.tree
  made : disk.made ⊆ later.made

namespace Copied

theorem none (disk : Disk) : disk.Copied disk [] where
  files := by simp
  copies := (List.append_nil _).symm
  tree := rfl
  made := List.Subset.refl _

theorem copy {middle : Disk} {copied : Table String String} (h : disk.Copied middle copied)
    (hgained : middle.Gained later source target) :
    disk.Copied later (copied ++ [(source, target)]) := by
  refine ⟨fun file => ?_, ?_, hgained.tree.trans h.tree, List.Subset.trans h.made hgained.made⟩
  · simp only [List.mem_append, List.mem_singleton, or_and_right, exists_or, exists_eq_left]
    rw [← or_assoc, ← h.files, ← h.tree, eq_comm (b := file)]
    exact hgained.files file
  · rw [← List.append_assoc, ← h.copies]
    exact hgained.copies

end Copied

end Disk

namespace TextureCopies

variable {α : Type} {start s later : TextureCopies α}

/-! ### What copying keeps -/

/-- The paths that copies went to. -/
def targets (s : TextureCopies α) : List String := s.copied.map (·.2)

/-- The path was copied, or a copy went to it. -/
def Known (s : TextureCopies α) (path : String) : Prop := path ∈ s.copied.keys ∨ path ∈ s.targets

/-- A node that had the path at the start is done with: it reads the copy if there is one. -/
def Settled (s : TextureCopies α) (id : NodeId) (path : String) : Prop :=
  s.Known path ∧ s.network.pathAt? id = some ((s.copied.get? path).getD path)

/-- Where a path leads to. -/
def place (s : TextureCopies α) (path : String) : String := s.bench.disk.tree.place path

/-- The state of copying into a directory. -/
structure Copying (start : TextureCopies α) (s : TextureCopies α) : Prop where
  sources : s.copied.keys.Nodup
  distinct : s.targets.Nodup
  /-- Only a copy onto itself goes to a path that was copied. -/
  apart : ∀ e ∈ s.copied, ∀ e' ∈ s.copied, e.2 = e'.1 → e = e'
  named : ∀ e ∈ s.copied, Text.lower (Text.fileName e.1) ∈ s.used ∧
    Text.lower (Text.fileName e.2) ∈ s.used
  /-- A file was there at the start, or a copy before went to where it is. -/
  existed : ∀ {before after e}, s.copied = before ++ e :: after →
    start.place e.1 ∈ start.bench.disk.files ∨ ∃ e' ∈ before, start.place e'.2 = start.place e.1
  reached : ∀ e ∈ s.copied, start.bench.disk.tree.reaches s.bench.disk.made e.1 = true ∧
    s.bench.disk.isFile e.2 = true
  disk : start.bench.disk.Copied s.bench.disk s.copied
  failures : s.bench.disk.failures = start.bench.disk.failures
  size : start.network.size ≤ s.network.size
  inputs : ∀ id < start.network.size, s.network.inputs id = start.network.inputs id
  paths : ∀ {id path}, start.network.pathAt? id = some path →
    ∃ current, s.network.pathAt? id = some current ∧ (current = path ∨ (path, current) ∈ s.copied)
  others : ∀ {id}, id < start.network.size → start.network.pathAt? id = none →
    s.network.pathAt? id = none

/-- What later steps leave as it is. -/
structure Evolves (start s later : TextureCopies α) : Prop where
  copied : s.copied <+: later.copied
  files : ∀ {path}, s.bench.disk.isFile path = true → later.bench.disk.isFile path = true
  settled : ∀ {id path}, start.network.pathAt? id = some path → s.Settled id path →
    later.Settled id path
  plain : ∀ {id node}, s.network.get? id = some node → node.operation.texture? = none →
    later.network.get? id = some node

theorem Evolves.refl (start s : TextureCopies α) : Evolves start s s :=
  ⟨List.prefix_rfl, id, fun _ h => h, fun h _ => h⟩

theorem Evolves.trans {middle : TextureCopies α} (h : Evolves start s middle)
    (h' : Evolves start middle later) : Evolves start s later :=
  ⟨h.copied.trans h'.copied, fun hpath => h'.files (h.files hpath),
    fun hpath hs => h'.settled hpath (h.settled hpath hs),
    fun hnode hplain => h'.plain (h.plain hnode hplain) hplain⟩

theorem Known.grow {path : String} (h : s.Known path) (hgrown : s.copied <+: later.copied) :
    later.Known path :=
  h.imp (fun h => (hgrown.map Prod.fst).subset h) fun h => (hgrown.map Prod.snd).subset h

namespace Copying

theorem get?_of_mem (h : Copying start s) {source target : String}
    (hmem : (source, target) ∈ s.copied) : s.copied.get? source = some target :=
  Table.get?_eq_some_of_mem h.sources hmem

/-- Looking a path up again changes nothing. -/
theorem getD_of_mem (h : Copying start s) {source target : String}
    (hmem : (source, target) ∈ s.copied) : (s.copied.get? target).getD target = target := by
  cases hget : s.copied.get? target with
  | none => rfl
  | some next =>
    have hsame := h.apart _ hmem _ (Table.mem_of_get?_eq_some hget) rfl
    exact (congrArg Prod.snd hsame).symm

theorem initial (h : start.copied = []) : Copying start start where
  sources := by simp [h]
  distinct := by simp [targets, h]
  apart := by simp [h]
  named := by simp [h]
  existed := fun hsplit => absurd (h.symm.trans hsplit).symm (by simp)
  reached := by simp [h]
  disk := by
    rw [h]
    exact .none _
  failures := rfl
  size := Nat.le_refl _
  inputs := fun _ _ => rfl
  paths := fun hpath => ⟨_, hpath, .inl rfl⟩
  others := fun _ hnone => hnone

/-- A path is that of a file now if it can be reached and a file was there at the start, or a copy
went there. -/
theorem isFile_iff (h : Copying start s) {path : String} : s.bench.disk.isFile path = true ↔
    start.bench.disk.tree.reaches s.bench.disk.made path = true ∧
      (start.place path ∈ start.bench.disk.files ∨
        ∃ e ∈ s.copied, start.place e.2 = start.place path) := by
  rw [Disk.isFile_iff, h.disk.files, h.disk.tree]
  rfl

theorem isFile_of_start (h : Copying start s) {path : String}
    (hpath : start.bench.disk.isFile path = true) : s.bench.disk.isFile path = true := by
  obtain ⟨hreached, hfile⟩ := Disk.isFile_iff.mp hpath
  exact h.isFile_iff.mpr ⟨start.bench.disk.tree.reaches_of_subset h.disk.made hreached, .inl hfile⟩

end Copying

/-! ### Another copy -/

/-- A part of a list with one more element at its end. -/
theorem append_singleton_eq_split {ι : Type} {xs before after : List ι} {x y : ι}
    (h : xs ++ [x] = before ++ y :: after) :
    (∃ rest, xs = before ++ y :: rest) ∨ before = xs ∧ y = x := by
  rcases List.eq_nil_or_concat after with rfl | ⟨rest, last, rfl⟩
  · obtain ⟨hbefore, hlast⟩ := List.append_inj' h rfl
    exact .inr ⟨hbefore.symm, (List.singleton_inj.mp hlast).symm⟩
  · rw [List.concat_eq_append, ← List.cons_append, ← List.append_assoc] at h
    exact .inl ⟨rest, (List.append_inj' h rfl).1⟩

/-- The state after a file was copied under a name. -/
def withCopy (s : TextureCopies α) (path name target : String) (bench : Workbench α) :
    TextureCopies α :=
  { s with bench, used := Text.lower name :: s.used, copied := s.copied ++ [(path, target)] }

/-- A copy under a name that is free goes where no copy went, and to no path that was copied. -/
theorem Copying.withCopy {path name target : String} {bench : Workbench α} (h : Copying start s)
    (hnew : ¬ s.Known path) (hfree : Text.lower name ∉ s.used)
    (htarget : Text.fileName target = name)
    (hname : Text.lower (Text.fileName path) ∈ Text.lower name :: s.used)
    (hgained : s.bench.disk.Gained bench.disk path target)
    (hfailures : bench.disk.failures = s.bench.disk.failures) :
    Copying start (s.withCopy path name target bench) := by
  have hnewKey : path ∉ s.copied.keys := fun hmem => hnew (.inl hmem)
  have hnewTarget : ∀ e ∈ s.copied, e.2 ≠ path := fun e he heq =>
    hnew (.inr (List.mem_map.mpr ⟨e, he, heq⟩))
  have htargetKey : ∀ e ∈ s.copied, target ≠ e.1 := by
    rintro e he rfl
    exact hfree (htarget ▸ (h.named e he).1)
  have htargetNew : target ∉ s.targets := by
    intro hmem
    obtain ⟨e, he, rfl⟩ := List.mem_map.mp hmem
    exact hfree (htarget ▸ (h.named e he).2)
  have hmem (e : String × String) : e ∈ (s.withCopy path name target bench).copied ↔
      e ∈ s.copied ∨ e = (path, target) := by
    rw [TextureCopies.withCopy, List.mem_append, List.mem_singleton]
  have htargets : (s.withCopy path name target bench).targets = s.targets ++ [target] :=
    List.map_append
  constructor
  case sources =>
    rw [TextureCopies.withCopy, Table.keys_append]
    exact h.sources.append (List.nodup_singleton _) (List.disjoint_singleton.mpr hnewKey)
  case distinct =>
    rw [htargets]
    exact h.distinct.append (List.nodup_singleton _) (List.disjoint_singleton.mpr htargetNew)
  case apart =>
    simp only [hmem]
    rintro e (he | rfl) e' (he' | rfl) heq
    · exact h.apart e he e' he' heq
    · exact absurd heq (hnewTarget e he)
    · exact absurd heq (htargetKey e' he')
    · rfl
  case named =>
    simp only [hmem]
    rintro e (he | rfl)
    · exact (h.named e he).imp (List.mem_cons_of_mem _) (List.mem_cons_of_mem _)
    · exact ⟨hname, htarget.symm ▸ List.mem_cons_self⟩
  case existed =>
    intro before after e hsplit
    obtain ⟨rest, hold⟩ | ⟨rfl, rfl⟩ := append_singleton_eq_split hsplit
    · exact h.existed hold
    · have hfile := hgained.existed
      rwa [h.disk.tree, h.disk.files] at hfile
  case reached =>
    simp only [hmem]
    rintro e (he | rfl)
    · obtain ⟨hsource, htarget⟩ := h.reached e he
      exact ⟨start.bench.disk.tree.reaches_of_subset hgained.made hsource, hgained.isFile htarget⟩
    · refine ⟨?_, hgained.isFile_target⟩
      rw [← h.disk.tree]
      exact hgained.reached
  case disk => exact h.disk.copy hgained
  case failures => exact hfailures.trans h.failures
  case size => exact h.size
  case inputs => exact h.inputs
  case paths =>
    intro id original horiginal
    obtain ⟨current, hcurrent, hsame⟩ := h.paths horiginal
    exact ⟨current, hcurrent, hsame.imp_right fun he => (hmem _).mpr (.inl he)⟩
  case others => exact h.others

theorem evolves_withCopy (start : TextureCopies α) {path name target : String}
    {bench : Workbench α} (hnew : ¬ s.Known path)
    (hgained : s.bench.disk.Gained bench.disk path target) :
    Evolves start s (s.withCopy path name target bench) := by
  have hgrown : s.copied <+: (s.withCopy path name target bench).copied :=
    List.prefix_append _ _
  refine ⟨hgrown, hgained.isFile, fun {id original} _ hsettled => ⟨hsettled.1.grow hgrown, ?_⟩,
    fun hnode _ => hnode⟩
  have hne : path ≠ original := by
    rintro rfl
    exact hnew hsettled.1
  have hget : (s.withCopy path name target bench).copied.get? original =
      s.copied.get? original := by
    rw [withCopy, Table.get?_append, Table.get?_cons, if_neg hne, Table.get?_nil]
    cases s.copied.get? original <;> rfl
  rw [hget]
  exact hsettled.2

/-! ### Another path of a node -/

/-- The state after a node was pointed to what a path stands for. -/
def pointed (s : TextureCopies α) (id : NodeId) (path : String) : TextureCopies α :=
  { s with network := s.network.setTexturePath id ((s.copied.get? path).getD path) }

theorem pathAt?_pointed (s : TextureCopies α) (id j : NodeId) (path : String) :
    (s.pointed id path).network.pathAt? j =
      if id = j then (s.network.pathAt? j).map fun _ => (s.copied.get? path).getD path
      else s.network.pathAt? j :=
  Network.pathAt?_setTexturePath id j _

/-- A node is pointed to what the path that it had at the start stands for. -/
theorem Copying.pointed {id : NodeId} {original : String} (h : Copying start s)
    (hstart : start.network.pathAt? id = some original) :
    Copying start (s.pointed id original) := by
  refine { h with size := ?_, inputs := ?_, paths := ?_, others := ?_ }
  · simpa [TextureCopies.pointed] using h.size
  · simpa [TextureCopies.pointed] using h.inputs
  · intro j path hpath
    obtain ⟨current, hcurrent, hsame⟩ := h.paths hpath
    rw [pathAt?_pointed, hcurrent]
    split_ifs with hj
    · subst hj
      obtain rfl : original = path := Option.some.inj (hstart.symm.trans hpath)
      refine ⟨_, rfl, ?_⟩
      cases hget : s.copied.get? original with
      | none => exact .inl rfl
      | some target => exact .inr (Table.mem_of_get?_eq_some hget)
    · exact ⟨current, rfl, hsame⟩
  · intro j hj hnone
    rw [pathAt?_pointed, h.others hj hnone]
    exact ite_self _

theorem evolves_pointed {id : NodeId} {original : String}
    (hstart : start.network.pathAt? id = some original) :
    Evolves start s (s.pointed id original) := by
  refine ⟨List.prefix_rfl, fun hfile => hfile, fun {j path} hpath hsettled => ⟨hsettled.1, ?_⟩,
    fun hnode hplain => Network.get?_setTexturePath_of_plain hnode hplain _ _⟩
  rw [pathAt?_pointed, hsettled.2]
  split_ifs with hj
  · subst hj
    obtain rfl : original = path := Option.some.inj (hstart.symm.trans hpath)
    rfl
  · rfl

/-! ### What the nodes read -/

/-- A copy of another file went to where the path leads, before its own file was copied. -/
def Overwritten (s : TextureCopies α) (path : String) : Prop :=
  ∃ (before after : Table String String) (source target : String),
    s.copied = before ++ (source, target) :: after ∧ source ≠ path ∧
      s.place target = s.place path ∧ path ∉ before.keys

/-- The node reads the only copy of its file, and no copy before it went to where that file is. -/
def ReadsCopy (s : TextureCopies α) (id : NodeId) (path : String) : Prop :=
  ∃ (target : String) (before after : Table String String), s.copied.get? path = some target ∧
    s.network.pathAt? id = some target ∧ s.copied = before ++ (path, target) :: after ∧
    path ∉ before.keys ∧ path ∉ after.keys ∧ ∀ e ∈ before, s.place e.2 ≠ s.place path

theorem ReadsCopy.not_overwritten {id : NodeId} {path : String} (h : s.ReadsCopy id path) :
    ¬ s.Overwritten path := by
  obtain ⟨target, before, after, _, _, hsplit, hbefore, _, hfree⟩ := h
  rintro ⟨before', after', source, target', hsplit', hne, hplace, hbefore'⟩
  have hother : (path, target) ≠ (source, target') := fun heq => hne (congrArg Prod.fst heq).symm
  -- The other copy comes first, so it is one of those before the copy of the file.
  rcases List.append_eq_append_iff.mp (hsplit.symm.trans hsplit') with
    ⟨middle, rfl, hmiddle⟩ | ⟨middle, rfl, hmiddle⟩
  · cases middle with
    | nil => exact hother (List.cons.inj hmiddle).1
    | cons e middle =>
      obtain rfl := (List.cons.inj hmiddle).1
      apply hbefore'
      rw [Table.keys_append, Table.keys_cons]
      exact List.mem_append_right _ List.mem_cons_self
  · cases middle with
    | nil => exact hother (List.cons.inj hmiddle).1.symm
    | cons e middle =>
      obtain rfl := (List.cons.inj hmiddle).1
      exact hfree _ (List.mem_append_right _ List.mem_cons_self) hplace

theorem Copying.readsCopy (h : Copying start s) {id : NodeId} {path : String}
    (hsettled : s.Settled id path) (hfree : ¬ s.Overwritten path) : s.ReadsCopy id path := by
  have hmem : path ∈ s.copied.keys := by
    by_contra hnew
    obtain ⟨e, he, rfl⟩ := List.mem_map.mp (hsettled.1.resolve_left hnew)
    obtain ⟨before, after, hsplit⟩ : ∃ before after : Table String String,
        s.copied = before ++ e :: after := List.append_of_mem he
    have hne : e.1 ≠ e.2 := fun heq => hnew (heq ▸ List.mem_map_of_mem he)
    refine hfree ⟨before, after, e.1, e.2, hsplit, hne, rfl, fun hkey => hnew ?_⟩
    rw [hsplit, Table.keys_append]
    exact List.mem_append_left _ hkey
  obtain ⟨target, hget⟩ := Table.mem_keys_iff.mp hmem
  have he := Table.mem_of_get?_eq_some hget
  obtain ⟨before, after, hsplit⟩ : ∃ before after : Table String String,
      s.copied = before ++ (path, target) :: after := List.append_of_mem he
  have hpath := hsettled.2
  rw [hget, Option.getD_some] at hpath
  have hkeys := h.sources
  rw [hsplit, Table.keys_append, Table.keys_cons, List.nodup_append', List.nodup_cons] at hkeys
  obtain ⟨-, ⟨hafter, -⟩, hdisjoint⟩ := hkeys
  have hbefore : path ∉ before.keys := fun hmem => hdisjoint hmem List.mem_cons_self
  refine ⟨target, before, after, hget, hpath, hsplit, hbefore, hafter, fun e heBefore hplace => ?_⟩
  obtain ⟨first, rest, rfl⟩ : ∃ first rest : Table String String, before = first ++ e :: rest :=
    List.append_of_mem heBefore
  rw [Table.keys_append, Table.keys_cons, List.mem_append, List.mem_cons, not_or, not_or] at hbefore
  refine hfree ⟨first, rest ++ (path, target) :: after, e.1, e.2, ?_, Ne.symm hbefore.2.1, hplace,
    hbefore.1⟩
  rw [hsplit, List.append_assoc, List.cons_append]

/-- Of the nodes that are done with, exactly those read their copies that no other copy was in the way
of. -/
theorem Copying.readsCopy_iff (h : Copying start s) {id : NodeId} {path : String}
    (hsettled : s.Settled id path) : s.ReadsCopy id path ↔ ¬ s.Overwritten path :=
  ⟨ReadsCopy.not_overwritten, h.readsCopy hsettled⟩

/-- A file that was copied before anything else went to its place was there at the start. -/
theorem Copying.isFile_of_readsCopy (h : Copying start s) {id : NodeId}
    {path : String} (hreads : s.ReadsCopy id path) :
    { start.bench.disk with made := s.bench.disk.made }.isFile path = true := by
  obtain ⟨target, before, after, hget, -, hsplit, -, -, hfree⟩ := hreads
  rw [Disk.isFile_iff]
  refine ⟨(h.reached _ (Table.mem_of_get?_eq_some hget)).1, (h.existed hsplit).resolve_right ?_⟩
  rintro ⟨e, he, hplace⟩
  refine hfree e he ?_
  rwa [place, place, h.disk.tree]

/-- A path that a copy of another file went to by this very name is not copied. -/
theorem Copying.notMem_keys (h : Copying start s) {source path : String} (hne : source ≠ path)
    (he : (source, path) ∈ s.copied) : path ∉ s.copied.keys := by
  intro hmem
  obtain ⟨e, he', rfl⟩ := List.mem_map.mp hmem
  exact hne (congrArg Prod.fst (h.apart _ he _ he' rfl))

end TextureCopies

end ShadeGraph
