import Mathlib.Data.List.TakeWhile
import Mathlib.Tactic
import ShadeGraph.Exchange.Textures

/-!
# Names for copies

The number behind a stem survives the change to lower case, so different numbers give names that
differ without their case. One of them is always free, and the file at the path that a name is joined
to has that name again.
-/

namespace ShadeGraph

namespace Text

/-! ### Lower case without context -/

/-- The small sigma for both of its forms. -/
def unfinal (c : Char) : Char := if c = 'ς' then 'σ' else c

/-- The lower case of each character on its own. -/
def plainLower (cs : List Char) : List Char :=
  cs.flatMap fun c => (lowerBetween [] c []).map unfinal

theorem plainLower_append (cs ds : List Char) :
    plainLower (cs ++ ds) = plainLower cs ++ plainLower ds := List.flatMap_append

/-- Only the form of a sigma depends on what stands around it. -/
theorem map_unfinal_lowerBetween (before : List Char) (c : Char) (after : List Char) :
    (lowerBetween before c after).map unfinal = (lowerBetween [] c []).map unfinal := by
  by_cases hsigma : c = 'Σ'
  · rw [lowerBetween, lowerBetween, if_pos hsigma, if_pos hsigma]
    split <;> rfl
  · rw [lowerBetween, lowerBetween, if_neg hsigma, if_neg hsigma]

theorem map_unfinal_lowerChars (before cs : List Char) :
    (lowerChars before cs).map unfinal = plainLower cs := by
  induction cs generalizing before with
  | nil => rfl
  | cons c cs ih =>
    rw [lowerChars, List.map_append, map_unfinal_lowerBetween, ih, plainLower, plainLower,
      List.flatMap_cons]

theorem plainLower_eq_of_lower_eq {s t : String} (h : lower s = lower t) :
    plainLower s.toList = plainLower t.toList := by
  rw [← map_unfinal_lowerChars [] s.toList, ← map_unfinal_lowerChars [] t.toList,
    String.ofList_injective h]

theorem plainLower_digits {ds : List Char} (h : ∀ c ∈ ds, c.isDigit = true) :
    plainLower ds = ds := by
  have hdigits : ∀ n < 10, (lowerBetween [] (Char.ofNat (48 + n)) []).map unfinal =
      [Char.ofNat (48 + n)] := by decide +kernel
  have hdigit (c : Char) (hc : c.isDigit = true) :
      (lowerBetween [] c []).map unfinal = [c] := by
    simp only [Char.isDigit, Bool.and_eq_true, decide_eq_true_eq, ge_iff_le,
      UInt32.le_iff_toNat_le] at hc
    have hlow : 48 ≤ c.toNat := hc.1
    have hhigh : c.toNat ≤ 57 := hc.2
    have hsame := hdigits (c.toNat - 48) (by omega)
    rwa [Nat.add_sub_cancel' hlow, Char.ofNat_toNat] at hsame
  induction ds with
  | nil => rfl
  | cons c ds ih =>
    obtain ⟨hc, hds⟩ := List.forall_mem_cons.mp h
    rw [plainLower, List.flatMap_cons, hdigit c hc]
    exact congrArg (c :: ·) (ih hds)

/-! ### Parts of paths -/

theorem splitAfterLast_append (c : Char) (cs : List Char) :
    (splitAfterLast c cs).1 ++ (splitAfterLast c cs).2 = cs := by
  rw [splitAfterLast, ← List.reverse_append, List.takeWhile_append_dropWhile, List.reverse_reverse]

theorem notMem_splitAfterLast (c : Char) (cs : List Char) : c ∉ (splitAfterLast c cs).2 := by
  intro h
  have hother := List.all_eq_true.mp List.all_takeWhile c (List.mem_reverse.mp h)
  simp at hother

theorem exists_splitAfterLast {c : Char} {cs : List Char} (h : c ∈ cs) :
    ∃ as, (splitAfterLast c cs).1 = as ++ [c] := by
  cases hrest : cs.reverse.dropWhile (· != c) with
  | nil =>
    have hall := List.dropWhile_eq_nil_iff.mp hrest c (List.mem_reverse.mpr h)
    simp at hall
  | cons d ds =>
    have hhead := List.head?_dropWhile_not (· != c) cs.reverse
    rw [hrest] at hhead
    obtain rfl : d = c := by simpa using hhead
    exact ⟨ds.reverse, by rw [splitAfterLast, hrest, List.reverse_cons]⟩

/-- Behind a last separator, or where there is none. -/
theorem splitAfterLast_of_notMem {c : Char} {cs ds : List Char}
    (hcs : cs = [] ∨ ∃ as, cs = as ++ [c]) (hds : c ∉ ds) :
    (splitAfterLast c (cs ++ ds)).2 = ds := by
  have hall : ∀ d ∈ ds.reverse, (d != c) = true := by
    intro d hd
    rw [bne_iff_ne]
    rintro rfl
    exact hds (List.mem_reverse.mp hd)
  have hstop : cs.reverse.takeWhile (· != c) = [] := by
    rcases hcs with rfl | ⟨as, rfl⟩
    · rfl
    · simp
  rw [splitAfterLast, List.reverse_append, List.takeWhile_append_of_pos hall, hstop,
    List.append_nil, List.reverse_reverse]

theorem toList_splitExtension (name : String) :
    (splitExtension name).1.toList ++ (splitExtension name).2.toList = name.toList := by
  unfold splitExtension
  dsimp only
  split_ifs with hdot
  · obtain ⟨as, has⟩ := exists_splitAfterLast (List.contains_iff_mem.mp hdot)
    have hrest := splitAfterLast_append '.' (name.toList.dropWhile (· == '.'))
    rw [has, List.append_assoc] at hrest
    rw [String.toList_ofList, String.toList_ofList, has, List.dropLast_concat, List.append_assoc]
    exact (congrArg _ hrest).trans (List.takeWhile_append_dropWhile)
  · rw [String.toList_empty, List.append_nil]

theorem slash_notMem_fileName (path : String) : '/' ∉ (fileName path).toList := by
  rw [fileName, String.toList_ofList]
  exact notMem_splitAfterLast '/' path.toList

theorem fileName_joinPath {directory name : String} (h : '/' ∉ name.toList) :
    fileName (joinPath directory name) = name := by
  have hname (cs : List Char) (hcs : cs = [] ∨ ∃ as, cs = as ++ ['/']) (path : String)
      (hpath : path.toList = cs ++ name.toList) : fileName path = name := by
    rw [fileName, hpath, splitAfterLast_of_notMem hcs h, String.ofList_toList]
  unfold joinPath
  split_ifs with hbare hend
  · exact hname [] (.inl rfl) name rfl
  · have hslash : "/".toList <:+ directory.toList := by
      simpa using String.Slice.endsWith_string_iff.mp hend
    obtain ⟨as, has⟩ := hslash
    exact hname directory.toList (.inr ⟨as, has.symm⟩) _ String.toList_append
  · refine hname (directory.toList ++ ['/']) (.inr ⟨_, rfl⟩) _ ?_
    simp

end Text

/-! ### Numbered names -/

theorem numberedFile_zero (name : String) : numberedFile name 0 = name := rfl

theorem toList_numberedFile (name : String) {n : Nat} (h : n ≠ 0) :
    (numberedFile name n).toList = (Text.splitExtension name).1.toList ++ '_' :: Nat.toDigits 10 n ++
      (Text.splitExtension name).2.toList := by
  rw [numberedFile, if_neg h]
  simp only [String.toList_append, Nat.toList_repr, ToString.toString]
  simp

theorem isDigit_of_mem_toDigits {n : Nat} : ∀ c ∈ Nat.toDigits 10 n, c.isDigit = true :=
  fun _ hc => Nat.isDigit_of_mem_toDigits (by decide) (by decide) hc

theorem slash_notMem_numberedFile {name : String} (h : '/' ∉ name.toList) (n : Nat) :
    '/' ∉ (numberedFile name n).toList := by
  by_cases hn : n = 0
  · rwa [hn, numberedFile_zero]
  · rw [← Text.toList_splitExtension name, List.mem_append, not_or] at h
    rw [toList_numberedFile name hn]
    simp only [List.mem_append, List.mem_cons, not_or]
    refine ⟨⟨h.1, by decide, fun hdigit => ?_⟩, h.2⟩
    exact absurd (isDigit_of_mem_toDigits _ hdigit) (by decide)

theorem plainLower_numberedFile (name : String) {n : Nat} (h : n ≠ 0) :
    Text.plainLower (numberedFile name n).toList =
      Text.plainLower (Text.splitExtension name).1.toList ++ ('_' :: Nat.toDigits 10 n ++
        Text.plainLower (Text.splitExtension name).2.toList) := by
  have hmark : Text.plainLower ['_'] = ['_'] := by decide +kernel
  rw [toList_numberedFile name h, Text.plainLower_append, Text.plainLower_append,
    ← List.singleton_append, Text.plainLower_append, hmark,
    Text.plainLower_digits isDigit_of_mem_toDigits, List.append_assoc]

theorem lower_numberedFile_injective (name : String) :
    Function.Injective fun n => Text.lower (numberedFile name n) := by
  have hzero (n : Nat) (h : Text.lower (numberedFile name n) = Text.lower (numberedFile name 0)) :
      n = 0 := by
    by_contra hn
    have hlength := congrArg List.length (Text.plainLower_eq_of_lower_eq h)
    rw [plainLower_numberedFile name hn, numberedFile_zero, ← Text.toList_splitExtension name,
      Text.plainLower_append] at hlength
    simp only [List.length_append, List.length_cons] at hlength
    omega
  intro n m h
  by_cases hn : n = 0
  · subst hn
    exact (hzero m h.symm).symm
  by_cases hm : m = 0
  · subst hm
    exact hzero n h
  have hplain := Text.plainLower_eq_of_lower_eq h
  rw [plainLower_numberedFile name hn, plainLower_numberedFile name hm] at hplain
  have hdigits := List.append_cancel_right (List.append_cancel_left hplain)
  have hvalue := congrArg (fun ds => Nat.ofDigitChars 10 ds 0) (List.cons.inj hdigits).2
  simpa using hvalue

/-- Numbering comes to an end: of as many forms as names are in use and one more, one is free. -/
theorem exists_free_number (used : List String) (name : String) :
    ∃ n ≤ used.length, Text.lower (numberedFile name n) ∉ used := by
  by_contra! hused
  have hsubset : (List.range (used.length + 1)).map (fun n => Text.lower (numberedFile name n)) ⊆
      used := by
    intro candidate hcandidate
    obtain ⟨n, hn, rfl⟩ := List.mem_map.mp hcandidate
    exact hused n (Nat.le_of_lt_succ (List.mem_range.mp hn))
  have hnodup := (List.nodup_range (n := used.length + 1)).map (lower_numberedFile_injective name)
  have hlength := (hnodup.subperm hsubset).length_le
  rw [List.length_map, List.length_range] at hlength
  omega

/-- A free name has the least number of which the form is not in use. -/
theorem exists_isLeast_freeName (used : List String) (name : String) :
    ∃ n ≤ used.length, freeName used name = numberedFile name n ∧
      IsLeast {k | Text.lower (numberedFile name k) ∉ used} n := by
  obtain ⟨m, hm, hfree⟩ := exists_free_number used name
  have hsome : ∃ n, Text.lower (numberedFile name n) ∉ used := ⟨m, hfree⟩
  have hle : Nat.find hsome ≤ used.length := (Nat.find_min' hsome hfree).trans hm
  have hfound : (List.range (used.length + 1)).find? ((fun candidate =>
      !used.contains (Text.lower candidate)) ∘ numberedFile name) = some (Nat.find hsome) := by
    rw [List.find?_range_eq_some]
    refine ⟨by simpa using Nat.find_spec hsome, List.mem_range.mpr (Nat.lt_succ_of_le hle), ?_⟩
    intro j hj
    simpa using Nat.find_min hsome hj
  refine ⟨Nat.find hsome, hle, ?_, Nat.find_spec hsome, fun k hk => Nat.find_min' hsome hk⟩
  rw [freeName, List.find?_map, hfound]
  rfl

/-- A free name is not in use, and it is one of the numbered forms. -/
theorem freeName_spec (used : List String) (name : String) :
    Text.lower (freeName used name) ∉ used ∧ ∃ n, freeName used name = numberedFile name n := by
  obtain ⟨n, _, hname, hleast⟩ := exists_isLeast_freeName used name
  exact ⟨hname ▸ hleast.1, n, hname⟩

theorem freeName_of_notMem {used : List String} {name : String} (h : Text.lower name ∉ used) :
    freeName used name = name := by
  rw [freeName, List.range_succ_eq_map, List.map_cons, numberedFile_zero, List.find?_cons_of_pos,
    Option.getD_some]
  simpa using h

theorem lower_mem_freeName_cons (used : List String) (name : String) :
    Text.lower name ∈ Text.lower (freeName used name) :: used := by
  by_cases h : Text.lower name ∈ used
  · exact List.mem_cons_of_mem _ h
  · rw [freeName_of_notMem h]
    exact List.mem_cons_self

/-- A copy has the free name that it was given. -/
theorem fileName_joinPath_freeName (used : List String) (directory path : String) :
    Text.fileName (Text.joinPath directory (freeName used (Text.fileName path))) =
      freeName used (Text.fileName path) := by
  obtain ⟨n, hn⟩ := (freeName_spec used (Text.fileName path)).2
  apply Text.fileName_joinPath
  rw [hn]
  exact slash_notMem_numberedFile (Text.slash_notMem_fileName path) n

end ShadeGraph
