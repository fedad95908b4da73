import ShadeGraph.Proofs.Attachment.Layout

/-!
# Round trips of the attachment

Which records can be written is decided by their parts alone. Whatever can be written comes back
from both layouts with the same content, and whatever is accepted is the written form of what it is
read as. So each layout has exactly one attachment for a list of records.
-/

namespace ShadeGraph

/-! ### What can be written -/

/-- The number of bytes of a name. -/
def Name.encodedSize (name : Name) : Nat :=
  (name.points.map fun p => if p.val < 0x10000 then 2 else 4).sum

namespace MaterialRecord

/-- Every part of the record has a place in the layout. -/
structure Writable (r : MaterialRecord) : Prop where
  handle : 0 ≤ r.handle ∧ r.handle < 2 ^ 64
  materialId : ∀ c ∈ r.materialId.toList, c.toNat < 0x80
  name : ∀ p ∈ r.name.points, ¬ p.IsSurrogate
  slots : ∀ e ∈ r.generatedOf,
    (-2 ^ 31 ≤ e.1 ∧ e.1 < 2 ^ 31) ∧ (-2 ^ 31 ≤ e.2 ∧ e.2 < 2 ^ 31)

/-- No part of the record is too long for its count of 64 bits. Nothing that fits into a memory with
such addresses is. -/
structure Countable (r : MaterialRecord) : Prop where
  materialId : r.materialId.length + 1 < 2 ^ 64
  name : r.name.encodedSize + 2 < 2 ^ 64
  slots : r.generatedOf.length < 2 ^ 64

end MaterialRecord

namespace Attachment

theorem exists_encodeCount?_iff {n : Nat} : (∃ xs, encodeCount? n = some xs) ↔ n < 2 ^ 64 := by
  have hmodulus : Bytes.modulus 8 = 2 ^ 64 := by decide
  unfold encodeCount?
  rw [hmodulus]
  split_ifs with h
  · exact iff_of_true ⟨_, rfl⟩ h
  · exact iff_of_false (by simp) h

theorem exists_encodeHandle?_iff {handle : Int} :
    (∃ xs, encodeHandle? handle = some xs) ↔ 0 ≤ handle ∧ handle < 2 ^ 64 := by
  unfold encodeHandle?
  split_ifs with h
  · rw [exists_encodeCount?_iff]
    omega
  · simp [h]

theorem exists_encodeIndex?_iff {n : Int} :
    (∃ xs, encodeIndex? n = some xs) ↔ -2 ^ 31 ≤ n ∧ n < 2 ^ 31 := by
  have hfits : Bytes.Fits 4 n ↔ -2 ^ 31 ≤ n ∧ n < 2 ^ 31 := by
    have hmodulus : (Bytes.modulus 4 : Int) = 2 ^ 32 := by decide
    unfold Bytes.Fits
    rw [hmodulus]
    omega
  rw [← hfits, encodeIndex?]
  split_ifs with h
  · exact iff_of_true ⟨_, rfl⟩ h
  · exact iff_of_false (by simp) h

theorem exists_encodePair?_iff {pair : Int × Int} :
    (∃ xs, encodePair? pair = some xs) ↔
      (-2 ^ 31 ≤ pair.1 ∧ pair.1 < 2 ^ 31) ∧ (-2 ^ 31 ≤ pair.2 ∧ pair.2 < 2 ^ 31) := by
  rw [← exists_encodeIndex?_iff, ← exists_encodeIndex?_iff]
  simp only [encodePair?, Option.bind_eq_bind, Option.bind_eq_some_iff, Option.pure_def,
    Option.some.injEq]
  constructor
  · rintro ⟨_, host, hhost, generated, hgenerated, _⟩
    exact ⟨⟨host, hhost⟩, generated, hgenerated⟩
  · rintro ⟨⟨host, hhost⟩, generated, hgenerated⟩
    exact ⟨_, host, hhost, generated, hgenerated, rfl⟩

theorem exists_encodeString?_iff {text terminator : List UInt8} :
    (∃ xs, encodeString? text terminator = some xs) ↔ text.length + terminator.length < 2 ^ 64 := by
  simp only [encodeString?_eq_some_iff, ← exists_encodeCount?_iff]
  constructor
  · rintro ⟨_, count, hcount, _⟩
    exact ⟨count, hcount⟩
  · rintro ⟨count, hcount⟩
    exact ⟨_, count, hcount, rfl⟩

theorem length_of_ascii? {s : String} {data : List UInt8} (h : ascii? s = some data) :
    data.length = s.length := by
  rw [List.length_of_mapM_eq_some h, String.length_toList]

theorem length_of_utf16? {name : Name} {data : List UInt8} (h : utf16? name = some data) :
    data.length = name.encodedSize := by
  obtain ⟨us, hus, rfl⟩ := Option.map_eq_some_iff.mp h
  obtain ⟨uss, huss, rfl⟩ := Option.map_eq_some_iff.mp hus
  rw [Bytes.length_ofUnits, Name.encodedSize]
  clear h hus
  generalize name.points = ps at huss
  induction ps generalizing uss with
  | nil =>
    obtain rfl : uss = [] := by simpa using huss.symm
    rfl
  | cons p ps ih =>
    obtain ⟨us, uss', hus, huss', rfl⟩ := List.mapM_cons_eq_some.mp huss
    have hlen : 2 * us.length = if p.val < 0x10000 then 2 else 4 := by
      have hs := Name.exists_units_iff.mp ⟨us, hus⟩
      split_ifs with hsmall
      · rw [Name.units_of_lt hs hsmall] at hus
        obtain rfl := Option.some.inj hus
        rfl
      · rw [Name.units_of_le (Nat.le_of_not_lt hsmall)] at hus
        obtain rfl := Option.some.inj hus
        rfl
    rw [List.map_cons, List.sum_cons, ← ih uss' huss', ← hlen, List.flatten_cons,
      List.length_append, Nat.mul_add]

theorem exists_encodeRecord?_iff {r : MaterialRecord} :
    (∃ xs, encodeRecord? r = some xs) ↔ r.Writable ∧ r.Countable := by
  simp only [encodeRecord?_eq_some_iff]
  constructor
  · rintro ⟨_, handle, hhandle, id, ⟨idData, hidData, hid⟩, name, ⟨nameData, hnameData, hname⟩,
      count, hcount, blocks, hblocks, _⟩
    have hidSize := exists_encodeString?_iff.mp ⟨id, hid⟩
    have hnameSize := exists_encodeString?_iff.mp ⟨name, hname⟩
    rw [length_of_ascii? hidData] at hidSize
    rw [length_of_utf16? hnameData] at hnameSize
    obtain ⟨us, hus, _⟩ := Option.map_eq_some_iff.mp hnameData
    have hpairs := List.exists_mapM_eq_some_iff.mp ⟨blocks, hblocks⟩
    exact ⟨⟨exists_encodeHandle?_iff.mp ⟨handle, hhandle⟩, exists_ascii?_iff.mp ⟨idData, hidData⟩,
      Name.exists_toUtf16?_iff.mp ⟨us, hus⟩, fun e he => exists_encodePair?_iff.mp (hpairs e he)⟩,
      hidSize, hnameSize, exists_encodeCount?_iff.mp ⟨count, hcount⟩⟩
  · rintro ⟨writable, countable⟩
    obtain ⟨handle, hhandle⟩ := exists_encodeHandle?_iff.mpr writable.handle
    obtain ⟨idData, hidData⟩ := exists_ascii?_iff.mpr writable.materialId
    obtain ⟨us, hus⟩ := Name.exists_toUtf16?_iff.mpr writable.name
    have hnameData : utf16? r.name = some (Bytes.ofUnits us) := by rw [utf16?, hus]; rfl
    obtain ⟨id, hid⟩ : ∃ id, encodeString? idData [0] = some id := by
      rw [exists_encodeString?_iff, length_of_ascii? hidData]
      exact countable.materialId
    obtain ⟨name, hname⟩ : ∃ name, encodeString? (Bytes.ofUnits us) [0, 0] = some name := by
      rw [exists_encodeString?_iff, length_of_utf16? hnameData]
      exact countable.name
    obtain ⟨count, hcount⟩ := exists_encodeCount?_iff.mpr countable.slots
    obtain ⟨blocks, hblocks⟩ := List.exists_mapM_eq_some_iff.mpr fun e he =>
      exists_encodePair?_iff.mpr (writable.slots e he)
    exact ⟨_, handle, hhandle, id, ⟨idData, hidData, hid⟩, name, ⟨_, hnameData, hname⟩, count,
      hcount, blocks, hblocks, rfl⟩

theorem exists_encode_iff {rs : List MaterialRecord} :
    (∃ bytes, encode rs = .ok bytes) ↔
      rs.length < 2 ^ 64 ∧ ∀ r ∈ rs, r.Writable ∧ r.Countable := by
  simp only [encode_eq_ok_iff, ← exists_encodeCount?_iff, ← exists_encodeRecord?_iff,
    ← List.exists_mapM_eq_some_iff]
  constructor
  · rintro ⟨_, count, blocks, hcount, hblocks, _⟩
    exact ⟨⟨count, hcount⟩, blocks, hblocks⟩
  · rintro ⟨⟨count, hcount⟩, blocks, hblocks⟩
    exact ⟨_, count, blocks, hcount, hblocks, rfl⟩

/-! ### What comes back -/

theorem forall₂_agrees_rebuilt {rs : List MaterialRecord}
    (h : ∀ r ∈ rs, r.generatedOf.keys.Nodup) :
    List.Forall₂ MaterialRecord.Agrees rs (rs.map MaterialRecord.rebuilt) := by
  rw [List.forall₂_map_right_iff, List.forall₂_same]
  exact fun r hr => MaterialRecord.agrees_rebuilt (h r hr)

theorem built_of_mem_map_rebuilt {rs : List MaterialRecord}
    (h : ∀ r ∈ rs, r.generatedOf.keys.Nodup) :
    ∀ r ∈ rs.map MaterialRecord.rebuilt, r.Built := by
  intro r hr
  obtain ⟨s, hs, rfl⟩ := List.mem_map.mp hr
  exact MaterialRecord.built_rebuilt (h s hs)

theorem isVersioned_encodeVersioned {rs : List MaterialRecord} {bytes : List UInt8}
    (h : encodeVersioned rs = .ok bytes) : isVersioned bytes = true := by
  obtain ⟨plain, _, rfl⟩ := encodeVersioned_eq_ok_iff.mp h
  rfl

theorem take_ofNat (width more n : Nat) :
    (Bytes.ofNat (width + more) n).take width = Bytes.ofNat width n := by
  induction width generalizing n with
  | zero => rfl
  | succ width ih =>
    rw [Nat.add_right_comm, Bytes.ofNat, List.take_succ_cons, ih, Bytes.ofNat]

/-- A plain attachment is taken for a versioned one if its count starts like the magic number. -/
theorem isVersioned_encode {rs : List MaterialRecord} {bytes : List UInt8}
    (h : encode rs = .ok bytes) (hcount : rs.length % 2 ^ 32 ≠ Bytes.toNat magic) :
    isVersioned bytes = false := by
  obtain ⟨count, blocks, hbytes, _, rfl⟩ := encode_eq_ok_iff.mp h
  obtain ⟨hlen, hvalue⟩ := encodeCount?_eq_some_iff.mp hbytes
  have hback := Bytes.ofNat_toNat count
  rw [hlen, ← hvalue] at hback
  have hstart : (count ++ blocks.flatten).take 4 = Bytes.ofNat 4 rs.length := by
    rw [List.take_append_of_le_length (by omega), ← hback, take_ofNat 4 4]
  rw [isVersioned, hstart, beq_eq_false_iff_ne]
  intro hmagic
  apply hcount
  rw [← hmagic, Bytes.toNat_ofNat]
  rfl

/-- Writing succeeds exactly when every part of every record has a place, and then the same content
comes back from both layouts. A record that was filled slot by slot comes back unchanged. -/
theorem decode_encode (rs : List MaterialRecord)
    (hdistinct : ∀ r ∈ rs, r.generatedOf.keys.Nodup) :
    ((∃ bytes, encode rs = .ok bytes) ↔
      rs.length < 2 ^ 64 ∧ ∀ r ∈ rs, r.Writable ∧ r.Countable) ∧
    ∀ bytes, encode rs = .ok bytes → ∃ versioned back,
      encodeVersioned rs = .ok versioned ∧
      decode bytes = .ok back ∧ decodeVersioned versioned = .ok back ∧
      read versioned = .ok back ∧
      (rs.length % 2 ^ 32 ≠ Bytes.toNat magic → read bytes = .ok back) ∧
      List.Forall₂ (fun r s => r.Agrees s ∧ (r.Built → s = r)) rs back := by
  refine ⟨exists_encode_iff, fun bytes hbytes => ?_⟩
  have hversioned : encodeVersioned rs = .ok (magic ++ Bytes.ofNat 4 version ++ bytes) :=
    encodeVersioned_eq_ok_iff.mpr ⟨bytes, hbytes, rfl⟩
  have hsame := encode_congr (forall₂_agrees_rebuilt hdistinct)
  have hbuilt := built_of_mem_map_rebuilt hdistinct
  have hplain : decode bytes = .ok (rs.map MaterialRecord.rebuilt) :=
    decode_eq_ok_iff.mpr ⟨by rw [← hsame, hbytes], hbuilt⟩
  have hback : decodeVersioned (magic ++ Bytes.ofNat 4 version ++ bytes) =
      .ok (rs.map MaterialRecord.rebuilt) := by
    refine decodeVersioned_eq_ok_iff.mpr ⟨?_, hbuilt⟩
    exact encodeVersioned_eq_ok_iff.mpr ⟨bytes, by rw [← hsame, hbytes], rfl⟩
  refine ⟨_, rs.map MaterialRecord.rebuilt, hversioned, hplain, hback, ?_, fun hcount => ?_, ?_⟩
  · rw [read, if_pos (isVersioned_encodeVersioned hversioned), hback]
  · rw [read, isVersioned_encode hbytes hcount]
    exact hplain
  · rw [List.forall₂_map_right_iff, List.forall₂_same]
    exact fun r hr => ⟨MaterialRecord.agrees_rebuilt (hdistinct r hr), fun h => h.rebuilt_eq⟩

/-- Slots in no order, one of them below zero, and texts with a zero and a supplementary
character. -/
def sparseRecord : MaterialRecord :=
  ({ handle := 2 ^ 64 - 1, materialId := "a\x00b"
     name := ⟨[CodePoint.ofNat 0x1f642, CodePoint.ofNat 0]⟩ } : MaterialRecord).addAll
    [(4, 0), (0, 2), (-1, 0)]

theorem decode_encode_sparse :
    (∀ r ∈ [sparseRecord], r.generatedOf.keys.Nodup) ∧
    ∃ bytes, encode [sparseRecord] = .ok bytes ∧ decode bytes = .ok [sparseRecord] := by
  have hdistinct : ∀ r ∈ [sparseRecord], r.generatedOf.keys.Nodup := by decide
  have hid : sparseRecord.materialId = "a\x00b" := rfl
  have hname : sparseRecord.name = ⟨[CodePoint.ofNat 0x1f642, CodePoint.ofNat 0]⟩ := rfl
  have hslots : sparseRecord.generatedOf = [(4, 0), (0, 2), (-1, 0)] := rfl
  have hwritable : sparseRecord.Writable :=
    ⟨by decide, by simp [hid], by simp [hname, CodePoint.IsSurrogate, CodePoint.ofNat],
      by norm_num [hslots]⟩
  have hcountable : sparseRecord.Countable := ⟨by decide, by decide, by norm_num [hslots]⟩
  have hbuilt : sparseRecord.Built := ⟨[(4, 0), (0, 2), (-1, 0)], by decide, rfl⟩
  obtain ⟨hwritten, hread⟩ := decode_encode [sparseRecord] hdistinct
  obtain ⟨bytes, hbytes⟩ := hwritten.mpr ⟨by decide, by simpa using ⟨hwritable, hcountable⟩⟩
  obtain ⟨_, back, _, hback, _, _, _, hsame⟩ := hread bytes hbytes
  rcases hsame with _ | ⟨⟨_, hrecord⟩, ⟨⟩⟩
  rw [hrecord hbuilt] at hback
  exact ⟨hdistinct, bytes, hbytes, hback⟩

/-! ### One written form -/

/-- Reading accepts exactly what writing produces, and each list of records has one written form. -/
structure Canonical (write : List MaterialRecord → Except EncodeError (List UInt8))
    (read : List UInt8 → Except FormatError (List MaterialRecord)) : Prop where
  rewritten : ∀ bytes rs, read bytes = .ok rs → write rs = .ok bytes
  accepted : ∀ bytes, (∃ rs, read bytes = .ok rs) ↔
    ∃ rs, (∀ r ∈ rs, r.generatedOf.keys.Nodup) ∧ write rs = .ok bytes
  separated : ∀ bytes bytes' rs rs', read bytes = .ok rs → read bytes' = .ok rs' →
    List.Forall₂ MaterialRecord.Agrees rs rs' → bytes = bytes'

theorem Canonical.of_iff {write : List MaterialRecord → Except EncodeError (List UInt8)}
    {read : List UInt8 → Except FormatError (List MaterialRecord)}
    (hread : ∀ {bytes rs}, read bytes = .ok rs ↔ write rs = .ok bytes ∧ ∀ r ∈ rs, r.Built)
    (hwrite : ∀ {rs ss}, List.Forall₂ MaterialRecord.Agrees rs ss → write rs = write ss) :
    Canonical write read where
  rewritten bytes rs h := (hread.mp h).1
  accepted bytes := by
    constructor
    · rintro ⟨rs, h⟩
      obtain ⟨hbytes, hbuilt⟩ := hread.mp h
      exact ⟨rs, fun r hr => (hbuilt r hr).nodup, hbytes⟩
    · rintro ⟨rs, hdistinct, hbytes⟩
      rw [hwrite (forall₂_agrees_rebuilt hdistinct)] at hbytes
      exact ⟨_, hread.mpr ⟨hbytes, built_of_mem_map_rebuilt hdistinct⟩⟩
  separated bytes bytes' rs rs' h h' hsame := by
    have hbytes := (hread.mp h).1
    rw [hwrite hsame, (hread.mp h').1] at hbytes
    exact (Except.ok.inj hbytes).symm

theorem encodeVersioned_congr {rs ss : List MaterialRecord}
    (h : List.Forall₂ MaterialRecord.Agrees rs ss) : encodeVersioned rs = encodeVersioned ss := by
  rw [encodeVersioned, encodeVersioned, encode_congr h]

theorem canonical_layouts :
    Canonical encode decode ∧ Canonical encodeVersioned decodeVersioned :=
  ⟨.of_iff decode_eq_ok_iff encode_congr, .of_iff decodeVersioned_eq_ok_iff encodeVersioned_congr⟩

end Attachment

end ShadeGraph
