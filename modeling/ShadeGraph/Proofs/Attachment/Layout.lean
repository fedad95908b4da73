import ShadeGraph.Proofs.Attachment.Reader
import ShadeGraph.Proofs.Table

/-!
# Records in the attachment

The layout has one written form for a list of records, and reading accepts nothing else. What is not
written is made again from the slots: records that were filled slot by slot are the ones that come
back unchanged.
-/

namespace ShadeGraph

namespace MaterialRecord

/-- A record without slots. -/
def bare (r : MaterialRecord) : MaterialRecord :=
  { handle := r.handle, materialId := r.materialId, name := r.name }

/-- A record with what its slots determine. -/
def rebuilt (r : MaterialRecord) : MaterialRecord := r.bare.addAll r.generatedOf

/-- The record was filled by adding pairs for different slots. -/
def Built (r : MaterialRecord) : Prop :=
  ∃ pairs : List (Int × Int), (Table.keys pairs).Nodup ∧ r = r.bare.addAll pairs

/-- Two records tell the same, slots in their order included. -/
structure Agrees (r s : MaterialRecord) : Prop where
  handle : r.handle = s.handle
  materialId : r.materialId = s.materialId
  name : r.name = s.name
  generatedOf : r.generatedOf = s.generatedOf

theorem addAll_cons (r : MaterialRecord) (pair : Int × Int) (pairs : List (Int × Int)) :
    r.addAll (pair :: pairs) = (r.add pair.1 pair.2).addAll pairs := rfl

@[simp] theorem bare_add (r : MaterialRecord) (host generated : Int) :
    (r.add host generated).bare = r.bare := rfl

@[simp] theorem bare_addAll (r : MaterialRecord) (pairs : List (Int × Int)) :
    (r.addAll pairs).bare = r.bare := by
  induction pairs generalizing r with
  | nil => rfl
  | cons pair pairs ih => rw [addAll_cons, ih, bare_add]

theorem generatedOf_add {r : MaterialRecord} {host : Int}
    (h : r.generatedOf.contains host = false) (generated : Int) :
    (r.add host generated).generatedOf = r.generatedOf ++ [(host, generated)] := by
  simp [add, Table.insertIfNew, h]

theorem contains_generatedOf_add {r : MaterialRecord} {host : Int}
    (h : r.generatedOf.contains host = false) (generated other : Int) :
    (r.add host generated).generatedOf.contains other = false ↔
      r.generatedOf.contains other = false ∧ other ≠ host := by
  simp only [generatedOf_add h, Table.contains_eq_false_iff, Table.keys_append, List.mem_append,
    Table.keys_cons, Table.keys_nil, List.mem_singleton, not_or]

theorem generatedOf_addAll {r : MaterialRecord} {pairs : List (Int × Int)}
    (hnew : ∀ p ∈ pairs, r.generatedOf.contains p.1 = false)
    (hdistinct : (Table.keys pairs).Nodup) :
    (r.addAll pairs).generatedOf = r.generatedOf ++ pairs := by
  induction pairs generalizing r with
  | nil => simp [addAll]
  | cons pair pairs ih =>
    obtain ⟨hpair, hpairs⟩ := List.forall_mem_cons.mp hnew
    obtain ⟨hfirst, hrest⟩ := List.nodup_cons.mp hdistinct
    rw [addAll_cons, ih _ hrest, generatedOf_add hpair, List.append_assoc]
    · rfl
    · intro p hp
      rw [contains_generatedOf_add hpair]
      exact ⟨hpairs p hp, fun h => hfirst (List.mem_map.mpr ⟨p, hp, h⟩)⟩

theorem generatedOf_bare_addAll (r : MaterialRecord) {pairs : List (Int × Int)}
    (h : (Table.keys pairs).Nodup) : (r.bare.addAll pairs).generatedOf = pairs :=
  generatedOf_addAll (fun _ _ => rfl) h

theorem agrees_rebuilt {r : MaterialRecord} (h : r.generatedOf.keys.Nodup) :
    r.Agrees r.rebuilt := by
  have hbare : r.rebuilt.bare = r.bare := bare_addAll _ _
  exact ⟨(congrArg handle hbare).symm, (congrArg materialId hbare).symm,
    (congrArg name hbare).symm, (generatedOf_bare_addAll r h).symm⟩

theorem built_rebuilt {r : MaterialRecord} (h : r.generatedOf.keys.Nodup) :
    r.rebuilt.Built :=
  ⟨r.generatedOf, h, by rw [rebuilt, bare_addAll]; rfl⟩

theorem Built.rebuilt_eq {r : MaterialRecord} (h : r.Built) : r.rebuilt = r := by
  obtain ⟨pairs, hdistinct, hr⟩ := h
  have hpairs : r.generatedOf = pairs := by rw [hr, generatedOf_bare_addAll r hdistinct]
  rw [rebuilt, hpairs, ← hr]

theorem Built.nodup {r : MaterialRecord} (h : r.Built) : r.generatedOf.keys.Nodup := by
  obtain ⟨pairs, hdistinct, hr⟩ := h
  rwa [hr, generatedOf_bare_addAll r hdistinct]

end MaterialRecord

namespace Attachment

/-! ### Slots -/

theorem encodeIndex?_eq_some_iff {n : Int} {xs : List UInt8} :
    encodeIndex? n = some xs ↔ xs.length = 4 ∧ n = Bytes.toInt xs := by
  unfold encodeIndex?
  constructor
  · intro h
    split_ifs at h with hn
    obtain rfl := Option.some.inj h
    exact ⟨Bytes.length_ofInt 4 n, (Bytes.toInt_ofInt hn).symm⟩
  · rintro ⟨hlen, rfl⟩
    rw [← hlen, if_pos (Bytes.fits_toInt xs), Bytes.ofInt_toInt]

theorem encodePair?_eq_some_iff {pair : Int × Int} {xs : List UInt8} :
    encodePair? pair = some xs ↔
      xs.length = 8 ∧ pair = (Bytes.toInt (xs.take 4), Bytes.toInt (xs.drop 4)) := by
  simp only [encodePair?, Option.bind_eq_bind, Option.bind_eq_some_iff, Option.pure_def,
    Option.some.injEq, encodeIndex?_eq_some_iff]
  constructor
  · rintro ⟨host, ⟨hhost, hpair₁⟩, generated, ⟨hgenerated, hpair₂⟩, rfl⟩
    refine ⟨by simp [hhost, hgenerated], ?_⟩
    rw [List.take_left' hhost, List.drop_left' hhost, ← hpair₁, ← hpair₂]
  · rintro ⟨hlen, rfl⟩
    exact ⟨xs.take 4, ⟨by simp [hlen], rfl⟩, xs.drop 4, ⟨by simp [hlen], rfl⟩,
      List.take_append_drop 4 xs⟩

theorem length_flatten_of_encodePair? {pairs : List (Int × Int)} {blocks : List (List UInt8)}
    (h : pairs.mapM encodePair? = some blocks) : blocks.flatten.length = pairs.length * 8 := by
  induction pairs generalizing blocks with
  | nil =>
    obtain rfl : blocks = [] := by simpa using h.symm
    rfl
  | cons pair pairs ih =>
    obtain ⟨block, blocks', hblock, hblocks, rfl⟩ := List.mapM_cons_eq_some.mp h
    rw [List.flatten_cons, List.length_append, (encodePair?_eq_some_iff.mp hblock).1, ih hblocks,
      List.length_cons]
    omega

theorem reads_pair : Reads Reader.pair fun pair xs => encodePair? pair = some xs := by
  refine ((reads_take 8 "sub-material mapping").map fun data =>
    (Bytes.toInt (data.take 4), Bytes.toInt (data.drop 4))).congr fun pair xs => ?_
  simp only [encodePair?_eq_some_iff, and_assoc, exists_eq_left]

theorem reads_pairs (n : Nat) (r : MaterialRecord) :
    Reads (Reader.pairs n r) fun r' xs =>
      ∃ pairs blocks, pairs.length = n ∧ pairs.mapM encodePair? = some blocks ∧
        xs = blocks.flatten ∧ (∀ p ∈ pairs, r.generatedOf.contains p.1 = false) ∧
        (Table.keys pairs).Nodup ∧ r' = r.addAll pairs := by
  induction n generalizing r with
  | zero =>
    refine (Reads.pure r).congr fun r' xs => ?_
    constructor
    · rintro ⟨rfl, rfl⟩
      exact ⟨[], [], rfl, rfl, rfl, by simp, List.nodup_nil, rfl⟩
    · rintro ⟨pairs, blocks, hlen, hblocks, rfl, _, _, rfl⟩
      obtain rfl := List.length_eq_zero_iff.mp hlen
      obtain rfl : blocks = [] := by simpa using hblocks.symm
      exact ⟨rfl, rfl⟩
  | succ n ih =>
    refine (reads_pair.bind fun pair => Reads.guarded (fun c => ⟨_, rfl⟩)
      (ih (r.add pair.1 pair.2))).congr fun r' xs => ?_
    simp only [Bool.not_eq_true]
    constructor
    · rintro ⟨pair, block, _, hblock, ⟨hnew, pairs, blocks, rfl, hblocks, rfl, hfresh, hdistinct,
        rfl⟩, rfl⟩
      have hfresh' := fun p hp =>
        (MaterialRecord.contains_generatedOf_add hnew _ _).mp (hfresh p hp)
      refine ⟨pair :: pairs, block :: blocks, rfl,
        List.mapM_cons_eq_some.mpr ⟨_, _, hblock, hblocks, rfl⟩, rfl, ?_, ?_, rfl⟩
      · exact List.forall_mem_cons.mpr ⟨hnew, fun p hp => (hfresh' p hp).1⟩
      · refine List.nodup_cons.mpr ⟨fun hmem => ?_, hdistinct⟩
        obtain ⟨p, hp, heq⟩ := List.mem_map.mp hmem
        exact (hfresh' p hp).2 heq
    · rintro ⟨pairs, blocks, hlen, hblocks, rfl, hfresh, hdistinct, rfl⟩
      obtain ⟨pair, pairs, rfl⟩ := List.exists_cons_of_length_eq_add_one hlen
      obtain ⟨block, blocks', hblock, hblocks', rfl⟩ := List.mapM_cons_eq_some.mp hblocks
      obtain ⟨hnew, hfresh⟩ := List.forall_mem_cons.mp hfresh
      obtain ⟨hfirst, hdistinct⟩ := List.nodup_cons.mp hdistinct
      refine ⟨pair, block, blocks'.flatten, hblock, ⟨hnew, pairs, blocks', by simpa using hlen,
        hblocks', rfl, fun p hp => ?_, hdistinct, rfl⟩, rfl⟩
      exact (MaterialRecord.contains_generatedOf_add hnew _ _).mpr
        ⟨hfresh p hp, fun h => hfirst (List.mem_map.mpr ⟨p, hp, h⟩)⟩

/-! ### Records -/

theorem encodeHandle?_eq_some_iff {handle : Int} {xs : List UInt8} :
    encodeHandle? handle = some xs ↔ ∃ n : Nat, handle = n ∧ encodeCount? n = some xs := by
  unfold encodeHandle?
  constructor
  · intro h
    split_ifs at h with hn
    exact ⟨handle.toNat, (Int.toNat_of_nonneg hn).symm, h⟩
  · rintro ⟨n, rfl, h⟩
    rw [if_pos (Int.natCast_nonneg n), Int.toNat_natCast, h]

theorem encodeRecord?_eq_some_iff {r : MaterialRecord} {xs : List UInt8} :
    encodeRecord? r = some xs ↔
      ∃ handle, encodeHandle? r.handle = some handle ∧
      ∃ id, (∃ data, ascii? r.materialId = some data ∧ encodeString? data [0] = some id) ∧
      ∃ name, (∃ data, utf16? r.name = some data ∧ encodeString? data [0, 0] = some name) ∧
      ∃ count, encodeCount? r.generatedOf.length = some count ∧
      ∃ blocks, r.generatedOf.mapM encodePair? = some blocks ∧
        xs = handle ++ (id ++ (name ++ (count ++ blocks.flatten))) := by
  simp only [encodeRecord?, Option.bind_eq_bind, Option.bind_eq_some_iff, Option.pure_def,
    Option.some.injEq, List.append_assoc, @eq_comm _ xs]
  constructor
  · rintro ⟨handle, hhandle, idData, hidData, id, hid, nameData, hnameData, name, hname, h⟩
    exact ⟨handle, hhandle, id, ⟨idData, hidData, hid⟩, name, ⟨nameData, hnameData, hname⟩, h⟩
  · rintro ⟨handle, hhandle, id, ⟨idData, hidData, hid⟩, name, ⟨nameData, hnameData, hname⟩, h⟩
    exact ⟨handle, hhandle, idData, hidData, id, hid, nameData, hnameData, name, hname, h⟩

theorem leastRecordSize_le {r : MaterialRecord} {xs : List UInt8} (h : encodeRecord? r = some xs) :
    Reader.leastRecordSize ≤ xs.length := by
  obtain ⟨handle, hhandle, id, ⟨_, _, hid⟩, name, ⟨_, _, hname⟩, count, hcount, blocks, _, rfl⟩ :=
    encodeRecord?_eq_some_iff.mp h
  obtain ⟨_, _, hhandle⟩ := encodeHandle?_eq_some_iff.mp hhandle
  obtain ⟨idCount, hidCount, rfl⟩ := encodeString?_eq_some_iff.mp hid
  obtain ⟨nameCount, hnameCount, rfl⟩ := encodeString?_eq_some_iff.mp hname
  have := (encodeCount?_eq_some_iff.mp hhandle).1
  have := (encodeCount?_eq_some_iff.mp hidCount).1
  have := (encodeCount?_eq_some_iff.mp hnameCount).1
  have := (encodeCount?_eq_some_iff.mp hcount).1
  simp only [Reader.leastRecordSize, List.length_append, List.length_cons, List.length_nil]
  omega

theorem encodeRecord?_congr {r s : MaterialRecord} (h : r.Agrees s) :
    encodeRecord? r = encodeRecord? s := by
  simp only [encodeRecord?, h.handle, h.materialId, h.name, h.generatedOf]

theorem reads_record :
    Reads Reader.record fun r xs => encodeRecord? r = some xs ∧ r.Built := by
  refine ((reads_count _).bind fun handle => (reads_asciiString _).bind fun materialId =>
    (reads_utf16String _).bind fun name => (reads_count _).bind fun n =>
      Reads.enough (fun c => ⟨_, rfl⟩)
        (reads_pairs n { handle := (handle : Int), materialId, name }) ?_).congr fun r xs => ?_
  · rintro r xs ⟨pairs, blocks, rfl, hblocks, rfl, _⟩
    exact (length_flatten_of_encodePair? hblocks).ge
  · rw [encodeRecord?_eq_some_iff]
    constructor
    · rintro ⟨handle, handleBytes, _, hhandle, ⟨materialId, id, _, hid, ⟨name, nameBytes, _, hname,
        ⟨n, count, _, hcount, ⟨pairs, blocks, rfl, hblocks, rfl, _, hdistinct, rfl⟩, rfl⟩, rfl⟩,
        rfl⟩, rfl⟩
      set r : MaterialRecord := { handle := (handle : Int), materialId, name } with hr
      have hbare : (r.addAll pairs).bare = r := MaterialRecord.bare_addAll r pairs
      have hpairs : (r.addAll pairs).generatedOf = pairs :=
        MaterialRecord.generatedOf_bare_addAll r hdistinct
      have hhandle' : (r.addAll pairs).handle = handle := congrArg MaterialRecord.handle hbare
      have hid' : (r.addAll pairs).materialId = materialId :=
        congrArg MaterialRecord.materialId hbare
      have hname' : (r.addAll pairs).name = name := congrArg MaterialRecord.name hbare
      rw [hhandle', hid', hname', hpairs]
      refine ⟨⟨_, encodeHandle?_eq_some_iff.mpr ⟨_, rfl, hhandle⟩, id, hid, nameBytes, hname, count,
        hcount, blocks, hblocks, rfl⟩, pairs, hdistinct, ?_⟩
      rw [hbare]
    · rintro ⟨⟨handleBytes, hhandle, id, hid, name, hname, count, hcount, blocks, hblocks, rfl⟩,
        hbuilt⟩
      obtain ⟨handle, hhandle', hhandle⟩ := encodeHandle?_eq_some_iff.mp hhandle
      refine ⟨handle, handleBytes, _, hhandle, ⟨r.materialId, id, _, hid, ⟨r.name, name, _, hname,
        ⟨r.generatedOf.length, count, _, hcount, ⟨r.generatedOf, blocks, rfl, hblocks, rfl,
          fun _ _ => rfl, hbuilt.nodup, ?_⟩, rfl⟩, rfl⟩, rfl⟩, rfl⟩
      rw [← hhandle']
      exact hbuilt.rebuilt_eq.symm

theorem reads_recordList (n : Nat) :
    Reads (Reader.recordList n) fun rs xs =>
      ∃ blocks, rs.length = n ∧ rs.mapM encodeRecord? = some blocks ∧ xs = blocks.flatten ∧
        ∀ r ∈ rs, r.Built := by
  induction n with
  | zero =>
    refine (Reads.pure []).congr fun rs xs => ?_
    constructor
    · rintro ⟨rfl, rfl⟩
      exact ⟨[], rfl, rfl, rfl, by simp⟩
    · rintro ⟨blocks, hlen, hblocks, rfl, _⟩
      obtain rfl := List.length_eq_zero_iff.mp hlen
      obtain rfl : blocks = [] := by simpa using hblocks.symm
      exact ⟨rfl, rfl⟩
  | succ n ih =>
    refine (reads_record.bind fun r => ih.map (r :: ·)).congr fun rs xs => ?_
    constructor
    · rintro ⟨r, block, _, ⟨hblock, hr⟩, ⟨rs, ⟨blocks, rfl, hblocks, rfl, hrs⟩, rfl⟩, rfl⟩
      exact ⟨block :: blocks, rfl, List.mapM_cons_eq_some.mpr ⟨_, _, hblock, hblocks, rfl⟩, rfl,
        List.forall_mem_cons.mpr ⟨hr, hrs⟩⟩
    · rintro ⟨blocks, hlen, hblocks, rfl, hrs⟩
      obtain ⟨r, rs, rfl⟩ := List.exists_cons_of_length_eq_add_one hlen
      obtain ⟨block, blocks', hblock, hblocks', rfl⟩ := List.mapM_cons_eq_some.mp hblocks
      obtain ⟨hr, hrs⟩ := List.forall_mem_cons.mp hrs
      exact ⟨r, block, blocks'.flatten, ⟨hblock, hr⟩,
        ⟨rs, ⟨blocks', by simpa using hlen, hblocks', rfl, hrs⟩, rfl⟩, rfl⟩

theorem leastRecordSize_mul_le {rs : List MaterialRecord} {blocks : List (List UInt8)}
    (h : rs.mapM encodeRecord? = some blocks) :
    rs.length * Reader.leastRecordSize ≤ blocks.flatten.length := by
  induction rs generalizing blocks with
  | nil => simp
  | cons r rs ih =>
    obtain ⟨block, blocks', hblock, hblocks, rfl⟩ := List.mapM_cons_eq_some.mp h
    have := leastRecordSize_le hblock
    have := ih hblocks
    rw [List.flatten_cons, List.length_append, List.length_cons, Nat.add_one_mul]
    omega

/-! ### Whole attachments -/

theorem mapM_encodeRecord_eq_ok_iff {rs : List MaterialRecord} {blocks : List (List UInt8)} :
    rs.mapM encodeRecord = .ok blocks ↔ rs.mapM encodeRecord? = some blocks := by
  induction rs generalizing blocks with
  | nil =>
    change Except.ok [] = .ok blocks ↔ some [] = some blocks
    simp
  | cons r rs ih =>
    rw [List.mapM_cons, List.mapM_cons_eq_some]
    simp only [← ih]
    cases hr : encodeRecord? r with
    | none => simp [encodeRecord, hr, Bind.bind, Except.bind]
    | some block =>
      cases rs.mapM encodeRecord with
      | error e => simp [encodeRecord, hr, Bind.bind, Except.bind]
      | ok blocks' =>
        simp [encodeRecord, hr, Bind.bind, Except.bind, Pure.pure, Except.pure, eq_comm]

theorem encode_eq_ok_iff {rs : List MaterialRecord} {bytes : List UInt8} :
    encode rs = .ok bytes ↔
      ∃ count blocks, encodeCount? rs.length = some count ∧
        rs.mapM encodeRecord? = some blocks ∧ bytes = count ++ blocks.flatten := by
  unfold encode
  cases hcount : encodeCount? rs.length with
  | none => simp
  | some count =>
    simp only [← mapM_encodeRecord_eq_ok_iff]
    cases hrs : rs.mapM encodeRecord with
    | error e => simp [Bind.bind, Except.bind]
    | ok blocks => simp [Bind.bind, Except.bind, Pure.pure, Except.pure, eq_comm]

theorem encodeRecord_congr {r s : MaterialRecord} (h : r.Agrees s) :
    encodeRecord r = encodeRecord s := by
  simp only [encodeRecord, encodeRecord?_congr h, h.name]

theorem encode_congr {rs ss : List MaterialRecord} (h : List.Forall₂ MaterialRecord.Agrees rs ss) :
    encode rs = encode ss := by
  have hblocks : rs.mapM encodeRecord = ss.mapM encodeRecord := by
    induction h with
    | nil => rfl
    | cons hr _ ih => rw [List.mapM_cons, List.mapM_cons, ih, encodeRecord_congr hr]
  simp only [encode, h.length_eq, hblocks]

theorem run_records_eq_ok_iff {c c' : Cursor} {rs : List MaterialRecord} :
    Reader.records.run c = .ok (rs, c') ↔
      (encode rs = .ok c.rest ∧ ∀ r ∈ rs, r.Built) ∧ c' = ⟨c.offset + c.rest.length, []⟩ := by
  have hrun (n : Nat) (c₁ : Cursor) := run_trailing (c := c₁) (d := c') (a := rs)
    (q := fun left _ => throw (.trailing left)) (reads_recordList n) (fun _ _ _ => ⟨_, rfl⟩)
  have hguard (n : Nat) (c₁ : Cursor) := run_enough (c := c₁) (d := c') (a := rs)
    (k := n * Reader.leastRecordSize) (q := throw (.tooManyRecords n)) (fun _ => ⟨_, rfl⟩)
    (fun h => by
      obtain ⟨⟨blocks, rfl, hblocks, hrest, _⟩, _⟩ := (hrun n c₁).mp h
      rw [hrest]
      exact leastRecordSize_mul_le hblocks)
  have hbody : Reader.records.run c = .ok (rs, c') ↔ ∃ n c₁,
      (Reader.count "material count").run c = .ok (n, c₁) ∧
        (∃ blocks, rs.length = n ∧ rs.mapM encodeRecord? = some blocks ∧
          c₁.rest = blocks.flatten ∧ ∀ r ∈ rs, r.Built) ∧
        c' = ⟨c₁.offset + c₁.rest.length, []⟩ :=
    run_bind_eq_ok.trans <| exists_congr fun n => exists_congr fun c₁ =>
      and_congr_right' ((hguard n c₁).trans (hrun n c₁))
  rw [hbody, encode_eq_ok_iff]
  simp only [reads_count "material count" c]
  constructor
  · rintro ⟨_, c₁, ⟨count, hcount, hrest, hoffset⟩, ⟨blocks, rfl, hblocks, hrest', hbuilt⟩, rfl⟩
    refine ⟨⟨⟨count, blocks, hcount, hblocks, by rw [hrest, hrest']⟩, hbuilt⟩, ?_⟩
    rw [hrest, hoffset, List.length_append, Nat.add_assoc]
  · rintro ⟨⟨⟨count, blocks, hcount, hblocks, hrest⟩, hbuilt⟩, rfl⟩
    refine ⟨_, ⟨c.offset + count.length, blocks.flatten⟩, ⟨count, hcount, hrest, rfl⟩,
      ⟨blocks, rfl, hblocks, rfl, hbuilt⟩, ?_⟩
    rw [hrest, List.length_append, Nat.add_assoc]

/-- The plain layout: exactly the written bytes are read. -/
theorem decode_eq_ok_iff {bytes : List UInt8} {rs : List MaterialRecord} :
    decode bytes = .ok rs ↔ encode rs = .ok bytes ∧ ∀ r ∈ rs, r.Built := by
  rw [decode, run'_eq_ok]
  simp only [run_records_eq_ok_iff]
  simp [Cursor.ofBytes]

theorem encodeVersioned_eq_ok_iff {rs : List MaterialRecord} {bytes : List UInt8} :
    encodeVersioned rs = .ok bytes ↔
      ∃ plain, encode rs = .ok plain ∧ bytes = magic ++ Bytes.ofNat 4 version ++ plain := by
  unfold encodeVersioned
  cases encode rs with
  | error e => simp [Bind.bind, Except.bind]
  | ok plain => simp [Bind.bind, Except.bind, Pure.pure, Except.pure, eq_comm]

/-- The versioned layout: exactly the written bytes are read. -/
theorem decodeVersioned_eq_ok_iff {bytes : List UInt8} {rs : List MaterialRecord} :
    decodeVersioned bytes = .ok rs ↔ encodeVersioned rs = .ok bytes ∧ ∀ r ∈ rs, r.Built := by
  have hbody : decodeVersioned bytes = .ok rs ↔ ∃ (c' : Cursor) (header : List UInt8) (c₁ : Cursor),
      (Reader.take 8 "attachment header").run (.ofBytes bytes) = .ok (header, c₁) ∧
        ¬ header.take 4 ≠ magic ∧
        ¬ (Bytes.toNat (header.drop 4) < 1 ∨ version < Bytes.toNat (header.drop 4)) ∧
        (encode rs = .ok c₁.rest ∧ ∀ r ∈ rs, r.Built) ∧
          c' = ⟨c₁.offset + c₁.rest.length, []⟩ := by
    rw [decodeVersioned, run'_eq_ok]
    refine exists_congr fun c' => run_bind_eq_ok.trans <|
      exists_congr fun header => exists_congr fun c₁ => and_congr_right' ?_
    have hmagic (c : Cursor) : ∃ e, (throw (.unknownMagic (header.take 4)) :
        Reader (List MaterialRecord)).run c = .error e := ⟨_, rfl⟩
    have hversion (c : Cursor) : ∃ e, (throw (.unknownVersion (Bytes.toNat (header.drop 4))) :
        Reader (List MaterialRecord)).run c = .error e := ⟨_, rfl⟩
    exact (run_guarded hmagic).trans (and_congr_right'
      ((run_guarded hversion).trans (and_congr_right' run_records_eq_ok_iff)))
  rw [hbody, encodeVersioned_eq_ok_iff]
  simp only [Cursor.ofBytes, reads_take 8 "attachment header" ⟨0, bytes⟩, not_not]
  constructor
  · rintro ⟨_, header, c₁, ⟨_, ⟨rfl, hlen⟩, rfl, _⟩, hmagic, hversion, ⟨hplain, hbuilt⟩, _⟩
    have hone : Bytes.toNat (header.drop 4) = version := by
      unfold version at hversion ⊢
      omega
    have hdrop : Bytes.ofNat 4 version = header.drop 4 := by
      have hfour : (header.drop 4).length = 4 := by simp [hlen]
      have hback := Bytes.ofNat_toNat (header.drop 4)
      rwa [hfour, hone] at hback
    refine ⟨⟨c₁.rest, hplain, ?_⟩, hbuilt⟩
    rw [hdrop, ← hmagic, List.take_append_drop]
  · rintro ⟨⟨plain, hplain, rfl⟩, hbuilt⟩
    exact ⟨_, magic ++ Bytes.ofNat 4 version, ⟨8, plain⟩, ⟨_, ⟨rfl, rfl⟩, rfl, rfl⟩, rfl, by decide,
      ⟨hplain, hbuilt⟩, rfl⟩

end Attachment

end ShadeGraph
