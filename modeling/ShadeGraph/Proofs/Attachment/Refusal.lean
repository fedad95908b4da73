import ShadeGraph.Identity.Registry
import ShadeGraph.Proofs.Attachment.RoundTrip

/-!
# Refused bytes

Whatever bytes are read, the outcome is a list of records or an error that is right about these bytes:
no reader goes past the end, whatever the counts in front claim. These counts tell where an attachment
ends, so nothing that is accepted is the beginning of anything else that is accepted. A session that
is given refused bytes goes on with the registry it had.
-/

namespace ShadeGraph.Attachment

/-- What an error says of the bytes that were read. -/
def FormatError.Tells (bytes : List UInt8) : FormatError → Prop
  | truncated _ size offset left =>
    size < 2 ^ 64 ∧ offset + left = bytes.length ∧ left < size
  | unterminated _ offset => offset ≤ bytes.length
  | notAscii _ => ∃ b ∈ bytes, 0x80 ≤ b
  | tooManyMappings _ count => count < 2 ^ 64 ∧ ∃ left ≤ bytes.length, left < count * 8
  | tooManyRecords count =>
    count < 2 ^ 64 ∧ ∃ left ≤ bytes.length, left < count * Reader.leastRecordSize
  | trailing count => 0 < count ∧ count ≤ bytes.length
  | unknownMagic start => start = bytes.take 4 ∧ start ≠ magic
  | unknownVersion v => v = Bytes.toNat ((bytes.take 8).drop 4) ∧ v ≠ version
  | notUtf16 _ | repeatedSlot _ _ => True

/-- The cursor stands at some place of these bytes. -/
structure Cursor.Within (bytes : List UInt8) (c : Cursor) : Prop where
  offset_le : c.offset ≤ bytes.length
  rest : c.rest = bytes.drop c.offset

/-- Wherever the reader starts, it gives a value as told and stops within the bytes, or it gives an
error that is right about them. -/
def Checked {β : Type} (bytes : List UInt8) (p : Reader β) (Q : β → Prop) : Prop :=
  ∀ c : Cursor, c.Within bytes →
    (∃ b d, p.run c = .ok (b, d) ∧ Q b ∧ d.Within bytes) ∨ ∃ e, p.run c = .error e ∧ e.Tells bytes

section

variable {β γ : Type} {bytes : List UInt8} {p q : Reader β} {Q : β → Prop}

theorem Cursor.Within.length_rest {c : Cursor} (h : c.Within bytes) :
    c.offset + c.rest.length = bytes.length := by
  have := h.offset_le
  rw [h.rest, List.length_drop]
  omega

namespace Checked

theorem pure {b : β} (hb : Q b) : Checked bytes (pure b) Q :=
  fun c hc => .inl ⟨b, c, rfl, hb, hc⟩

theorem bind {f : β → Reader γ} {R : γ → Prop} (hp : Checked bytes p Q)
    (hf : ∀ b, Q b → Checked bytes (f b) R) : Checked bytes (p >>= f) R := by
  intro c hc
  rw [StateT.run_bind]
  rcases hp c hc with ⟨b, d, hrun, hb, hd⟩ | ⟨e, hrun, he⟩
  · rw [hrun]
    exact hf b hb d hd
  · rw [hrun]
    exact .inr ⟨e, rfl, he⟩

/-- A test that refuses does so with an error that is right. -/
theorem guarded {P : Prop} [Decidable P]
    (hq : P → ∀ c : Cursor, c.Within bytes → ∃ e, q.run c = .error e ∧ e.Tells bytes)
    (hp : ¬ P → Checked bytes p Q) : Checked bytes (if P then q else p) Q := by
  intro c hc
  split_ifs with h
  · exact .inr (hq h c hc)
  · exact hp h c hc

theorem remaining : Checked bytes Reader.remaining fun left => left ≤ bytes.length := by
  intro c hc
  have hlength := hc.length_rest
  exact .inl ⟨c.rest.length, c, rfl, by omega, hc⟩

end Checked

/-! ### Every reader is checked -/

theorem checked_take {size : Nat} (hsize : size < 2 ^ 64) (what : String) :
    Checked bytes (Reader.take size what) fun data =>
      data.length = size ∧ ∀ b ∈ data, b ∈ bytes := by
  intro c hc
  have hlength := hc.length_rest
  by_cases hleft : c.rest.length < size
  · exact .inr ⟨_, run_take_of_lt hleft, hsize, hlength, hleft⟩
  · have hle := Nat.le_of_not_lt hleft
    refine .inl ⟨_, _, run_take_of_le hle, ⟨List.length_take_of_le hle, ?_⟩, ?_, ?_⟩
    · intro b hb
      have hrest := List.mem_of_mem_take hb
      rw [hc.rest] at hrest
      exact List.mem_of_mem_drop hrest
    · change c.offset + size ≤ bytes.length
      omega
    · rw [hc.rest, List.drop_drop]

theorem checked_count (what : String) :
    Checked bytes (Reader.count what) fun n => n < 2 ^ 64 := by
  apply (checked_take (by norm_num) what).bind
  rintro data ⟨hlen, _⟩
  apply Checked.pure
  have hlt := Bytes.toNat_lt data
  have hmodulus : Bytes.modulus 8 = 2 ^ 64 := by decide
  rwa [hlen, hmodulus] at hlt

theorem checked_terminated (what : String) (terminator : List UInt8) :
    Checked bytes (Reader.terminated what terminator) fun data => ∀ b ∈ data, b ∈ bytes := by
  apply (checked_count _).bind
  intro length hlength
  apply (checked_take hlength what).bind
  rintro data ⟨_, hdata⟩
  apply Checked.guarded
  · intro _ c hc
    refine ⟨.unterminated what (c.offset - length), rfl, ?_⟩
    exact (Nat.sub_le c.offset length).trans hc.offset_le
  · intro _
    apply Checked.pure
    intro b hb
    exact hdata b (List.mem_of_mem_take hb)

theorem checked_asciiString (what : String) :
    Checked bytes (Reader.asciiString what) fun _ => True := by
  apply (checked_terminated what [0]).bind
  intro data hdata
  apply Checked.guarded
  · intro hany c _
    obtain ⟨b, hb, hlarge⟩ := List.any_eq_true.mp hany
    exact ⟨.notAscii what, rfl, b, hdata b hb, by simpa using hlarge⟩
  · exact fun _ => Checked.pure trivial

theorem checked_utf16String (what : String) :
    Checked bytes (Reader.utf16String what) fun _ => True := by
  apply (checked_terminated what [0, 0]).bind
  intro data _
  split
  · exact Checked.pure trivial
  · exact fun c _ => .inr ⟨.notUtf16 what, rfl, trivial⟩

theorem checked_pairs (n : Nat) (r : MaterialRecord) :
    Checked bytes (Reader.pairs n r) fun _ => True := by
  induction n generalizing r with
  | zero => exact Checked.pure trivial
  | succ n ih =>
    have hpair : Checked bytes Reader.pair fun _ => True :=
      (checked_take (by norm_num) _).bind fun _ _ => Checked.pure trivial
    apply hpair.bind
    rintro ⟨host, generated⟩ _
    apply Checked.guarded
    · exact fun _ c _ => ⟨.repeatedSlot r.name host, rfl, trivial⟩
    · exact fun _ => ih (r.add host generated)

theorem checked_record : Checked bytes Reader.record fun _ => True := by
  apply (checked_count _).bind
  intro handle _
  apply (checked_asciiString _).bind
  intro materialId _
  apply (checked_utf16String _).bind
  intro name _
  apply (checked_count _).bind
  intro n hn
  apply Checked.remaining.bind
  intro left hleft
  apply Checked.guarded
  · exact fun hmany c _ => ⟨.tooManyMappings name n, rfl, hn, left, hleft, hmany⟩
  · exact fun _ => checked_pairs n _

theorem checked_recordList (n : Nat) : Checked bytes (Reader.recordList n) fun _ => True := by
  induction n with
  | zero => exact Checked.pure trivial
  | succ n ih =>
    apply checked_record.bind
    intro r _
    apply ih.bind
    exact fun _ _ => Checked.pure trivial

theorem checked_records : Checked bytes Reader.records fun _ => True := by
  apply (checked_count _).bind
  intro n hn
  apply Checked.remaining.bind
  intro left hleft
  apply Checked.guarded
  · exact fun hmany c _ => ⟨.tooManyRecords n, rfl, hn, left, hleft, hmany⟩
  · intro _
    apply (checked_recordList n).bind
    intro rs _
    apply Checked.remaining.bind
    intro left hleft
    apply Checked.guarded
    · exact fun hmore c _ => ⟨.trailing left, rfl, Nat.pos_of_ne_zero hmore, hleft⟩
    · exact fun _ => Checked.pure trivial

/-! ### Whole attachments -/

theorem within_ofBytes (bytes : List UInt8) : (Cursor.ofBytes bytes).Within bytes :=
  ⟨Nat.zero_le _, rfl⟩

theorem outcome_of_run {c : Cursor}
    (h : (∃ b d, p.run c = .ok (b, d) ∧ Q b ∧ d.Within bytes) ∨
      ∃ e, p.run c = .error e ∧ e.Tells bytes) :
    (∃ b, p.run' c = .ok b) ∨ ∃ e, p.run' c = .error e ∧ e.Tells bytes := by
  have hrun' : p.run' c = (·.1) <$> p.run c := rfl
  rcases h with ⟨b, d, hrun, _⟩ | ⟨e, hrun, he⟩
  · exact .inl ⟨b, by rw [hrun', hrun]; rfl⟩
  · exact .inr ⟨e, by rw [hrun', hrun]; rfl, he⟩

theorem decode_outcome (bytes : List UInt8) :
    (∃ rs, decode bytes = .ok rs) ∨ ∃ e, decode bytes = .error e ∧ e.Tells bytes :=
  outcome_of_run (checked_records _ (within_ofBytes bytes))

theorem decodeVersioned_outcome (bytes : List UInt8) :
    (∃ rs, decodeVersioned bytes = .ok rs) ∨
      ∃ e, decodeVersioned bytes = .error e ∧ e.Tells bytes := by
  apply outcome_of_run (Q := fun _ => True)
  rw [Reader.versionedRecords, StateT.run_bind]
  by_cases hleft : bytes.length < 8
  · have hshort : (Cursor.ofBytes bytes).rest.length < 8 := hleft
    rw [run_take_of_lt hshort]
    exact .inr ⟨_, rfl, by norm_num, (within_ofBytes bytes).length_rest, hleft⟩
  -- The header lies at the front, so an error about it can name its bytes.
  · have hle : 8 ≤ (Cursor.ofBytes bytes).rest.length := Nat.le_of_not_lt hleft
    have hbody : Checked bytes (do
        let start := (bytes.take 8).take 4
        let v := Bytes.toNat ((bytes.take 8).drop 4)
        if start ≠ magic then throw (.unknownMagic start)
        if v < 1 ∨ version < v then throw (.unknownVersion v)
        Reader.records) fun _ => True := by
      apply Checked.guarded
      · intro hmagic c _
        refine ⟨_, rfl, ?_, hmagic⟩
        rw [List.take_take]
        rfl
      · intro _
        apply Checked.guarded
        · intro hversion c _
          refine ⟨_, rfl, rfl, ?_⟩
          have hone : version = 1 := rfl
          omega
        · exact fun _ => checked_records
    rw [run_take_of_le hle]
    exact hbody _ ⟨hle, rfl⟩

end

/-! ### Where an attachment ends -/

/-- The reader of whole attachments, before it looks at what is left. -/
theorem reads_counted :
    Reads (do Reader.recordList (← Reader.count "material count")) fun rs xs =>
      encode rs = .ok xs ∧ ∀ r ∈ rs, r.Built := by
  apply ((reads_count _).bind fun n => reads_recordList n).congr
  intro rs xs
  rw [encode_eq_ok_iff]
  constructor
  · rintro ⟨_, count, _, hcount, ⟨blocks, rfl, hblocks, rfl, hbuilt⟩, rfl⟩
    exact ⟨⟨count, blocks, hcount, hblocks, rfl⟩, hbuilt⟩
  · rintro ⟨⟨count, blocks, hcount, hblocks, rfl⟩, hbuilt⟩
    exact ⟨_, count, _, hcount, ⟨blocks, rfl, hblocks, rfl, hbuilt⟩, rfl⟩

/-- No accepted bytes are the beginning of others. -/
def PrefixFree (read : List UInt8 → Except FormatError (List MaterialRecord)) : Prop :=
  ∀ {bytes more rs rs'}, read bytes = .ok rs → read (bytes ++ more) = .ok rs' → more = []

theorem prefixFree_decode : PrefixFree decode := by
  intro bytes more rs rs' h h'
  exact reads_counted.eq_nil_of_append (decode_eq_ok_iff.mp h) (decode_eq_ok_iff.mp h')

theorem prefixFree_decodeVersioned : PrefixFree decodeVersioned := by
  intro bytes more rs rs' h h'
  obtain ⟨hbytes, hbuilt⟩ := decodeVersioned_eq_ok_iff.mp h
  obtain ⟨hmore, hbuilt'⟩ := decodeVersioned_eq_ok_iff.mp h'
  obtain ⟨plain, hplain, rfl⟩ := encodeVersioned_eq_ok_iff.mp hbytes
  obtain ⟨plain', hplain', hsame⟩ := encodeVersioned_eq_ok_iff.mp hmore
  rw [List.append_assoc] at hsame
  obtain rfl := List.append_cancel_left hsame
  exact reads_counted.eq_nil_of_append ⟨hplain, hbuilt⟩ ⟨hplain', hbuilt'⟩

/-- Accepted bytes are enough to tell the layout. -/
theorem four_le_length_of_read {bytes : List UInt8} {rs : List MaterialRecord}
    (h : read bytes = .ok rs) : 4 ≤ bytes.length := by
  unfold read at h
  split_ifs at h
  · obtain ⟨plain, _, rfl⟩ := encodeVersioned_eq_ok_iff.mp (decodeVersioned_eq_ok_iff.mp h).1
    simp [magic]
  · obtain ⟨count, blocks, hcount, _, rfl⟩ := encode_eq_ok_iff.mp (decode_eq_ok_iff.mp h).1
    have hlen := (encodeCount?_eq_some_iff.mp hcount).1
    rw [List.length_append]
    omega

theorem prefixFree_read : PrefixFree read := by
  intro bytes more rs rs' h h'
  have hlayout : isVersioned (bytes ++ more) = isVersioned bytes := by
    rw [isVersioned, isVersioned, List.take_append_of_le_length (four_le_length_of_read h)]
  unfold read at h h'
  rw [hlayout] at h'
  split_ifs at h h'
  · exact prefixFree_decodeVersioned h h'
  · exact prefixFree_decode h h'

theorem read_outcome (bytes : List UInt8) :
    (∃ rs, read bytes = .ok rs) ∨ ∃ e, read bytes = .error e ∧ e.Tells bytes := by
  unfold read
  split_ifs
  · exact decodeVersioned_outcome bytes
  · exact decode_outcome bytes

/-! ### Refusing -/

/-- Bytes give records or an error that is right about them, and not one byte of what is accepted can
be left out at the end or put behind it. -/
structure FailsClosed (read : List UInt8 → Except FormatError (List MaterialRecord)) : Prop where
  outcome : ∀ bytes, (∃ rs, read bytes = .ok rs) ∨ ∃ e, read bytes = .error e ∧ e.Tells bytes
  shorter : ∀ bytes more rs, more ≠ [] → read (bytes ++ more) = .ok rs → ∃ e, read bytes = .error e
  longer : ∀ bytes more rs, more ≠ [] → read bytes = .ok rs → ∃ e, read (bytes ++ more) = .error e

theorem PrefixFree.failsClosed {read : List UInt8 → Except FormatError (List MaterialRecord)}
    (hread : PrefixFree read)
    (houtcome : ∀ bytes, (∃ rs, read bytes = .ok rs) ∨ ∃ e, read bytes = .error e ∧ e.Tells bytes) :
    FailsClosed read where
  outcome := houtcome
  shorter bytes more rs hmore h := by
    rcases houtcome bytes with ⟨rs', h'⟩ | ⟨e, he, _⟩
    · exact absurd (hread h' h) hmore
    · exact ⟨e, he⟩
  longer bytes more rs hmore h := by
    rcases houtcome (bytes ++ more) with ⟨rs', h'⟩ | ⟨e, he, _⟩
    · exact absurd (hread h h') hmore
    · exact ⟨e, he⟩

theorem run_loadAttachment_of_error {bytes : List UInt8} {e : FormatError} (s : Registrar)
    (h : read bytes = .error e) : (Registrar.loadAttachment bytes).run s = (.error e, s) := by
  have hload : s.registry.loadAttachment bytes = .error e := by
    rw [Registry.loadAttachment, h]
    rfl
  simp only [Registrar.loadAttachment, StateT.run_bind, StateT.run_get, pure_bind, hload]
  rfl

/-- All three readers refuse whatever is no attachment, and only that. A session that is given such
bytes stays as it is. -/
theorem readers_failClosed :
    FailsClosed decode ∧ FailsClosed decodeVersioned ∧ FailsClosed read ∧
      ∀ bytes e (s : Registrar), read bytes = .error e →
        (Registrar.loadAttachment bytes).run s = (.error e, s) := by
  refine ⟨prefixFree_decode.failsClosed decode_outcome,
    prefixFree_decodeVersioned.failsClosed decodeVersioned_outcome,
    prefixFree_read.failsClosed read_outcome, ?_⟩
  intro bytes e s h
  exact run_loadAttachment_of_error s h

/-- A plain material called R, which is the first generated one. -/
def redRecord : MaterialRecord :=
  ({ handle := 10, materialId := "a", name := ⟨[CodePoint.ofNat 0x52]⟩ } : MaterialRecord).add 0 0

/-- Count, handle, id, name and one slot, without the last byte. -/
def redStart : List UInt8 :=
  [1, 0, 0, 0, 0, 0, 0, 0] ++ [10, 0, 0, 0, 0, 0, 0, 0] ++ [2, 0, 0, 0, 0, 0, 0, 0, 0x61, 0] ++
    [4, 0, 0, 0, 0, 0, 0, 0, 0x52, 0, 0, 0] ++ [1, 0, 0, 0, 0, 0, 0, 0] ++ [0, 0, 0, 0, 0, 0, 0]

/-- A session that has loaded this record. -/
def redSession : Registrar := { registry := ({} : Registry).load [redRecord] }

/-- Without its last byte the attachment is refused, and the session keeps its record. -/
theorem readers_failClosed_cut :
    read (redStart ++ [0]) = .ok [redRecord] ∧ ∃ e, read redStart = .error e ∧
      (Registrar.loadAttachment redStart).run redSession = (.error e, redSession) := by
  have hwhole : read (redStart ++ [0]) = .ok [redRecord] := by decide +kernel
  obtain ⟨_, _, hread, hload⟩ := readers_failClosed
  obtain ⟨e, he⟩ := hread.shorter redStart [0] _ (by simp) hwhole
  exact ⟨hwhole, e, he, hload redStart e redSession he⟩

end ShadeGraph.Attachment
