import Mathlib.Tactic
import ShadeGraph.Identity.Attachment

/-!
# Fields of the attachment

Every kind of field is read back as it was written, and only what is written for some value can be
read: signed numbers in two's complement, ASCII texts, and names as pairs of bytes.
-/

theorem List.mapM_cons_eq_some {α β : Type} {f : α → Option β} {a : α} {l : List α}
    {bs : List β} :
    (a :: l).mapM f = some bs ↔
      ∃ b bs', f a = some b ∧ l.mapM f = some bs' ∧ bs = b :: bs' := by
  simp only [List.mapM_cons, Option.bind_eq_bind, Option.bind_eq_some_iff, Option.pure_def,
    Option.some.injEq]
  constructor
  · rintro ⟨b, hb, bs', hbs, rfl⟩
    exact ⟨b, bs', hb, hbs, rfl⟩
  · rintro ⟨b, bs', hb, hbs, rfl⟩
    exact ⟨b, hb, bs', hbs, rfl⟩

theorem List.exists_mapM_eq_some_iff {α β : Type} {f : α → Option β} {l : List α} :
    (∃ bs, l.mapM f = some bs) ↔ ∀ a ∈ l, ∃ b, f a = some b := by
  induction l with
  | nil => simp
  | cons a l ih =>
    simp only [List.mapM_cons_eq_some, List.forall_mem_cons, ← ih]
    constructor
    · rintro ⟨_, b, bs, hb, hbs, rfl⟩
      exact ⟨⟨b, hb⟩, bs, hbs⟩
    · rintro ⟨⟨b, hb⟩, bs, hbs⟩
      exact ⟨b :: bs, b, bs, hb, hbs, rfl⟩

theorem List.length_of_mapM_eq_some {α β : Type} {f : α → Option β} {l : List α} {bs : List β}
    (h : l.mapM f = some bs) : bs.length = l.length := by
  induction l generalizing bs with
  | nil =>
    obtain rfl : bs = [] := by simpa using h.symm
    rfl
  | cons a l ih =>
    obtain ⟨b, bs', _, hbs, rfl⟩ := List.mapM_cons_eq_some.mp h
    simp [ih hbs]

namespace ShadeGraph

namespace Bytes

/-! ### Signed numbers -/

theorem modulus_pos (width : Nat) : 0 < modulus width := Nat.pow_pos (by decide)

@[simp] theorem length_ofInt (width : Nat) (n : Int) : (ofInt width n).length = width :=
  length_ofNat _ _

theorem toInt_ofInt {width : Nat} {n : Int} (h : Fits width n) : toInt (ofInt width n) = n := by
  obtain ⟨low, high⟩ := h
  have hpos : (0 : Int) < modulus width := by exact_mod_cast modulus_pos width
  have hmod : toNat (ofInt width n) = (n % modulus width).toNat := by
    rw [ofInt, toNat_ofNat, Nat.mod_eq_of_lt]
    have := Int.emod_lt_of_pos n hpos
    have := Int.emod_nonneg n hpos.ne'
    omega
  have hvalue : n % modulus width = if 0 ≤ n then n else n + modulus width := by
    split_ifs with hn
    · exact Int.emod_eq_of_lt hn (by omega)
    · rw [← Int.add_emod_right]
      exact Int.emod_eq_of_lt (by omega) (by omega)
  simp only [toInt, length_ofInt, hmod, hvalue]
  split_ifs <;> omega

theorem ofInt_toInt (bytes : List UInt8) : ofInt bytes.length (toInt bytes) = bytes := by
  have hlt := toNat_lt bytes
  have hmod : (toInt bytes % modulus bytes.length).toNat = toNat bytes := by
    unfold toInt
    dsimp only
    split_ifs
    · rw [Int.emod_eq_of_lt (by omega) (by omega)]
      exact Int.toNat_natCast _
    · rw [← Int.add_emod_right, Int.sub_add_cancel, Int.emod_eq_of_lt (by omega) (by omega)]
      exact Int.toNat_natCast _
  rw [ofInt, hmod, ofNat_toNat]

theorem fits_toInt (bytes : List UInt8) : Fits bytes.length (toInt bytes) := by
  have hlt := toNat_lt bytes
  unfold Fits toInt
  dsimp only
  split_ifs <;> constructor <;> omega

/-! ### Pairs of bytes -/

@[simp] theorem length_ofUnits (units : List Nat) : (ofUnits units).length = 2 * units.length := by
  induction units with
  | nil => rfl
  | cons u units ih =>
    rw [ofUnits, List.flatMap_cons, List.length_append, length_ofNat, ← ofUnits, ih]
    simp only [List.length_cons]
    omega

theorem toUnits_ofUnits {units : List Nat} (h : ∀ u ∈ units, u < 0x10000) :
    toUnits (ofUnits units) = units := by
  induction units with
  | nil => rfl
  | cons u units ih =>
    have hu : u % 0x10000 = u := Nat.mod_eq_of_lt (h u (by simp))
    have hbytes : toNat (ofNat 2 u) = u % 0x10000 := toNat_ofNat 2 u
    rw [ofUnits, List.flatMap_cons, ← ofUnits]
    simp only [ofNat, List.cons_append, List.nil_append, toUnits] at hbytes ⊢
    rw [hbytes, hu, ih fun v hv => h v (by simp [hv])]

theorem ofUnits_toUnits {bytes : List UInt8} (h : bytes.length % 2 = 0) :
    ofUnits (toUnits bytes) = bytes := by
  fun_induction toUnits bytes with
  | case1 a b rest ih =>
    have hrest : rest.length % 2 = 0 := by
      simp only [List.length_cons] at h
      omega
    rw [ofUnits, List.flatMap_cons, ← ofUnits, ih hrest]
    exact congrArg (· ++ rest) (ofNat_toNat [a, b])
  | case2 bytes hbytes =>
    match bytes with
    | [] => rfl
    | [a] => simp at h
    | a :: b :: rest => exact absurd rfl (hbytes a b rest)

end Bytes

namespace Name

/-! ### UTF-16 -/

theorem exists_units_iff {p : CodePoint} : (∃ us, units p = some us) ↔ ¬ p.IsSurrogate := by
  unfold units
  split_ifs with h <;> simp [h]

theorem units_of_lt {p : CodePoint} (hs : ¬ p.IsSurrogate) (h : p.val < 0x10000) :
    units p = some [p.val] := by
  rw [units, if_neg hs, if_pos h]

theorem units_of_le {p : CodePoint} (h : 0x10000 ≤ p.val) :
    units p = some [0xd800 + (p.val - 0x10000) / 0x400, 0xdc00 + (p.val - 0x10000) % 0x400] := by
  have hs : ¬ p.IsSurrogate := fun hs => by
    have := hs.2
    omega
  rw [units, if_neg hs, if_neg (by omega)]

theorem lt_of_mem_units {p : CodePoint} {us : List Nat} (h : units p = some us) :
    ∀ u ∈ us, u < 0x10000 := by
  have hp := p.isLt
  have hs := exists_units_iff.mp ⟨us, h⟩
  by_cases hsmall : p.val < 0x10000
  · obtain rfl := Option.some.inj ((units_of_lt hs hsmall).symm.trans h)
    simpa using hsmall
  · obtain rfl := Option.some.inj ((units_of_le (Nat.le_of_not_lt hsmall)).symm.trans h)
    intro u hu
    simp only [List.mem_cons, List.not_mem_nil, or_false] at hu
    omega

theorem pointsOfUtf16?_cons {u : Nat} (h : u < 0xd800 ∨ 0xe000 ≤ u ∧ u < 0x10000)
    (rest : List Nat) :
    pointsOfUtf16? (u :: rest) = (pointsOfUtf16? rest).map (CodePoint.ofNat u :: ·) := by
  cases rest <;> simp only [pointsOfUtf16?, if_pos h]

/-- The units of a code point are read back whatever follows them. -/
theorem pointsOfUtf16?_append {p : CodePoint} {us : List Nat} (h : units p = some us)
    (rest : List Nat) :
    pointsOfUtf16? (us ++ rest) = (pointsOfUtf16? rest).map (p :: ·) := by
  have hp := p.isLt
  have hs := exists_units_iff.mp ⟨us, h⟩
  by_cases hsmall : p.val < 0x10000
  · obtain rfl := Option.some.inj ((units_of_lt hs hsmall).symm.trans h)
    have hunit : p.val < 0xd800 ∨ 0xe000 ≤ p.val ∧ p.val < 0x10000 := by
      unfold CodePoint.IsSurrogate at hs
      omega
    have hback : CodePoint.ofNat p.val = p := Fin.ext (Nat.mod_eq_of_lt hp)
    rw [List.cons_append, List.nil_append, pointsOfUtf16?_cons hunit, hback]
  · obtain rfl := Option.some.inj ((units_of_le (Nat.le_of_not_lt hsmall)).symm.trans h)
    have hhigh : ¬ (0xd800 + (p.val - 0x10000) / 0x400 < 0xd800 ∨
        0xe000 ≤ 0xd800 + (p.val - 0x10000) / 0x400 ∧
          0xd800 + (p.val - 0x10000) / 0x400 < 0x10000) := by omega
    have hpair : 0xd800 ≤ 0xd800 + (p.val - 0x10000) / 0x400 ∧
        0xd800 + (p.val - 0x10000) / 0x400 < 0xdc00 ∧
        0xdc00 ≤ 0xdc00 + (p.val - 0x10000) % 0x400 ∧
        0xdc00 + (p.val - 0x10000) % 0x400 < 0xe000 := by omega
    have hback : CodePoint.ofNat (0x10000 + (0xd800 + (p.val - 0x10000) / 0x400 - 0xd800) * 0x400 +
        (0xdc00 + (p.val - 0x10000) % 0x400 - 0xdc00)) = p := by
      ext
      simp only [CodePoint.ofNat]
      omega
    simp only [List.cons_append, List.nil_append, pointsOfUtf16?, if_neg hhigh, if_pos hpair, hback]

theorem pointsOfUtf16?_flatten {ps : List CodePoint} {uss : List (List Nat)}
    (h : ps.mapM units = some uss) : pointsOfUtf16? uss.flatten = some ps := by
  induction ps generalizing uss with
  | nil =>
    obtain rfl : uss = [] := by simpa using h.symm
    rfl
  | cons p ps ih =>
    obtain ⟨us, uss', hus, huss, rfl⟩ := List.mapM_cons_eq_some.mp h
    rw [List.flatten_cons, pointsOfUtf16?_append hus, ih huss]
    rfl

/-- Only units that some code points have are read, and a pair of halves in one way only. -/
theorem flatten_units_of_pointsOfUtf16? {us : List Nat} {ps : List CodePoint}
    (h : pointsOfUtf16? us = some ps) : ∃ uss, ps.mapM units = some uss ∧ uss.flatten = us := by
  fun_induction pointsOfUtf16? us generalizing ps with
  | case1 =>
    obtain rfl := Option.some.inj h
    exact ⟨[], rfl, rfl⟩
  | case2 u rest hu ih =>
    obtain ⟨ps', hps', rfl⟩ := Option.map_eq_some_iff.mp h
    obtain ⟨uss, huss, hflat⟩ := ih hps'
    have hval : (CodePoint.ofNat u).val = u := Nat.mod_eq_of_lt (by omega)
    have hs : ¬ (CodePoint.ofNat u).IsSurrogate := by
      unfold CodePoint.IsSurrogate
      omega
    have hunits : units (CodePoint.ofNat u) = some [u] := by
      rw [units_of_lt hs (by omega), hval]
    exact ⟨[u] :: uss, List.mapM_cons_eq_some.mpr ⟨_, _, hunits, huss, rfl⟩, by simp [hflat]⟩
  | case3 => simp at h
  | case4 u hu v rest hpair ih =>
    obtain ⟨ps', hps', rfl⟩ := Option.map_eq_some_iff.mp h
    obtain ⟨uss, huss, hflat⟩ := ih hps'
    have hval : (CodePoint.ofNat (0x10000 + (u - 0xd800) * 0x400 + (v - 0xdc00))).val =
        0x10000 + (u - 0xd800) * 0x400 + (v - 0xdc00) := Nat.mod_eq_of_lt (by omega)
    have hunits : units (CodePoint.ofNat (0x10000 + (u - 0xd800) * 0x400 + (v - 0xdc00))) =
        some [u, v] := by
      have hhigh :
          0xd800 + (0x10000 + (u - 0xd800) * 0x400 + (v - 0xdc00) - 0x10000) / 0x400 = u := by
        omega
      have hlow :
          0xdc00 + (0x10000 + (u - 0xd800) * 0x400 + (v - 0xdc00) - 0x10000) % 0x400 = v := by
        omega
      rw [units_of_le (by omega), hval, hhigh, hlow]
    exact ⟨[u, v] :: uss, List.mapM_cons_eq_some.mpr ⟨_, _, hunits, huss, rfl⟩, by simp [hflat]⟩
  | case5 => simp at h

/-- Decoding accepts exactly what encoding produces. -/
theorem ofUtf16?_eq_some_iff {us : List Nat} {name : Name} :
    ofUtf16? us = some name ↔ name.toUtf16? = some us := by
  simp only [ofUtf16?, toUtf16?, Option.map_eq_some_iff]
  constructor
  · rintro ⟨ps, hps, rfl⟩
    exact flatten_units_of_pointsOfUtf16? hps
  · rintro ⟨uss, huss, rfl⟩
    exact ⟨name.points, pointsOfUtf16?_flatten huss, rfl⟩

theorem exists_toUtf16?_iff {name : Name} :
    (∃ us, name.toUtf16? = some us) ↔ ∀ p ∈ name.points, ¬ p.IsSurrogate := by
  simp only [← exists_units_iff, ← List.exists_mapM_eq_some_iff, toUtf16?, Option.map_eq_some_iff]
  constructor
  · rintro ⟨_, uss, huss, _⟩
    exact ⟨uss, huss⟩
  · rintro ⟨uss, huss⟩
    exact ⟨uss.flatten, uss, huss, rfl⟩

theorem lt_of_mem_toUtf16? {name : Name} {us : List Nat} (h : name.toUtf16? = some us) :
    ∀ u ∈ us, u < 0x10000 := by
  obtain ⟨uss, huss, rfl⟩ := Option.map_eq_some_iff.mp h
  clear h
  generalize name.points = ps at huss
  induction ps generalizing uss with
  | nil =>
    obtain rfl : uss = [] := by simpa using huss.symm
    simp
  | cons p ps ih =>
    obtain ⟨us, uss', hus, huss', rfl⟩ := List.mapM_cons_eq_some.mp huss
    intro u hu
    rw [List.flatten_cons, List.mem_append] at hu
    rcases hu with hu | hu
    · exact lt_of_mem_units hus u hu
    · exact ih uss' huss' u hu

end Name

namespace Attachment

/-! ### Texts -/

theorem ascii?_eq_some_iff {s : String} {data : List UInt8} :
    ascii? s = some data ↔
      (∀ b ∈ data, b < 0x80) ∧ s = String.ofList (data.map fun b => Char.ofNat b.toNat) := by
  obtain ⟨cs, rfl⟩ : ∃ cs, s = String.ofList cs := ⟨s.toList, by simp⟩
  simp only [ascii?, String.toList_ofList, String.ofList_inj]
  induction cs generalizing data with
  | nil => cases data <;> simp
  | cons c cs ih =>
    rw [List.mapM_cons_eq_some]
    constructor
    · rintro ⟨b, bs, hb, hbs, rfl⟩
      split_ifs at hb with hc
      obtain rfl := Option.some.inj hb
      obtain ⟨hlt, rfl⟩ := ih.mp hbs
      have hnat : (UInt8.ofNat c.toNat).toNat = c.toNat := by
        rw [UInt8.toNat_ofNat', Nat.mod_eq_of_lt (by omega)]
      refine ⟨?_, by simp [hnat]⟩
      simp only [List.forall_mem_cons, UInt8.lt_iff_toNat_lt, hnat]
      exact ⟨hc, fun b hb => UInt8.lt_iff_toNat_lt.mp (hlt b hb)⟩
    · rintro ⟨hlt, hcs⟩
      cases data with
      | nil => simp at hcs
      | cons b bs =>
        obtain ⟨rfl, rfl⟩ := List.cons.inj hcs
        have hb : b.toNat < 0x80 := UInt8.lt_iff_toNat_lt.mp (hlt b (by simp))
        have hnat : (Char.ofNat b.toNat).toNat = b.toNat :=
          toNat_charOfNat (.inl (by omega))
        refine ⟨b, bs, ?_, ih.mpr ⟨fun b hb => hlt b (by simp [hb]), rfl⟩, rfl⟩
        simp [hnat, hb]

theorem exists_ascii?_iff {s : String} :
    (∃ data, ascii? s = some data) ↔ ∀ c ∈ s.toList, c.toNat < 0x80 := by
  rw [ascii?, List.exists_mapM_eq_some_iff]
  refine forall₂_congr fun c _ => ?_
  by_cases hc : c.toNat < 0x80 <;> simp [hc]

/-- The bytes of a name are pairs, and the name can be read from no others. -/
theorem utf16?_eq_some_iff {name : Name} {data : List UInt8} :
    utf16? name = some data ↔
      data.length % 2 = 0 ∧ Name.ofUtf16? (Bytes.toUnits data) = some name := by
  rw [Name.ofUtf16?_eq_some_iff, utf16?, Option.map_eq_some_iff]
  constructor
  · rintro ⟨us, hus, rfl⟩
    refine ⟨by simp, ?_⟩
    rwa [Bytes.toUnits_ofUnits (Name.lt_of_mem_toUtf16? hus)]
  · rintro ⟨heven, hus⟩
    exact ⟨_, hus, Bytes.ofUnits_toUnits heven⟩

end Attachment

end ShadeGraph
