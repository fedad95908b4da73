import ShadeGraph.Text.Quoted

/-!
# Little-endian numbers

Numbers in an attachment have a fixed count of bytes, the least significant one first. Signed
numbers are stored modulo the size of their format.
-/

namespace ShadeGraph.Bytes

/-- How many numbers have `width` bytes. -/
def modulus (width : Nat) : Nat := Nat.pow 256 width

theorem modulus_succ (width : Nat) : modulus (width + 1) = 256 * modulus width := by
  simp only [modulus, Nat.pow_eq]
  exact Nat.pow_succ'

/-- The lowest `width` bytes of `n`. -/
def ofNat : Nat → Nat → List UInt8
  | 0, _ => []
  | width + 1, n => UInt8.ofNat (n % 256) :: ofNat width (n / 256)

def toNat : List UInt8 → Nat
  | [] => 0
  | b :: bs => b.toNat + 256 * toNat bs

/-- The lowest `width` bytes of a number in two's complement. -/
def ofInt (width : Nat) (n : Int) : List UInt8 := ofNat width (n % modulus width).toNat

def toInt (bytes : List UInt8) : Int :=
  let n := toNat bytes
  if 2 * n < modulus bytes.length then n else (n : Int) - modulus bytes.length

/-- The number is one of those that `width` bytes in two's complement stand for. -/
def Fits (width : Nat) (n : Int) : Prop :=
  -(modulus width : Int) ≤ 2 * n ∧ 2 * n < (modulus width : Int)

instance (width : Nat) (n : Int) : Decidable (Fits width n) :=
  inferInstanceAs (Decidable (_ ∧ _))

/-- The bytes of 16-bit units. -/
def ofUnits (units : List Nat) : List UInt8 := units.flatMap (ofNat 2)

/-- The 16-bit units of an even number of bytes. -/
def toUnits : List UInt8 → List Nat
  | a :: b :: rest => toNat [a, b] :: toUnits rest
  | _ => []

/-- The lower-case hexadecimal text of bytes. -/
def toHex (bytes : List UInt8) : String := String.join (bytes.map fun b => Text.hex 2 b.toNat)

/-- Characters that may stand between bytes. -/
def isBlank (c : Char) : Bool := c = ' ' || '\t' ≤ c && c ≤ '\r'

/-- The bytes of pairs of hexadecimal digits, or else the place of the first character that is none.
The first of the characters stands at `place`. -/
def ofHexDigits? (place : Nat) : List Char → Except Nat (List UInt8)
  | [] => .ok []
  | a :: rest =>
    if isBlank a then ofHexDigits? (place + 1) rest
    else if !Text.isHexDigit a then .error place
    else
      match rest with
      | [] => .error (place + 1)
      | b :: rest =>
        if !Text.isHexDigit b then .error (place + 1)
        else
          (UInt8.ofNat (16 * Text.hexValue a + Text.hexValue b) :: ·) <$> ofHexDigits? (place + 2) rest

/-- The bytes of a hexadecimal text. Of all its characters those beyond ASCII are refused first. -/
def ofHex? (s : String) : Except Nat (List UInt8) :=
  match (Text.points s).findIdx? (0x80 ≤ ·.val) with
  | some place => .error place
  | none => ofHexDigits? 0 s.toList

/-- The place in bytes of this number that an offset means; one below zero counts from their end. -/
def place (offset : Int) (size : Nat) : Nat := (if offset < 0 then offset + size else offset).toNat

/-- The bytes before an offset. -/
def before (offset : Int) (bytes : List UInt8) : List UInt8 := bytes.take (place offset bytes.length)

/-- The bytes from an offset on. -/
def behind (offset : Int) (bytes : List UInt8) : List UInt8 := bytes.drop (place offset bytes.length)

/-- Replaces the byte at an offset; beyond the end the byte is appended. -/
def overwrite (offset : Int) (byte : UInt8) (bytes : List UInt8) : List UInt8 :=
  before offset bytes ++ byte :: behind (offset + 1) bytes

@[simp] theorem length_ofNat (width n : Nat) : (ofNat width n).length = width := by
  induction width generalizing n with
  | zero => rfl
  | succ width ih => simp [ofNat, ih]

theorem toNat_ofNat (width n : Nat) : toNat (ofNat width n) = n % modulus width := by
  induction width generalizing n with
  | zero => simp [ofNat, toNat, modulus, Nat.mod_one]
  | succ width ih =>
    have h : (UInt8.ofNat (n % 256)).toNat = n % 256 := by simp
    rw [ofNat, toNat, ih, h, modulus_succ, Nat.mod_mul]

theorem toNat_lt (bytes : List UInt8) : toNat bytes < modulus bytes.length := by
  induction bytes with
  | nil => simp [toNat, modulus]
  | cons b bs ih =>
    have hb : b.toNat < 256 := b.toNat_lt
    rw [toNat, List.length_cons, modulus_succ]
    omega

theorem ofNat_toNat (bytes : List UInt8) : ofNat bytes.length (toNat bytes) = bytes := by
  induction bytes with
  | nil => rfl
  | cons b bs ih =>
    have hb : b.toNat < 256 := b.toNat_lt
    have hm : (b.toNat + 256 * toNat bs) % 256 = b.toNat := by omega
    have hd : (b.toNat + 256 * toNat bs) / 256 = toNat bs := by omega
    simp only [List.length_cons, ofNat, toNat, hm, hd, ih, UInt8.ofNat_toNat]

end ShadeGraph.Bytes
