import Mathlib.Data.Nat.Bitwise

/-!
# Byte strings

Little-endian words, 16-bit length fields and 8-bit checksums over `List UInt8`. The C side of a
wire format computes with fixed-width registers and the Python side with unbounded integers that it
masks; the lemmas here say when the two agree.
-/

namespace BleFuzzer

/-- A byte string: a Python `bytes` or `bytearray` object, or a C array with its length. -/
abbrev Bytes := List UInt8

/-- The low `k` little-endian bytes of a number. -/
def leBytes : ℕ → ℕ → Bytes
  | 0, _ => []
  | k + 1, n => UInt8.ofNat n :: leBytes k (n / 256)

@[simp] theorem leBytes_length (k n : ℕ) : (leBytes k n).length = k := by
  induction k generalizing n with
  | zero => rfl
  | succ k ih => simp [leBytes, ih]

/-- The number a little-endian byte string denotes. -/
def leValue : Bytes → ℕ
  | [] => 0
  | b :: bs => b.toNat + 256 * leValue bs

/-- Reading back a little-endian word of `k` bytes. -/
theorem leValue_leBytes (k n : ℕ) : leValue (leBytes k n) = n % 256 ^ k := by
  induction k generalizing n with
  | zero => simp [leBytes, leValue, Nat.mod_one]
  | succ k ih =>
    have hlow : (UInt8.ofNat n).toNat = n % 256 := by simp [UInt8.toNat_ofNat']
    rw [leBytes, leValue, ih, hlow, Nat.pow_succ', Nat.mod_mul]

/-- Reading back a little-endian word that fits. -/
theorem leValue_leBytes_of_lt {k n : ℕ} (h : n < 256 ^ k) : leValue (leBytes k n) = n := by
  rw [leValue_leBytes, Nat.mod_eq_of_lt h]

/-- A little-endian value is below the bound of its length. -/
theorem leValue_lt (bs : Bytes) : leValue bs < 256 ^ bs.length := by
  induction bs with
  | nil => simp [leValue]
  | cons b bs ih =>
    have := b.toNat_lt
    rw [leValue, List.length_cons, Nat.pow_succ']
    omega

/-- Writing a little-endian byte string back. -/
theorem leBytes_leValue (bs : Bytes) : leBytes bs.length (leValue bs) = bs := by
  induction bs with
  | nil => rfl
  | cons b bs ih =>
    have hlt := b.toNat_lt
    have hlow : UInt8.ofNat (b.toNat + 256 * leValue bs) = b := by
      rw [← UInt8.toNat_inj, UInt8.toNat_ofNat']
      omega
    have hhigh : (b.toNat + 256 * leValue bs) / 256 = leValue bs := by omega
    rw [List.length_cons, leValue, leBytes, hlow, hhigh, ih]

/-- Bytes are those of their value. -/
theorem leBytes_leValue_of_length {k : ℕ} {bs : Bytes} (h : bs.length = k) :
    leBytes k (leValue bs) = bs := by
  rw [← h, leBytes_leValue]

/-- Masking a byte put together from two others. -/
theorem or_and_mask (a b mask : UInt8) : (a ||| b) &&& mask = (a &&& mask) ||| (b &&& mask) := by
  apply UInt8.toBitVec_inj.mp
  simp only [UInt8.toBitVec_and, UInt8.toBitVec_or]
  apply BitVec.eq_of_getLsbD_eq
  intro i _
  simp only [BitVec.getLsbD_and, BitVec.getLsbD_or, Bool.and_or_distrib_right]

/-! ## 16-bit length fields -/

/-- The two bytes `x & 0xFF`, `(x >> 8) & 0xFF` of a length field. -/
def lenBytes (n : ℕ) : Bytes := [UInt8.ofNat (n &&& 0xFF), UInt8.ofNat ((n >>> 8) &&& 0xFF)]

@[simp] theorem lenBytes_length (n : ℕ) : (lenBytes n).length = 2 := rfl

/-- The length field `lo | (hi << 8)` read back from two bytes. -/
def lenValue (lo hi : UInt8) : ℕ := lo.toNat ||| (hi.toNat <<< 8)

/-- Setting the high byte is adding it. -/
private theorem or_shift_eq_add (lo hi : ℕ) (h : lo < 256) :
    lo ||| (hi <<< 8) = lo + 256 * hi := by
  rw [Nat.lor_comm, ← Nat.shiftLeft_add_eq_or_of_lt (by omega : lo < 2 ^ 8), Nat.shiftLeft_eq]
  omega

/-- The length field as a number. -/
theorem lenValue_eq (lo hi : UInt8) : lenValue lo hi = lo.toNat + 256 * hi.toNat :=
  or_shift_eq_add _ _ lo.toNat_lt

/-- A length below `2 ^ 16` survives its two-byte field. -/
theorem lenValue_lenBytes (n : ℕ) (h : n < 65536) :
    lenValue (UInt8.ofNat (n &&& 0xFF)) (UInt8.ofNat ((n >>> 8) &&& 0xFF)) = n := by
  have hmask : ∀ m : ℕ, m &&& 0xFF = m % 256 := fun m => Nat.and_two_pow_sub_one_eq_mod m 8
  rw [lenValue_eq, hmask, hmask, Nat.shiftRight_eq_div_pow]
  simp only [UInt8.toNat_ofNat']
  omega

/-! ## Checksums -/

/-- The sum of the bytes as an unbounded integer, as Python's `sum` gives it. -/
def byteSum (bs : Bytes) : ℕ := (bs.map UInt8.toNat).sum

/-- The sum of the bytes in an 8-bit register. -/
def checksum8 (bs : Bytes) : UInt8 := bs.foldl (· + ·) 0

/-- A sum of bytes wraps around. -/
private theorem foldl_add_toNat (bs : Bytes) (acc : UInt8) :
    (bs.foldl (· + ·) acc).toNat = (acc.toNat + byteSum bs) % 256 := by
  induction bs generalizing acc with
  | nil => simp [byteSum, Nat.mod_eq_of_lt acc.toNat_lt]
  | cons b bs ih =>
    have hsum : byteSum (b :: bs) = b.toNat + byteSum bs := by simp [byteSum]
    rw [List.foldl_cons, ih, UInt8.toNat_add, hsum]
    omega

/-- The register checksum is the masked integer sum. -/
theorem checksum8_toNat (bs : Bytes) : (checksum8 bs).toNat = byteSum bs &&& 0xFF := by
  rw [checksum8, foldl_add_toNat, show (0xFF : ℕ) = 2 ^ 8 - 1 from rfl,
    Nat.and_two_pow_sub_one_eq_mod]
  simp

end BleFuzzer
