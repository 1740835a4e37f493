import BleFuzzer.Common.Bytes

/-!
# The layout of link-layer packets

Both programs handle packets as flat byte arrays: a little-endian access address, a header byte, a
length byte, the payload and a CRC of three bytes that travels only in one direction. The lemmas
give every slice the two programs take of such an array.
-/

namespace BleFuzzer

/-- A packet without its CRC. -/
def airPacket (accessAddress : UInt32) (hdrByte length : UInt8) (payload : Bytes) : Bytes :=
  leBytes 4 accessAddress.toNat ++ [hdrByte, length] ++ payload

/-- Every array of at least six bytes has this layout. -/
theorem exists_airPacket (raw : Bytes) (h : 6 ≤ raw.length) :
    ∃ accessAddress hdrByte length payload, raw = airPacket accessAddress hdrByte length payload := by
  match raw, h with
  | a :: b :: c :: d :: hdrByte :: length :: payload, _ =>
    have hlt : leValue [a, b, c, d] < 2 ^ 32 := by
      have hbytes := leValue_lt [a, b, c, d]
      simp only [List.length_cons, List.length_nil, Nat.zero_add, Nat.reduceAdd,
        Nat.reducePow] at hbytes ⊢
      exact hbytes
    refine ⟨UInt32.ofNat (leValue [a, b, c, d]), hdrByte, length, payload, ?_⟩
    rw [airPacket, UInt32.toNat_ofNat', Nat.mod_eq_of_lt hlt,
      show leBytes 4 (leValue [a, b, c, d]) = [a, b, c, d] from leBytes_leValue [a, b, c, d]]
    rfl

variable (accessAddress : UInt32) (hdrByte length : UInt8) (payload : Bytes)

/-- Access address and header take six bytes. -/
theorem airPacket_length :
    (airPacket accessAddress hdrByte length payload).length = payload.length + 6 := by
  simp [airPacket]
  omega

/-- What follows a packet may be counted as part of its payload. -/
theorem airPacket_append (crc : Bytes) :
    airPacket accessAddress hdrByte length payload ++ crc =
      airPacket accessAddress hdrByte length (payload ++ crc) :=
  List.append_assoc _ _ _

@[simp] theorem airPacket_getD_four :
    (airPacket accessAddress hdrByte length payload).getD 4 0 = hdrByte := rfl

@[simp] theorem airPacket_getD_five :
    (airPacket accessAddress hdrByte length payload).getD 5 0 = length := rfl

@[simp] theorem airPacket_take_four :
    (airPacket accessAddress hdrByte length payload).take 4 = leBytes 4 accessAddress.toNat := rfl

@[simp] theorem airPacket_take_five :
    (airPacket accessAddress hdrByte length payload).take 5 =
      leBytes 4 accessAddress.toNat ++ [hdrByte] := rfl

@[simp] theorem airPacket_take_six :
    (airPacket accessAddress hdrByte length payload).take 6 =
      leBytes 4 accessAddress.toNat ++ [hdrByte, length] := rfl

@[simp] theorem airPacket_drop_six :
    (airPacket accessAddress hdrByte length payload).drop 6 = payload := rfl

/-- The slice `raw[6 + n : -k]` is the slice `payload[n : -k]`. -/
theorem airPacket_slice (n k : ℕ) (hk : k ≤ payload.length) :
    ((airPacket accessAddress hdrByte length payload).take
        ((airPacket accessAddress hdrByte length payload).length - k)).drop (6 + n) =
      (payload.take (payload.length - k)).drop n := by
  have hlen : (airPacket accessAddress hdrByte length payload).length - k =
      payload.length - k + 6 := by
    rw [airPacket_length]
    omega
  rw [hlen, Nat.add_comm 6 n]
  rfl

end BleFuzzer
