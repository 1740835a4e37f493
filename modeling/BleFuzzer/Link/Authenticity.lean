import BleFuzzer.Link.RoundTrip
import BleFuzzer.Mapper.Receive

/-!
# What is accepted on an encrypted link

Both decryptors stand behind a guard on the length of the packet, and let a packet through unchanged
when the guard does not hold. The results say for exactly which packets with a payload the link is
authentic.
-/

namespace BleFuzzer.Link

open Bridge Driver Mapper

/-! ## The bridge -/

/-- The sizes of the arrays `enc_key` and `enc_iv`. -/
structure PhyArrays (phy : Phy) : Prop where
  key_length : phy.encKey.length = 16
  iv_length : phy.encIv.length = 8

/-- The PDU that the first pass of the inner loop of `recv_packet` hands to `ble_ll_rx_end`, for a
frame taken from the serial buffer. -/
def deliveredPdu (A : Aead 16 13 4) (phy : Phy) (frame : Bytes) : Option RxPdu :=
  recvPacketPdu phy (recvPacketPrepare phy (recvPacketBegin A phy frame).1)

/-- The PDU carries the plain text of a frame that passes verification under the key, IV and counter
of the bridge. -/
def PduAuthentic (A : Aead 16 13 4) (phy : Phy) (frame : Bytes) (pdu : RxPdu) : Prop :=
  ∃ plain, A.decryptTagged phy.encKey phy.rxNonce [frame.getD 4 0 &&& 0xE3] (frame.drop 6) =
    some plain ∧ pdu.pdu.drop 2 = plain

/-- Whatever is delivered for the frame is authentic or flagged. -/
def BridgeSecure (A : Aead 16 13 4) (phy : Phy) (frame : Bytes) : Prop :=
  ∀ pdu, deliveredPdu A phy frame = some pdu →
    PduAuthentic A phy frame pdu ∨ pdu.micFailure = true

variable {A : Aead 16 13 4} {phy : Phy} {frame : Bytes}

/-- The packet delivered for an accepted frame: its payload and its flag are those the decryption
leaves. -/
theorem deliveredPdu_accepted (hchan : phy.phyChan < 37)
    (haccept : recvPacketAccepts phy (recvPacketDecrypt A phy frame).2 = true)
    (hlen : 6 ≤ (recvPacketDecrypt A phy frame).2.length) :
    ∃ pdu, deliveredPdu A phy frame = some pdu ∧
      pdu.pdu.drop 2 = (recvPacketDecrypt A phy frame).2.drop 6 ∧
      pdu.micFailure = !(recvPacketDecrypt A phy frame).1 := by
  set rxBuf := (recvPacketDecrypt A phy frame).2 with hrx
  have hdata : isAdvChanPkt rxBuf = false := by
    have h37 : ¬ (37 ≤ phy.phyChan) := UInt8.not_le.mpr hchan
    simpa [recvPacketAccepts, h37, hchan] using haccept
  have hne : rxBuf ≠ [] := List.ne_nil_of_length_pos (by omega)
  have hne' : rxBuf.modify 4 (fixSeqNum phy) ≠ [] :=
    List.ne_nil_of_length_pos (by rw [List.length_modify]; omega)
  have hbegin : (recvPacketBegin A phy frame).1 =
      ⟨rxBuf, (recvPacketDecrypt A phy frame).1, false, 0⟩ := by
    simp only [recvPacketBegin, ← hrx, haccept, hdata, if_true]
  have hprepare : recvPacketPrepare phy (recvPacketBegin A phy frame).1 =
      ⟨rxBuf.modify 4 (fixSeqNum phy), (recvPacketDecrypt A phy frame).1, false, 0⟩ := by
    rw [hbegin]
    simp [recvPacketPrepare, hne]
  refine ⟨_, by rw [deliveredPdu, hprepare, recvPacketPdu, if_neg hne'], ?_, rfl⟩
  show ((rxBuf.modify 4 (fixSeqNum phy)).drop 4).drop 2 = rxBuf.drop 6
  rw [List.drop_drop]
  exact List.drop_modify_of_lt _ 4 6 _ (by omega)

/-- **The bridge's guard.** For a frame with a payload that is accepted on a data channel of an
encrypted link, what is delivered is authentic or flagged if and only if the frame is longer than
ten bytes. -/
theorem bridgeSecure_iff (harrays : PhyArrays phy) (henc : phy.encEnabled = true)
    (hchan : phy.phyChan < 37) (hlen : 6 ≤ frame.length) (hpos : 0 < frame.getD 5 0)
    (haccept : recvPacketAccepts phy (recvPacketDecrypt A phy frame).2 = true) :
    BridgeSecure A phy frame ↔ 10 < frame.length := by
  obtain ⟨aa, hdrByte, length, payload, rfl⟩ := exists_airPacket frame hlen
  rw [airPacket_getD_five] at hpos
  rw [airPacket_length]
  have hnonce := rxNonce_length harrays.iv_length
  by_cases hguard : recvPacketDecrypts phy (airPacket aa hdrByte length payload)
  · -- the CCM call decides
    have hlong := ((recvPacketDecrypts_airPacket phy aa hdrByte length payload).mp hguard).2.1
    have hdec := recvPacketDecrypt_cipher A aa hdrByte length payload hguard
    refine iff_of_true (fun pdu hpdu => ?_) (by omega)
    obtain ⟨pdu', hpdu', hpayload, hmic⟩ := deliveredPdu_accepted hchan haccept
      (by rw [hdec, airPacket_length]; omega)
    obtain rfl : pdu' = pdu := Option.some.inj (hpdu'.symm.trans hpdu)
    rw [hdec] at hpayload hmic
    cases hopen : A.decryptTagged phy.encKey phy.rxNonce [hdrByte &&& 0xE3] payload with
    | some plain =>
      refine .inl ⟨plain, hopen, ?_⟩
      simpa [tcCcmDecryptionVerification, hopen] using hpayload
    | none =>
      right
      simpa [tcCcmDecryptionVerification, hopen] using hmic
  · -- the payload goes through as it is, and is too short to be its own decryption
    have hshort : payload.length ≤ 4 := by
      by_contra hlong
      refine hguard ((recvPacketDecrypts_airPacket phy aa hdrByte length payload).mpr ?_)
      exact ⟨henc, by omega, hpos⟩
    have hdec := recvPacketDecrypt_plain A hguard
    refine iff_of_false (fun hsecure => ?_) (by omega)
    obtain ⟨pdu, hpdu, hpayload, hmic⟩ := deliveredPdu_accepted hchan haccept
      (by rw [hdec, airPacket_length]; omega)
    rw [hdec] at hpayload hmic
    rcases hsecure pdu hpdu with ⟨plain, hopen, hplain⟩ | hflag
    · have htag := A.length_of_decryptTagged _ harrays.key_length hnonce hopen
      rw [hpayload] at hplain
      rw [hplain] at htag
      omega
    · rw [hmic] at hflag
      cases hflag

/-! ## The mapper -/

variable {τ : Type} (lib : Lib τ) {self : Blesul} {data : Bytes}

/-- The bytes of the packet that `receive` goes on with while the link is encrypted, unless the
packet is broken. -/
def acceptedBytes (self : Blesul) (data : Bytes) : Except PyErr (Option Bytes) :=
  match decryptPkt lib self data with
  | .error e => .error e
  | .ok none => .ok (some data)
  | .ok (some (_, true)) => .ok none
  | .ok (some (bytes, false)) => .ok (some bytes)

/-- `receive` appends the packet of those bytes, for a packet of ours on a data channel. -/
theorem acceptData_result {w : World τ} (henc : w.self.encrypted = true)
    (htarget : isTarget w.self (lib.scapy.btle data) = true)
    (hadv : (lib.scapy.btle data).hasBtleAdv = false)
    (hraw : lib.scapy.raw (lib.scapy.btle data) = data) :
    (acceptData lib data).result w = (acceptedBytes lib w.self data).map
      (Option.map fun bytes => fixPacket (lib.scapy.btle bytes)) := by
  -- up to the decryption nothing is assigned
  have hhead : (acceptData lib data).result w =
      (acceptDecrypted lib (lib.scapy.btle data)).result w := by
    rw [acceptData, (Exec.bind_ok (getSelf_returns w).1).1, (getSelf_returns w).2, if_pos htarget]
    simp only [hadv, Bool.false_eq_true, if_false]
  rw [hhead, acceptDecrypted, acceptedBytes]
  cases hpkt : decryptPkt lib w.self data with
  | error e =>
    rw [(Exec.bind_error (decrypt_error lib henc (hraw.symm ▸ hpkt))).1]
    rfl
  | ok opened =>
    rw [← hraw] at hpkt
    cases opened with
    | none =>
      rw [(Exec.bind_ok (decrypt_short lib hpkt).1).1]
      rfl
    | some opened =>
      obtain ⟨bytes, isBroken⟩ := opened
      rw [(Exec.bind_ok (decrypt_long lib henc hpkt).1).1]
      cases isBroken <;> rfl

/-- The payload of a packet with its CRC. -/
def payloadOf (data : Bytes) : Bytes := (data.take (data.length - 3)).drop 6

/-- The accepted bytes carry the plain text of a packet that passes verification under the key, IV
and counter of the mapper. -/
def DataAuthentic (self : Blesul) (data bytes : Bytes) : Prop :=
  ∃ plain, lib.ccm.decryptTagged self.connSessionKey self.rxNonce [data.getD 4 0 &&& 0xE3]
    (payloadOf data) = some plain ∧ payloadOf bytes = plain

/-- Whatever is accepted for the packet is authentic. -/
def MapperSecure (self : Blesul) (data : Bytes) : Prop :=
  ∀ bytes, acceptedBytes lib self data = .ok (some bytes) → DataAuthentic lib self data bytes

/-- A tag of four bytes in its place fixes the length of the packet. -/
theorem payloadOf_split (n : ℕ)
    (hmac : ((data.take (data.length - 3)).drop (6 + n)).length = 4) :
    payloadOf data =
      (data.take (data.length - 7)).drop 6 ++ (data.take (data.length - 3)).drop (6 + n) := by
  rw [List.length_drop, List.length_take] at hmac
  have hcut : data.length - 7 = 6 + n := by omega
  rw [payloadOf, hcut]
  calc (data.take (data.length - 3)).drop 6
      = ((data.take (data.length - 3)).drop 6).take n ++
          ((data.take (data.length - 3)).drop 6).drop n := (List.take_append_drop n _).symm
    _ = (data.take (6 + n)).drop 6 ++ (data.take (data.length - 3)).drop (6 + n) := by
        rw [List.take_drop, List.take_take, Nat.min_eq_left (by omega), List.drop_drop]

/-- The payload of the bytes put together after a decryption. -/
theorem payloadOf_decrypted (hdrByte length : UInt8) (plain : Bytes) (hlen : 6 ≤ data.length) :
    payloadOf (data.take 4 ++ [hdrByte] ++ [length] ++ plain ++ [0, 0, 0]) = plain := by
  have hhead : (data.take 4 ++ [hdrByte] ++ [length]).length = 6 := by
    simp
    omega
  rw [payloadOf, List.length_append, show [(0 : UInt8), 0, 0].length = 3 from rfl,
    Nat.add_sub_cancel, List.take_left, ← hhead, List.drop_left]

/-- A packet with a length byte of at least five is accepted only after its decryption. -/
theorem decryptPkt_of_accepted {bytes : Bytes} (hlong : 5 ≤ (data.getD 5 0).toNat)
    (h : acceptedBytes lib self data = .ok (some bytes)) :
    decryptPkt lib self data = .ok (some (bytes, false)) := by
  rw [acceptedBytes] at h
  split at h
  case h_1 => cases h
  case h_2 hnone => exact absurd hnone (decryptPkt_ne_none lib self data hlong)
  case h_3 => cases h
  case h_4 bytes' hsome =>
    obtain rfl := Option.some.inj (Except.ok.inj h)
    exact hsome

/-- **The mapper's guard.** For a packet with a payload, what is accepted is authentic if and only
if its length byte is at least five. -/
theorem mapperSecure_iff (hkey : self.HasKey) (hlen : 6 ≤ data.length)
    (hpos : data.getD 5 0 ≠ 0) : MapperSecure lib self data ↔ 5 ≤ (data.getD 5 0).toNat := by
  have hnonce := Blesul.rxNonce_length hkey
  constructor
  · intro hsecure
    by_contra hshort
    -- the packet goes through as it is, and is too short to be its own decryption
    obtain ⟨aa, hdrByte, length, payload, rfl⟩ := exists_airPacket data hlen
    rw [airPacket_getD_five] at hshort hpos
    have haccept : acceptedBytes lib self (airPacket aa hdrByte length payload) =
        .ok (some (airPacket aa hdrByte length payload)) := by
      rw [acceptedBytes, decryptPkt_short lib self aa hdrByte length payload (by omega)]
    obtain ⟨plain, hopen, hplain⟩ := hsecure _ haccept
    have htag := lib.ccm.length_of_decryptTagged _ hkey.key_length hnonce hopen
    rw [hplain] at htag
    omega
  · intro hlong bytes haccept
    obtain ⟨-, hbytes, hbroken⟩ := decryptPkt_some lib (decryptPkt_of_accepted lib hlong haccept)
    have hverify := Bool.not_eq_eq_eq_not.mp hbroken.symm
    rw [Bool.not_false] at hverify
    have hmac := lib.ccm.length_of_verify _ _ _ _ _ hverify
    refine ⟨_, ?_, rfl⟩
    rw [payloadOf_split _ hmac, lib.ccm.decryptTagged_append _ _ _ hmac,
      if_pos hverify, hbytes, payloadOf_decrypted _ _ _ hlen]

/-! ## Both sides -/

/-- **What is let through without authentication.** On an encrypted link, of the data-channel
packets with a payload, the bridge accepts an unauthenticated and unflagged one exactly when it has
at most ten bytes, and the mapper exactly when its length byte is below five. -/
theorem accepted_authentic_iff :
    (∀ phy frame, PhyArrays phy → phy.encEnabled = true → phy.phyChan < 37 → 6 ≤ frame.length →
      0 < frame.getD 5 0 →
      recvPacketAccepts phy (recvPacketDecrypt lib.ccm phy frame).2 = true →
      (BridgeSecure lib.ccm phy frame ↔ 10 < frame.length)) ∧
    (∀ (w : World τ) data, w.self.HasKey → w.self.encrypted = true →
      isTarget w.self (lib.scapy.btle data) = true → (lib.scapy.btle data).hasBtleAdv = false →
      lib.scapy.raw (lib.scapy.btle data) = data → 6 ≤ data.length → data.getD 5 0 ≠ 0 →
      (acceptData lib data).result w = (acceptedBytes lib w.self data).map
          (Option.map fun bytes => fixPacket (lib.scapy.btle bytes)) ∧
        (MapperSecure lib w.self data ↔ 5 ≤ (data.getD 5 0).toNat)) :=
  ⟨fun _ _ harrays henc hchan hlen hpos haccept =>
      bridgeSecure_iff harrays henc hchan hlen hpos haccept,
    fun _ _ hkey henc htarget hadv hraw hlen hpos =>
      ⟨acceptData_result lib henc htarget hadv hraw, mapperSecure_iff lib hkey hlen hpos⟩⟩

/-- The bridge on data channel 0, with an all-zero key and IV. -/
def zeroKeyPhy : Phy := { blePhyInit with encEnabled := true, phyChan := 0, phyAccessAddress := 7 }

/-- A payload of one byte is let through, one of five bytes is not. -/
theorem accepted_authentic_iff_frames :
    ¬ BridgeSecure (.byteSumTag 16 13 4) zeroKeyPhy (airPacket 7 3 1 [6]) ∧
      BridgeSecure (.byteSumTag 16 13 4) zeroKeyPhy (airPacket 7 3 5 [6, 0, 0, 0, 0]) ∧
      ¬ MapperSecure (plainLib rawScapy) zeroKeyWorld.self (airPacket 7 3 1 [6, 0, 0, 0]) ∧
      MapperSecure (plainLib rawScapy) zeroKeyWorld.self
        (airPacket 7 3 5 [6, 0, 0, 0, 0, 0, 0, 0]) := by
  obtain ⟨hbridge, hmapper⟩ := @accepted_authentic_iff Unit (plainLib rawScapy)
  have hshort := hbridge zeroKeyPhy (airPacket 7 3 1 [6]) ⟨rfl, rfl⟩ rfl (by decide) (by decide)
    (by decide) (by decide)
  have hlong := hbridge zeroKeyPhy (airPacket 7 3 5 [6, 0, 0, 0, 0]) ⟨rfl, rfl⟩ rfl (by decide)
    (by decide) (by decide) (by decide)
  have hshort' := (hmapper zeroKeyWorld (airPacket 7 3 1 [6, 0, 0, 0]) ⟨rfl, rfl⟩ rfl rfl rfl rfl
    (by decide) (by decide)).2
  have hlong' := (hmapper zeroKeyWorld (airPacket 7 3 5 [6, 0, 0, 0, 0, 0, 0, 0]) ⟨rfl, rfl⟩ rfl rfl
    rfl rfl (by decide) (by decide)).2
  refine ⟨fun h => ?_, hlong.mpr (by decide), fun h => ?_, hlong'.mpr (by decide)⟩
  · exact absurd (hshort.mp h) (by decide)
  · exact absurd (hshort'.mp h) (by decide)

/-- A plain `LL_START_ENC_RSP` is delivered on an encrypted link, whatever the cipher. -/
theorem plain_startEncRsp_delivered :
    ∃ frame, frame = airPacket 7 3 1 [6] ∧ ∀ A : Aead 16 13 4,
      recvPacketAccepts zeroKeyPhy (recvPacketDecrypt A zeroKeyPhy frame).2 = true ∧
        ¬ BridgeSecure A zeroKeyPhy frame := by
  refine ⟨_, rfl, fun A => ?_⟩
  have haccept : recvPacketAccepts zeroKeyPhy
      (recvPacketDecrypt A zeroKeyPhy (airPacket 7 3 1 [6])).2 = true := by
    rw [recvPacketDecrypt_plain A (by decide)]
    decide
  refine ⟨haccept, fun hsecure => ?_⟩
  have hlong := (bridgeSecure_iff ⟨rfl, rfl⟩ rfl (by decide) (by decide) (by decide) haccept).mp
    hsecure
  exact absurd hlong (by decide)

end BleFuzzer.Link
