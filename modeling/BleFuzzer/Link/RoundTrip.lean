import BleFuzzer.Bridge.RecvPacket
import BleFuzzer.Mapper.Crypto

/-!
# The encryption round trip between mapper and bridge

Each direction has its own pair of programs: `send` against `recv_packet`, and `ble_phy_tx` against
`receive`. With the same key, IV and counter on both sides, the nonces agree and the two pairs undo
each other.
-/

namespace BleFuzzer.Link

open Bridge Driver Mapper

variable {τ : Type} (lib : Lib τ)

/-- The two ends of an encrypted link hold the same key and IV. -/
structure SameKey (s : Blesul) (phy : Phy) : Prop where
  encrypted : s.encrypted = true
  encEnabled : phy.encEnabled = true
  key : phy.encKey = s.connSessionKey
  iv : phy.encIv = s.connIv
  hasKey : s.HasKey

variable {self : Blesul} {phy : Phy}

/-- With equal counters, the bridge receives with the nonce of the mapper's `send`. -/
theorem SameKey.txNonce_eq (h : SameKey self phy)
    (hcount : phy.encCounter.toNat = self.encTxPktCount) : phy.rxNonce = self.txNonce := by
  rw [Phy.rxNonce, Phy.nonceCounter, hcount, h.iv, Blesul.txNonce]

/-- With equal counters, the mapper receives with the nonce of `ble_phy_tx`. -/
theorem SameKey.rxNonce_eq (h : SameKey self phy)
    (hcount : phy.encCounter.toNat = self.encRxPktCount) : phy.txNonce = self.rxNonce := by
  rw [Phy.txNonce, Phy.nonceCounter, hcount, h.iv, Blesul.rxNonce]

/-- **Host to bridge.** `recv_packet` recovers what `send` encrypted, for every payload that is not
empty. -/
theorem recvPacketDecrypt_encryptTagged (h : SameKey self phy)
    (hcount : phy.encCounter.toNat = self.encTxPktCount) (accessAddress : UInt32)
    (hdrByte length : UInt8) (payload : Bytes) (hne : payload ≠ []) (hlength : length.toNat < 252) :
    recvPacketDecrypt lib.ccm phy
        (airPacket accessAddress hdrByte (length + 4)
          (lib.ccm.encryptTagged self.connSessionKey self.txNonce [hdrByte &&& 0xE3] payload)) =
      (true, airPacket accessAddress hdrByte length payload) := by
  have hnonce := Blesul.txNonce_length h.hasKey
  have htagged := lib.ccm.encryptTagged_length [hdrByte &&& 0xE3] h.hasKey.key_length hnonce payload
  have hback := lib.ccm.decryptTagged_encryptTagged [hdrByte &&& 0xE3] h.hasKey.key_length hnonce
    payload
  have hpos := List.length_pos_of_ne_nil hne
  have hsum : (length + 4).toNat = length.toNat + 4 := by
    rw [UInt8.toNat_add, show (4 : UInt8).toNat = 4 from rfl]
    omega
  -- the guard holds, since the tag follows a payload that is not empty
  have hguard : recvPacketDecrypts phy (airPacket accessAddress hdrByte (length + 4)
      (lib.ccm.encryptTagged self.connSessionKey self.txNonce [hdrByte &&& 0xE3] payload)) := by
    rw [recvPacketDecrypts_airPacket]
    refine ⟨h.encEnabled, by omega, ?_⟩
    rw [UInt8.lt_iff_toNat_lt, hsum]
    exact Nat.succ_pos _
  rw [recvPacketDecrypt_cipher _ _ _ _ _ hguard, h.key, h.txNonce_eq hcount,
    tcCcmDecryptionVerification, hback]
  simp

/-- The frame that an encrypted `send` writes for a data packet. -/
theorem send_dataPacket {w : World τ} {pkt : Pkt} (henc : w.self.encrypted = true)
    (hkey : w.self.HasKey) (hcount : w.self.encTxPktCount < 2 ^ 64)
    (hopen : w.self.driver.serialOpen = true) (hdata : pkt.hasBtleData = true)
    (accessAddress : UInt32) (hdrByte length : UInt8) (payload crc : Bytes)
    (hlength : length.toNat < 252) (hcrc : crc.length = 3)
    (hraw : lib.scapy.raw pkt = airPacket accessAddress hdrByte length payload ++ crc) :
    (send lib pkt).Returns w ()
      { w with
        self := { w.self with encTxPktCount := w.self.encTxPktCount + 1 }
        log := w.log ++ [.encrypt] ++ [.tx (dataFrame (airPacket accessAddress hdrByte (length + 4)
          (lib.ccm.encryptTagged w.self.connSessionKey w.self.txNonce [hdrByte &&& 0xE3]
            payload)))] } := by
  have hpkt := encryptPkt_eq lib hkey hcount accessAddress hdrByte length payload crc (by omega) hcrc
  rw [← hraw] at hpkt
  have hcut : ∀ p : Bytes, cutCrc (p ++ [0, 0, 0]) = p := fun p => by simp [cutCrc]
  have hsend := send_encrypted lib henc hdata hopen hpkt
  rwa [hcut] at hsend

/-- **Bridge to host.** `receive` recovers what `ble_phy_tx` encrypted, for every payload that is
not empty. -/
theorem decryptPkt_blePhyTxPacket (h : SameKey self phy)
    (hcount : phy.encCounter.toNat = self.encRxPktCount) (hdrByte : UInt8) (payload : Bytes)
    (hne : payload ≠ []) (hlen : payload.length ≤ 251) :
    decryptPkt lib self (blePhyTxPacket lib.ccm phy hdrByte payload) =
      .ok (some (btlePacket phy.phyAccessAddress hdrByte payload, false)) := by
  have hnonce := Blesul.rxNonce_length h.hasKey
  have hkey := h.hasKey.key_length
  have hpos := List.length_pos_of_ne_nil hne
  have hcipher := lib.ccm.encrypt_length _ _ [hdrByte &&& 0xE3] payload hkey hnonce
  have htag := lib.ccm.tag_length _ _ [hdrByte &&& 0xE3] payload hkey hnonce
  have hcount' : self.encRxPktCount < 2 ^ 64 := hcount ▸ phy.encCounter.toNat_lt
  have hlength : (UInt8.ofNat (payload.length + 4)).toNat =
      (lib.ccm.encrypt self.connSessionKey self.rxNonce [hdrByte &&& 0xE3] payload).length + 4 := by
    rw [hcipher, UInt8.toNat_ofNat_of_lt' (show _ < 256 by omega)]
  rw [blePhyTxPacket, blePhyTxPayload, if_pos ⟨h.encEnabled, hpos⟩, h.key, h.rxNonce_eq hcount,
    btlePacket_eq, lib.ccm.encryptTagged_length _ hkey hnonce, Aead.encryptTagged,
    decryptPkt_eq lib h.hasKey hcount' _ _ _ _ _ _ hlength
      (List.ne_nil_of_length_pos (by omega)) htag rfl,
    hcipher, lib.ccm.decrypt_encrypt _ _ _ _ hkey hnonce, lib.ccm.verify_tag _ _ _ _ hkey hnonce]
  rfl

/-- **The encryption round trip, in both directions.** What an encrypted `send` writes is recovered
by `recv_packet`, and what an encrypting `ble_phy_tx` writes is recovered by `receive`, byte for
byte: for every key, IV, counter, access address, header byte and payload that is not empty. -/
theorem encryption_round_trip (w : World τ) (phy : Phy) (h : SameKey w.self phy)
    (accessAddress : UInt32) (hdrByte : UInt8) (payload : Bytes) (hne : payload ≠ []) :
    (∀ pkt crc, pkt.hasBtleData = true → crc.length = 3 →
      lib.scapy.raw pkt =
        airPacket accessAddress hdrByte (UInt8.ofNat payload.length) payload ++ crc →
      w.self.driver.serialOpen = true → phy.encCounter.toNat = w.self.encTxPktCount →
      payload.length + 10 ≤ rxBufSize →
      ∃ frame, (send lib pkt).Returns w ()
          { w with
            self := { w.self with encTxPktCount := w.self.encTxPktCount + 1 }
            log := w.log ++ [.encrypt] ++ [.tx (dataFrame frame)] } ∧
        frame.length = payload.length + 10 ∧
        recvPacketDecrypt lib.ccm phy frame =
          (true, airPacket accessAddress hdrByte (UInt8.ofNat payload.length) payload)) ∧
    (payload.length ≤ 251 → phy.phyAccessAddress = accessAddress →
      phy.encCounter.toNat = w.self.encRxPktCount →
      ∃ data, (∀ phy', blePhyTx lib.ccm phy hdrByte payload = .ok phy' →
          phy'.serialTxBuf = fifoAddBuf phy.serialTxBuf (txFrame data)) ∧
        ∀ pkt, lib.scapy.raw pkt = data →
          decryptPkt lib w.self (lib.scapy.raw pkt) =
              .ok (some (btlePacket accessAddress hdrByte payload, false)) ∧
            (decrypt lib pkt).result w =
              .ok (lib.scapy.btle (btlePacket accessAddress hdrByte payload), false)) := by
  refine ⟨fun pkt crc hdata hcrc hraw hopen hcount hfits => ?_, fun hlen haa hcount => ?_⟩
  · rw [rxBufSize] at hfits
    have hlength : (UInt8.ofNat payload.length).toNat = payload.length :=
      UInt8.toNat_ofNat_of_lt' (show _ < 256 by omega)
    have hcount' : w.self.encTxPktCount < 2 ^ 64 := hcount ▸ phy.encCounter.toNat_lt
    have hlt : (UInt8.ofNat payload.length).toNat < 252 := by omega
    have hsend := send_dataPacket lib h.encrypted h.hasKey hcount' hopen hdata accessAddress hdrByte
      (UInt8.ofNat payload.length) payload crc hlt hcrc hraw
    refine ⟨_, hsend, ?_, recvPacketDecrypt_encryptTagged lib h hcount _ _ _ _ hne hlt⟩
    rw [airPacket_length, lib.ccm.encryptTagged_length _ h.hasKey.key_length
      (Blesul.txNonce_length h.hasKey)]
  · refine ⟨blePhyTxPacket lib.ccm phy hdrByte payload, fun phy' htx => ?_, fun pkt hraw => ?_⟩
    · rw [(blePhyTx_ok lib.ccm htx).2]
    · have hpkt := decryptPkt_blePhyTxPacket lib h hcount hdrByte payload hne hlen
      rw [haa, ← hraw] at hpkt
      exact ⟨hpkt, (decrypt_long lib h.encrypted hpkt).1⟩

/-- Both ends of a link with an all-zero key and IV, at the start of the counters. -/
def zeroKeyWorld : World Unit where
  self :=
    { Blesul.init ⟨[], 1, none, 0, 0, []⟩ ⟨true, false, false, none, 0, 0, none, []⟩ 0 with
      accessAddress := some 7
      encrypted := true
      connSessionKey := List.replicate 16 0
      connIv := List.replicate 8 0 }
  env := plainEnv []
  smp := ()
  log := []

/-- Both sides use the key of zeros. -/
theorem sameKey_zeroKey :
    SameKey zeroKeyWorld.self { blePhyInit with encEnabled := true, phyAccessAddress := 7 } :=
  ⟨rfl, rfl, rfl, rfl, rfl, rfl⟩

/-- A Scapy that dissects the access address and keeps all bytes in the last layer. Of the packets
it did not dissect, it builds the empty data packet. -/
def rawScapy : Scapy where
  raw pkt :=
    match pkt.layers with
    | [.btle aa, .btleData (some llid)] => airPacket aa (UInt8.ofNat llid) 0 [] ++ [0, 0, 0]
    | layers => (layers.findSome? fun | .raw load => some load | _ => none).getD []
  btle data :=
    let kind := if isAdvChanPkt data then Layer.btleAdv 0 0 else .btleData none
    ⟨[.btle (UInt32.ofNat (leValue (data.take 4))), kind, .raw data]⟩
  hciHdr data := ⟨[.raw data]⟩
  summary _ := []

/-- `raw` gives back what `BTLE` has parsed. -/
theorem rawScapy_raw_btle (data : Bytes) : rawScapy.raw (rawScapy.btle data) = data := by
  cases hadv : isAdvChanPkt data <;> simp [rawScapy, hadv]

/-- A payload of one byte, in both directions. -/
theorem encryption_round_trip_one :
    (∃ frame : Bytes, frame.length = 11 ∧
      recvPacketDecrypt (.byteSumTag 16 13 4)
          { blePhyInit with encEnabled := true, phyAccessAddress := 7 } frame =
        (true, airPacket 7 2 1 [5])) ∧
    ∃ data, decryptPkt (plainLib rawScapy) zeroKeyWorld.self data =
      .ok (some (btlePacket 7 2 [5], false)) := by
  have h := encryption_round_trip (plainLib rawScapy) zeroKeyWorld _ sameKey_zeroKey 7 2 [5]
    (by simp)
  constructor
  · obtain ⟨frame, -, hlen, hdecrypt⟩ := h.1 (rawScapy.btle (airPacket 7 2 1 [5] ++ [0, 0, 0]))
      [0, 0, 0] rfl rfl rfl rfl rfl (by decide)
    exact ⟨frame, hlen, hdecrypt⟩
  · obtain ⟨data, -, hdecrypt⟩ := h.2 (by decide) rfl rfl
    have hraw := rawScapy_raw_btle data
    have hopen := (hdecrypt (rawScapy.btle data) hraw).1
    rw [show (plainLib rawScapy).scapy = rawScapy from rfl, hraw] at hopen
    exact ⟨data, hopen⟩

end BleFuzzer.Link
