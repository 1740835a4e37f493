import BleFuzzer.Common.AirPacket
import BleFuzzer.Mapper.Packets

/-!
# Sending and decrypting

`BLESUL.send` and the decryption in `BLESUL.receive`. The cryptographic part of each is a pure
function of the object and the bytes of the packet; the programs around them advance the packet
counters.
-/

namespace BleFuzzer.Mapper

open Driver

variable {τ : Type} (lib : Lib τ)

/-- `struct.pack` of an unsigned integer in `k` little-endian bytes. -/
def structPack (k n : ℕ) : Except PyErr Bytes :=
  if n < 256 ^ k then .ok (leBytes k n) else .error .structError

/-- The checks of `AES.new(key, AES.MODE_CCM, nonce=nonce, mac_len=4)`. -/
def aesNewCcm (key nonce : Bytes) : Except PyErr Unit :=
  if key.length ∈ [16, 24, 32] ∧ nonce.length ∈ [7, 8, 9, 10, 11, 12, 13] then
    .ok ()
  else
    .error .valueError

/-- The bytes from access address to CRC that `send` writes for the bytes of a data packet when the
link is encrypted. -/
def encryptPkt (self : Blesul) (rawPkt : Bytes) : Except PyErr Bytes := do
  if rawPkt.length < 6 then
    throw .indexError
  else
    let aa := rawPkt.take 4
    let header := rawPkt.getD 4 0
    -- a bytearray element is below 256
    let length := (rawPkt.getD 5 0).toNat + 4
    if 256 ≤ length then
      throw .valueError
    else
      let pktCount := (← structPack 8 self.encTxPktCount).take 5
      let nonce := pktCount.modify 4 (· ||| 0x80) ++ self.connIv
      aesNewCcm self.connSessionKey nonce
      let plain := (rawPkt.take (rawPkt.length - 3)).drop 6
      let encPkt := lib.ccm.encrypt self.connSessionKey nonce [header &&& 0xE3] plain
      let mic := lib.ccm.tag self.connSessionKey nonce [header &&& 0xE3] plain
      return aa ++ [header] ++ [UInt8.ofNat length] ++ encPkt ++ mic ++ [0, 0, 0]

/-- `BLESUL.send`. -/
def send (pkt : Pkt) : Program τ Unit := do
  let self ← getSelf
  if self.encrypted && pkt.hasBtleData then
    let pktSend ← Exec.lift (encryptPkt lib self (lib.scapy.raw pkt))
    record .encrypt fun self => { self with encTxPktCount := self.encTxPktCount + 1 }
    callDriver fun driver => return (driver, ← driver.rawSend pktSend)
  else
    callDriver fun driver => driver.send lib.scapy pkt

/-- The decryption of `receive` on the bytes of a packet: `none` when the packet is too short to be
encrypted, else the decrypted packet and whether it is broken. -/
def decryptPkt (self : Blesul) (rawPkt : Bytes) : Except PyErr (Option (Bytes × Bool)) := do
  if rawPkt.length < 6 then
    throw .indexError
  else
    let aa := rawPkt.take 4
    let header := rawPkt.getD 4 0
    if (rawPkt.getD 5 0).toNat < 5 then
      return none
    else
      let length := (rawPkt.getD 5 0).toNat - 4
      let pktCount := (← structPack 8 self.encRxPktCount).take 5
      -- the direction bit of a packet from the peripheral is clear
      let nonce := pktCount.modify 4 (· &&& 0x7F) ++ self.connIv
      aesNewCcm self.connSessionKey nonce
      let aad := [header &&& 0xE3]
      let encPkt := (rawPkt.take (rawPkt.length - 7)).drop 6
      let decPkt := lib.ccm.decrypt self.connSessionKey nonce aad encPkt
      let mic := (rawPkt.take (rawPkt.length - 3)).drop (6 + length)
      let data := aa ++ [header] ++ [UInt8.ofNat length] ++ decPkt ++ [0, 0, 0]
      return some (data, !lib.ccm.verify self.connSessionKey nonce aad encPkt mic)

/-- The decryption of `receive`: the packet to process and whether it is broken. -/
def decrypt (pkt : Pkt) : Program τ (Pkt × Bool) := do
  let self ← getSelf
  if self.encrypted then
    match ← Exec.lift (decryptPkt lib self (lib.scapy.raw pkt)) with
    | none => return (pkt, false)
    | some (data, isBroken) =>
      record .decrypt fun self => { self with encRxPktCount := self.encRxPktCount + 1 }
      return (lib.scapy.btle data, isBroken)
  else
    return (pkt, false)

/-! ## What the two functions compute -/

/-- The nonce of the next packet `send` encrypts. -/
def Blesul.txNonce (self : Blesul) : Bytes :=
  ((leBytes 8 self.encTxPktCount).take 5).modify 4 (· ||| 0x80) ++ self.connIv

/-- The nonce of the next packet `receive` decrypts. -/
def Blesul.rxNonce (self : Blesul) : Bytes :=
  ((leBytes 8 self.encRxPktCount).take 5).modify 4 (· &&& 0x7F) ++ self.connIv

/-- The object has a session key and an IV of the lengths of the link layer. -/
structure Blesul.HasKey (s : Blesul) : Prop where
  key_length : s.connSessionKey.length = 16
  iv_length : s.connIv.length = 8

/-- Packing a number that fits. -/
theorem structPack_eq {k n : ℕ} (h : n < 256 ^ k) : structPack k n = .ok (leBytes k n) := if_pos h

/-- A packed number can be read off its bytes. -/
theorem structPack_inj {k n : ℕ} {data : Bytes} (h : structPack k n = .ok data) :
    data = leBytes k n := by
  rw [structPack] at h
  split at h
  case isTrue => exact (Except.ok.inj h).symm
  case isFalse => cases h

/-- Only numbers that fit are packed. -/
theorem structPack_lt {k n : ℕ} {data : Bytes} (h : structPack k n = .ok data) : n < 256 ^ k := by
  rw [structPack] at h
  split at h
  case isTrue hlt => exact hlt
  case isFalse => cases h

/-- `AES.new` takes keys and nonces of the right lengths. -/
theorem aesNewCcm_eq {key nonce : Bytes} (hkey : key.length = 16) (hnonce : nonce.length = 13) :
    aesNewCcm key nonce = .ok () := by
  rw [aesNewCcm, hkey, hnonce]
  rfl

/-- The nonce for sending has the right length, with a key. -/
theorem Blesul.txNonce_length {self : Blesul} (h : self.HasKey) : self.txNonce.length = 13 := by
  simp [Blesul.txNonce, h.iv_length]

/-- So has the nonce for receiving. -/
theorem Blesul.rxNonce_length {self : Blesul} (h : self.HasKey) : self.rxNonce.length = 13 := by
  simp [Blesul.rxNonce, h.iv_length]

/-- **What `send` makes of a data packet**: the length byte grows by the tag, and the payload is
replaced by its cipher text and the tag. -/
theorem encryptPkt_eq {self : Blesul} (h : self.HasKey) (hcount : self.encTxPktCount < 2 ^ 64)
    (accessAddress : UInt32) (hdrByte length : UInt8) (payload crc : Bytes)
    (hlength : length.toNat + 4 < 256) (hcrc : crc.length = 3) :
    encryptPkt lib self (airPacket accessAddress hdrByte length payload ++ crc) =
      .ok (airPacket accessAddress hdrByte (length + 4)
        (lib.ccm.encryptTagged self.connSessionKey self.txNonce [hdrByte &&& 0xE3] payload) ++
          [0, 0, 0]) := by
  have hpayload := airPacket_slice accessAddress hdrByte length (payload ++ crc) 0 3 (by simp; omega)
  have hkeep : (payload ++ crc).take ((payload ++ crc).length - 3) = payload := by
    rw [List.length_append, hcrc, Nat.add_sub_cancel, List.take_left]
  rw [hkeep, Nat.add_zero, List.drop_zero] at hpayload
  have hsum : UInt8.ofNat (length.toNat + 4) = length + 4 := by
    rw [← UInt8.toNat_inj, UInt8.toNat_add, UInt8.toNat_ofNat']
    rfl
  rw [airPacket_append, encryptPkt, if_neg (by rw [airPacket_length]; omega)]
  simp only [airPacket_getD_four, airPacket_getD_five, airPacket_take_four, hpayload, hsum]
  rw [if_neg (by omega), structPack_eq hcount]
  show (aesNewCcm self.connSessionKey self.txNonce >>= _) = _
  rw [aesNewCcm_eq h.key_length (Blesul.txNonce_length h)]
  show Except.ok _ = _
  rw [Aead.encryptTagged, airPacket]
  simp only [List.append_assoc, List.cons_append, List.nil_append]
  rfl

/-- A packet with a length byte below five is not decrypted. -/
theorem decryptPkt_short (self : Blesul) (accessAddress : UInt32) (hdrByte length : UInt8)
    (payload : Bytes) (hlength : length.toNat < 5) :
    decryptPkt lib self (airPacket accessAddress hdrByte length payload) = .ok none := by
  rw [decryptPkt, if_neg (by rw [airPacket_length]; omega), airPacket_getD_five, if_pos hlength]
  rfl

/-- A packet with a length byte of at least five is decrypted, or the call raises. -/
theorem decryptPkt_ne_none (self : Blesul) (raw : Bytes) (hlong : 5 ≤ (raw.getD 5 0).toNat) :
    decryptPkt lib self raw ≠ .ok none := by
  intro h
  rw [decryptPkt] at h
  split at h
  case isTrue => cases h
  case isFalse =>
    rw [if_neg (by omega), structPack] at h
    by_cases hcount : self.encRxPktCount < 256 ^ 8
    · rw [if_pos hcount] at h
      match hnew : aesNewCcm self.connSessionKey self.rxNonce with
      | .error e =>
        have hraise : (aesNewCcm self.connSessionKey self.rxNonce >>= _) = Except.ok _ := h
        rw [hnew] at hraise
        cases hraise
      | .ok () =>
        have hreturn : (aesNewCcm self.connSessionKey self.rxNonce >>= _) = Except.ok _ := h
        rw [hnew] at hreturn
        cases hreturn
    · rw [if_neg hcount] at h
      cases h

/-- The packets that are long enough are decrypted. -/
theorem decryptPkt_isSome {self : Blesul} {rawPkt : Bytes} {dec : Option (Bytes × Bool)}
    (h : decryptPkt lib self rawPkt = .ok dec) :
    dec.isSome = decide (5 ≤ (rawPkt.getD 5 0).toNat) := by
  by_cases hlong : 5 ≤ (rawPkt.getD 5 0).toNat
  · rw [decide_eq_true hlong]
    cases dec with
    | none => exact absurd h (decryptPkt_ne_none lib self rawPkt hlong)
    | some dec => rfl
  · rw [decide_eq_false hlong]
    rw [decryptPkt] at h
    split at h
    case isTrue => cases h
    case isFalse =>
      rw [if_pos (by omega)] at h
      obtain rfl : none = dec := Except.ok.inj h
      rfl

/-- The decryption of any packet, from the slices `receive` takes of it. -/
theorem decryptPkt_some {self : Blesul} {raw data : Bytes} {isBroken : Bool}
    (h : decryptPkt lib self raw = .ok (some (data, isBroken))) :
    let length := (raw.getD 5 0).toNat - 4
    let aad := [raw.getD 4 0 &&& 0xE3]
    let encPkt := (raw.take (raw.length - 7)).drop 6
    let mic := (raw.take (raw.length - 3)).drop (6 + length)
    6 ≤ raw.length ∧
      data = raw.take 4 ++ [raw.getD 4 0] ++ [UInt8.ofNat length] ++
        lib.ccm.decrypt self.connSessionKey self.rxNonce aad encPkt ++ [0, 0, 0] ∧
      isBroken = !lib.ccm.verify self.connSessionKey self.rxNonce aad encPkt mic := by
  rw [decryptPkt] at h
  split at h
  case isTrue => cases h
  case isFalse hlen =>
    split at h
    case isTrue => cases h
    case isFalse =>
      by_cases hcount : self.encRxPktCount < 256 ^ 8
      · rw [structPack_eq hcount] at h
        match hnew : aesNewCcm self.connSessionKey self.rxNonce with
        | .error e =>
          have hraise : (aesNewCcm self.connSessionKey self.rxNonce >>= _) = Except.ok _ := h
          rw [hnew] at hraise
          cases hraise
        | .ok () =>
          have hreturn : (aesNewCcm self.connSessionKey self.rxNonce >>= _) = Except.ok _ := h
          rw [hnew] at hreturn
          obtain ⟨rfl, rfl⟩ := Prod.mk.inj (Option.some.inj (Except.ok.inj hreturn))
          exact ⟨by omega, rfl, rfl⟩
      · rw [structPack, if_neg hcount] at h
        cases h

/-- **What `receive` makes of an encrypted packet**: the length byte loses the tag, the payload is
decrypted, and the packet is broken when the tag does not verify. -/
theorem decryptPkt_eq {self : Blesul} (h : self.HasKey) (hcount : self.encRxPktCount < 2 ^ 64)
    (accessAddress : UInt32) (hdrByte length : UInt8) (cipher mac crc : Bytes)
    (hlength : length.toNat = cipher.length + 4) (hpos : cipher ≠ []) (hmac : mac.length = 4)
    (hcrc : crc.length = 3) :
    decryptPkt lib self (airPacket accessAddress hdrByte length (cipher ++ mac) ++ crc) =
      .ok (some
        (airPacket accessAddress hdrByte (UInt8.ofNat cipher.length)
            (lib.ccm.decrypt self.connSessionKey self.rxNonce [hdrByte &&& 0xE3] cipher) ++
          [0, 0, 0],
        !lib.ccm.verify self.connSessionKey self.rxNonce [hdrByte &&& 0xE3] cipher mac)) := by
  have hlen : (cipher ++ mac ++ crc).length = cipher.length + 7 := by
    rw [List.length_append, List.length_append, hmac, hcrc]
  have hcipher := airPacket_slice accessAddress hdrByte length (cipher ++ mac ++ crc) 0 7 (by omega)
  have hmic := airPacket_slice accessAddress hdrByte length (cipher ++ mac ++ crc) cipher.length 3
    (by omega)
  have hkeep : (cipher ++ mac ++ crc).take (cipher.length + 7 - 7) = cipher := by
    rw [Nat.add_sub_cancel, List.append_assoc, List.take_left]
  have htag : ((cipher ++ mac ++ crc).take (cipher.length + 7 - 3)).drop cipher.length = mac := by
    have hcut : cipher.length + 7 - 3 = (cipher ++ mac).length := by
      rw [List.length_append, hmac]
      omega
    rw [hcut, List.take_left, List.drop_left]
  rw [hlen, hkeep, Nat.add_zero, List.drop_zero] at hcipher
  rw [hlen, htag] at hmic
  have hsub : length.toNat - 4 = cipher.length := by omega
  have hge : ¬ length.toNat < 5 := by
    have := List.length_pos_of_ne_nil hpos
    omega
  rw [airPacket_append, decryptPkt, if_neg (by rw [airPacket_length]; omega)]
  simp only [airPacket_getD_four, airPacket_getD_five, airPacket_take_four, hcipher, hsub, hmic]
  rw [if_neg hge, structPack_eq hcount]
  show (aesNewCcm self.connSessionKey self.rxNonce >>= _) = _
  rw [aesNewCcm_eq h.key_length (Blesul.rxNonce_length h)]
  show Except.ok _ = _
  simp only [airPacket, List.append_assoc, List.cons_append, List.nil_append]
  rfl

/-! ## The two programs -/

/-- An encrypted `send` writes one frame and advances the counter. -/
theorem send_encrypted {w : World τ} {pkt : Pkt} {pktSend : Bytes} (henc : w.self.encrypted = true)
    (hdata : pkt.hasBtleData = true) (hopen : w.self.driver.serialOpen = true)
    (hpkt : encryptPkt lib w.self (lib.scapy.raw pkt) = .ok pktSend) :
    (send lib pkt).Returns w ()
      { w with
        self := { w.self with encTxPktCount := w.self.encTxPktCount + 1 }
        log := w.log ++ [.encrypt] ++ [.tx (dataFrame (cutCrc pktSend))] } := by
  refine (getSelf_returns w).bind ?_
  rw [if_pos (by rw [henc, hdata]; rfl)]
  refine (Exec.Returns.lift hpkt w).bind ((record_returns _ _ w).bind ?_)
  refine @callDriver_returns _ _ _ w.self.driver _ ?_
  rw [Nrf52.rawSend, Nrf52.write, if_pos hopen]
  rfl

/-- Any other `send` writes the packet as it is. -/
theorem send_plain {w : World τ} {pkt : Pkt} (henc : (w.self.encrypted && pkt.hasBtleData) = false)
    (hopen : w.self.driver.serialOpen = true) :
    ∃ driver, driver.serialOpen = true ∧ (send lib pkt).Returns w ()
      { w with
        self := { w.self with driver := driver }
        log := w.log ++ [.tx (dataFrame (cutCrc (lib.scapy.raw pkt)))] } := by
  obtain ⟨driver, hdriver, hsend⟩ := Nrf52.send_open lib.scapy pkt hopen
  refine ⟨driver, hdriver, (getSelf_returns w).bind ?_⟩
  rw [if_neg (by rw [henc]; exact Bool.false_ne_true)]
  exact callDriver_returns hsend

/-- Decrypting a packet that is long enough advances the counter, whether or not its tag verifies.
-/
theorem decrypt_long {w : World τ} {pkt : Pkt} {data : Bytes} {isBroken : Bool}
    (henc : w.self.encrypted = true)
    (hpkt : decryptPkt lib w.self (lib.scapy.raw pkt) = .ok (some (data, isBroken))) :
    (decrypt lib pkt).Returns w (lib.scapy.btle data, isBroken)
      { w with
        self := { w.self with encRxPktCount := w.self.encRxPktCount + 1 }
        log := w.log ++ [.decrypt] } := by
  refine (getSelf_returns w).bind ?_
  rw [if_pos henc]
  exact (Exec.Returns.lift hpkt w).bind ((record_returns _ _ w).bind (.pure _ _))

/-- An exception of the decryption goes through. -/
theorem decrypt_error {w : World τ} {pkt : Pkt} {e : PyErr} (henc : w.self.encrypted = true)
    (hpkt : decryptPkt lib w.self (lib.scapy.raw pkt) = .error e) :
    (decrypt lib pkt).result w = .error e := by
  have hself := getSelf_returns w
  rw [decrypt, (Exec.bind_ok hself.1).1, hself.2, if_pos henc, hpkt]
  exact (Exec.bind_error (Exec.throw_result e w)).1

/-- A packet that is too short is passed on as it is. -/
theorem decrypt_short {w : World τ} {pkt : Pkt}
    (hpkt : decryptPkt lib w.self (lib.scapy.raw pkt) = .ok none) :
    (decrypt lib pkt).Returns w (pkt, false) w := by
  refine (getSelf_returns w).bind ?_
  split
  · exact (Exec.Returns.lift hpkt w).bind (.pure _ _)
  · exact .pure _ _

/-- Without encryption every packet is passed on as it is. -/
theorem decrypt_plain {w : World τ} (pkt : Pkt) (henc : w.self.encrypted = false) :
    (decrypt lib pkt).Returns w (pkt, false) w := by
  refine (getSelf_returns w).bind ?_
  rw [henc, if_neg Bool.false_ne_true]
  exact .pure _ _

/-- **What `decrypt` does**: it passes the packet on, or decrypts it and advances the counter. -/
theorem decrypt_cases {pkt pkt' : Pkt} {isBroken : Bool} {w w' : World τ}
    (h : (decrypt lib pkt).Returns w (pkt', isBroken) w') :
    ((w.self.encrypted && 5 ≤ ((lib.scapy.raw pkt).getD 5 0).toNat) = false ∧ pkt' = pkt ∧
        isBroken = false ∧ w' = w) ∨
      ((w.self.encrypted && 5 ≤ ((lib.scapy.raw pkt).getD 5 0).toNat) = true ∧
        ∃ data, decryptPkt lib w.self (lib.scapy.raw pkt) = .ok (some (data, isBroken)) ∧
          pkt' = lib.scapy.btle data ∧
          w' = { w with
            self := { w.self with encRxPktCount := w.self.encRxPktCount + 1 }
            log := w.log ++ [.decrypt] }) := by
  have h := of_getSelf_bind h
  cases hon : w.self.encrypted with
  | false =>
    rw [hon, if_neg Bool.false_ne_true] at h
    obtain ⟨hpkt, rfl⟩ := h.of_pure
    obtain ⟨rfl, rfl⟩ := Prod.mk.inj hpkt
    exact .inl ⟨rfl, rfl, rfl, rfl⟩
  | true =>
    rw [hon, if_pos rfl] at h
    obtain ⟨dec, w₁, hlift, h⟩ := h.of_bind
    obtain ⟨hdec, rfl⟩ := hlift.of_lift
    rw [Bool.true_and, ← decryptPkt_isSome lib hdec]
    cases dec with
    | none =>
      obtain ⟨hpkt, rfl⟩ := h.of_pure
      obtain ⟨rfl, rfl⟩ := Prod.mk.inj hpkt
      exact .inl ⟨rfl, rfl, rfl, rfl⟩
    | some dec =>
      obtain ⟨_, w₂, hrecord, h⟩ := h.of_bind
      obtain ⟨hpkt, rfl⟩ := h.of_pure
      obtain ⟨rfl, rfl⟩ := Prod.mk.inj hpkt
      obtain rfl := hrecord.of_modify
      exact .inr ⟨rfl, dec.1, hdec, rfl, rfl⟩

end BleFuzzer.Mapper
