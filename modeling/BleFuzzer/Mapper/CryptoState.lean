import BleFuzzer.Mapper.Passes

/-!
# The crypto state and the packets received

What a packet does to the encryption, as a machine of its own: in every receive window it may end
the encryption or bring a long-term key (`CryptoState.receive`), and in the window of the step that
asks for it an answer takes effect (`CryptoState.answer`). The windows of the mapper refine this
machine.
-/

namespace BleFuzzer.Mapper

open Driver Exec

variable {τ : Type} (lib : Lib τ) (cls : MapperClass)

/-! ## The machine -/

/-- The encryption flag, session key, IV and SKD, and what they come from. -/
structure CryptoState (τ : Type) where
  encrypted : Bool
  connSessionKey : Bytes
  connIv : Bytes
  connSkd : Bytes
  connLtk : Bytes
  smp : τ
  centralAddress : Addr
  peripheralAddress : Addr
  peripheralAddressIsRand : ℕ

def World.crypto (w : World τ) : CryptoState τ where
  encrypted := w.self.encrypted
  connSessionKey := w.self.connSessionKey
  connIv := w.self.connIv
  connSkd := w.self.connSkd
  connLtk := w.self.connLtk
  smp := w.smp
  centralAddress := w.self.centralAddress
  peripheralAddress := w.self.peripheralAddress
  peripheralAddressIsRand := w.self.peripheralAddressIsRand

namespace CryptoState

/-- The long-term key after an answer of the SMP server. -/
def ltkNext (ltk : Bytes) (answer : Bytes) : Bytes :=
  let res := lib.scapy.hciHdr answer
  if res.smConfirm.isSome || res.smRandom.isSome then ltk else res.hciCmdLeEnableEncryption.getD ltk

/-- A packet of the security manager goes to the SMP server. -/
def process (c : CryptoState τ) (pkt : Pkt) : CryptoState τ :=
  if pkt.hasSmHdr then
    let answer := lib.smp.sendHci
      (lib.scapy.raw ⟨[.hciHdr, .hciAclHdr, .l2capHdr] ++ pkt.fromSmHdr⟩) c.smp
    { c with smp := answer.2, connLtk := (answer.1.getD []).foldl (ltkNext lib) c.connLtk }
  else
    c

/-- A packet received in any window. -/
def receive (c : CryptoState τ) (pkt : Pkt) : CryptoState τ :=
  process lib { c with encrypted := c.encrypted && !pkt.hasBtleAdv } pkt

/-- An answer to `LL_CTRL_ENC_REQ`. -/
def handshake (c : CryptoState τ) (pkt : Pkt) : CryptoState τ :=
  match pkt.llEncRsp with
  | some (skds, ivs) =>
    let connSkd := c.connSkd.take 8 ++ leBytes 8 skds
    { c with
      connSkd := connSkd
      connIv := c.connIv.take 4 ++ leBytes 4 ivs
      connSessionKey :=
        if c.encrypted then c.connSessionKey else lib.ecb c.connLtk.reverse connSkd.reverse }
  | none => if pkt.hasLlStartEncReq then { c with encrypted := true } else c

/-- What the step that asks for an answer makes of a packet. -/
def answer (sym : InputSymbol) (c : CryptoState τ) (pkt : Pkt) : CryptoState τ :=
  match sym with
  | .llCtrlEncReq => handshake lib c pkt
  | .llCtrlPauseEncReq => if pkt.hasLlPauseEncRsp then { c with encrypted := false } else c
  | .llAdvScanReq =>
    if (pkt.hasBtleScanRsp || pkt.hasBtleAdv) && pkt.advA == some c.peripheralAddress then
      { c with peripheralAddressIsRand := pkt.txAdd.getD c.peripheralAddressIsRand }
    else
      c
  | _ => c

/-- A packet received in the window of a step. -/
def next (sym : InputSymbol) (c : CryptoState τ) (pkt : Pkt) : CryptoState τ :=
  answer lib sym (receive lib c pkt) pkt

/-- The SMP server is configured for a pairing and asked for the request. -/
def pair (c : CryptoState τ) (pairingIocap authentication : ℕ) : CryptoState τ :=
  { c with
    smp := (lib.smp.pairingRequest (lib.smp.configureConnection c.centralAddress c.peripheralAddress
      c.peripheralAddressIsRand pairingIocap authentication
      (lib.smp.setPinCode [0, 0, 0, 0] c.smp))).2 }

/-- What the method `_pre` of an input symbol does. -/
def input (sym : InputSymbol) (c : CryptoState τ) : CryptoState τ :=
  match sym with
  | .llAdvScanReq => if cls.llAdvScanReqKeeps then c else { c with encrypted := false }
  | .llAdvConnectInd => { c with encrypted := false }
  | .smPairingReq => pair lib c 0x03 0x01
  | .smPairingReqSc => pair lib c 0x01 0x09
  | _ => c

/-- What `reset` does, with the central address it draws. -/
def reset (c : CryptoState τ) (centralAddress : Addr) : CryptoState τ :=
  { c with
    encrypted := false
    connSessionKey := List.replicate 16 0
    connIv := List.replicate 8 0
    connSkd := List.replicate 16 0
    connLtk := List.replicate 16 0
    centralAddress := centralAddress }

end CryptoState

/-- Scapy tells an advertising packet by its access address, if there are an access address, a
header, a length byte and a CRC. -/
def TellsAdv : Prop :=
  ∀ data dec : Bytes, 9 ≤ (lib.scapy.raw (lib.scapy.btle data)).length → 9 ≤ dec.length →
    dec.take 4 = (lib.scapy.raw (lib.scapy.btle data)).take 4 →
    (lib.scapy.btle dec).hasBtleAdv = (lib.scapy.btle data).hasBtleAdv

variable {lib} {cls}

/-! ## Receiving -/

/-- Sending and judging leave the crypto state alone. -/
theorem bare_crypto {α : Type} {m : Program τ α} (h : Steps (BareAssign lib) m) (w : World τ) :
    (m.final w).crypto = w.crypto := by
  refine h.final (P := fun t => t.crypto = w.crypto) (fun s t hassign hs => ?_) rfl
  refine Eq.trans ?_ hs
  cases hassign <;> rfl

/-- Key material other than the LTK is not part of it. -/
theorem smpMaterial_crypto (w : World τ) (res : Pkt) :
    ({ w with self := smpMaterial w.self res } : World τ).crypto = w.crypto := by
  rw [World.crypto, smpMaterial]
  repeat' split
  all_goals rfl

/-- Of the answers of the SMP server, the LTKs are taken over. -/
theorem smpAnswers_crypto (answers : List Bytes) (w : World τ) :
    ((smpAnswers lib answers).final w).crypto =
      { w.crypto with connLtk := answers.foldl (CryptoState.ltkNext lib) w.crypto.connLtk } := by
  induction answers generalizing w with
  | nil => rfl
  | cons data answers ih =>
    have hassign (f : World τ → World τ) := congrArg World.crypto
      (modify_bind_final f (smpAnswers lib answers) w)
    rw [smpAnswers, List.foldl_cons, CryptoState.ltkNext]
    cases (lib.scapy.hciHdr data).smConfirm with
    | some confirm => exact (hassign _).trans (ih _)
    | none =>
      cases (lib.scapy.hciHdr data).smRandom with
      | some random => exact (hassign _).trans (ih _)
      | none =>
        cases (lib.scapy.hciHdr data).hciCmdLeEnableEncryption with
        | some ltk => exact (hassign _).trans (ih _)
        | none =>
          have hkept := smpMaterial_crypto w (lib.scapy.hciHdr data)
          refine (hassign _).trans ((ih _).trans ?_)
          rw [hkept]
          rfl

/-- The SMP server changes the crypto state as its model says. -/
theorem smpProcess_crypto {pkt : Pkt} (hsm : pkt.hasSmHdr = true) (w : World τ) :
    ((smpProcess lib pkt).final w).crypto = w.crypto.process lib pkt := by
  have hsmp : w.crypto.smp = w.smp := rfl
  rw [smpProcess, (bind_ok (get_result w)).2.1, get_final, modify_bind_final, CryptoState.process,
    if_pos hsm, hsmp]
  dsimp only
  cases (lib.smp.sendHci _ w.smp).1 with
  | none => rfl
  | some answers => exact smpAnswers_crypto answers _

/-- An SM packet goes to the SMP server, and nothing else of it concerns the crypto state. -/
theorem processPkt_crypto {pkt : Pkt} {restart : Option ℤ} {w w' : World τ}
    (h : (processPkt lib cls pkt).Returns w restart w') :
    w'.crypto = w.crypto.process lib pkt := by
  rw [processPkt_eq] at h
  obtain ⟨_, w₁, hreset, h⟩ := h.of_bind
  obtain ⟨_, w₂, hprocess, hanswer⟩ := h.of_bind
  have hkept : w₁.crypto = w.crypto := by
    rw [← hreset.2]
    split
    · exact bare_crypto (@resetDevice_bare _ lib) w
    · rfl
  have hanswered : w'.crypto = w₂.crypto := hanswer.2 ▸ bare_crypto (answerPkt_bare pkt) w₂
  rw [hanswered, ← hkept, ← hprocess.2]
  split
  case isTrue hsm => exact smpProcess_crypto hsm w₁
  case isFalse hsm => rw [CryptoState.process, if_neg hsm]; rfl

/-- `fix_packet` adds no advertising header. -/
theorem fixPacket_hasBtleAdv (pkt : Pkt) : (fixPacket pkt).hasBtleAdv = pkt.hasBtleAdv := by
  rw [fixPacket]
  split
  · simp [Pkt.push, Pkt.hasBtleAdv]
  · split
    · simp [Pkt.push, Pkt.hasBtleAdv]
    · split
      · simp [Pkt.push, Pkt.hasBtleAdv]
      · rfl

/-- A packet with a tag that verifies has room for it and the CRC. -/
theorem decryptPkt_verified {self : Blesul} {raw data : Bytes}
    (h : decryptPkt lib self raw = .ok (some (data, false))) :
    9 ≤ raw.length ∧ 9 ≤ data.length ∧ data.take 4 = raw.take 4 := by
  obtain ⟨hlength, hdata, hverify⟩ := decryptPkt_some lib h
  have hmic := lib.ccm.length_of_verify _ _ _ _ _ (by simpa using hverify)
  rw [List.length_drop, List.length_take] at hmic
  have hlong : 9 ≤ raw.length := by omega
  refine ⟨hlong, ?_, ?_⟩
  · rw [hdata]
    simp only [List.length_append, List.length_take, List.length_cons, List.length_nil]
    omega
  · -- the header of the decrypted packet is the one received
    rw [hdata, List.append_assoc, List.append_assoc, List.append_assoc, List.take_append_of_le_length,
      List.take_take, Nat.min_self]
    rw [List.length_take]
    omega

/-- The decryption leaves the crypto state alone, and an advertisement as it is unless it is broken.
-/
theorem decrypt_crypto (hlib : TellsAdv lib) {data : Bytes} {pkt : Pkt} {isBroken : Bool}
    {w w' : World τ} (h : (decrypt lib (lib.scapy.btle data)).Returns w (pkt, isBroken) w') :
    w'.crypto = w.crypto ∧ (isBroken = false → pkt.hasBtleAdv = (lib.scapy.btle data).hasBtleAdv) ∧
      (isBroken = true → w.self.encrypted = true) := by
  rcases decrypt_cases lib h with ⟨-, rfl, rfl, rfl⟩ | ⟨hdecrypts, bytes, hdec, rfl, rfl⟩
  · exact ⟨rfl, fun _ => rfl, nofun⟩
  · refine ⟨rfl, ?_, fun _ => (Bool.and_eq_true_iff.mp hdecrypts).1⟩
    rintro rfl
    obtain ⟨hraw, hbytes, htake⟩ := decryptPkt_verified hdec
    exact hlib _ _ hraw hbytes htake

/-- A packet that is accepted ends the encryption if it is an advertisement. -/
theorem acceptData_crypto (hlib : TellsAdv lib) {data : Bytes} {accepted : Option Pkt} {w w' : World τ}
    (h : (acceptData lib data).Returns w accepted w') :
    w'.crypto = accepted.elim w.crypto fun pkt =>
      { w.crypto with encrypted := w.crypto.encrypted && !pkt.hasBtleAdv } := by
  rcases acceptData_cases lib h with ⟨-, rfl, rfl⟩ | ⟨-, pkt, isBroken, hdecrypt, rfl⟩
  · rfl
  · obtain ⟨hkept, hpkt, hbroken⟩ := decrypt_crypto hlib hdecrypt
    rw [hkept]
    cases isBroken with
    | true =>
      -- only a packet that was decrypted can be broken, so the encryption has not been ended
      have hon := Bool.and_eq_true_iff.mp (hbroken rfl)
      simp [World.crypto, hon.1, hon.2]
    | false =>
      rw [if_neg Bool.false_ne_true, Option.elim_some, fixPacket_hasBtleAdv, hpkt rfl]
      rfl

/-- A result of `raw_receive` is at most one packet. -/
theorem receiveResult_crypto (hlib : TellsAdv lib) {data : Option Bytes} {new : List Pkt}
    {restart : Option ℤ} {w w' : World τ}
    (h : (receiveResult lib cls data).Returns w (new, restart) w') :
    new.length ≤ 1 ∧ w'.crypto = new.foldl (CryptoState.receive lib) w.crypto := by
  match data with
  | none =>
    obtain ⟨hnew, rfl⟩ := h.of_pure
    obtain ⟨rfl, -⟩ := Prod.mk.inj hnew
    exact ⟨Nat.zero_le _, rfl⟩
  | some data =>
    obtain ⟨accepted, w₁, haccept, h⟩ := h.of_bind
    have hcrypto := acceptData_crypto hlib haccept
    match accepted with
    | none =>
      obtain ⟨hnew, rfl⟩ := h.of_pure
      obtain ⟨rfl, -⟩ := Prod.mk.inj hnew
      exact ⟨Nat.zero_le _, hcrypto⟩
    | some pkt =>
      obtain ⟨restart', w₂, hprocess, h⟩ := h.of_bind
      obtain ⟨hnew, rfl⟩ := h.of_pure
      obtain ⟨rfl, -⟩ := Prod.mk.inj hnew
      refine ⟨le_rfl, ?_⟩
      rw [processPkt_crypto hprocess, hcrypto]
      rfl

/-- **A call of `receive`** takes the crypto state through the packets it returns. -/
theorem receiveLoop_crypto (hlib : TellsAdv lib) {recvSMin recvSMax : Option ℤ} {maxPkts : ℕ}
    {req : Option Pkt} {bound : ℕ} {packets pkts : List Pkt} {timeStart : ℤ} {w w' : World τ}
    (h : (receiveLoop lib cls recvSMin recvSMax maxPkts req bound packets timeStart).Returns w pkts
      w') :
    ∃ new, pkts = packets ++ new ∧ w'.crypto = new.foldl (CryptoState.receive lib) w.crypto ∧
      (maxPkts = 1 → packets = [] → new.length ≤ 1) := by
  induction bound generalizing packets timeStart w with
  | zero => exact h.not_throw.elim
  | succ bound ih =>
    rw [receiveLoop_succ] at h
    obtain ⟨pass, w₁, hpass, h⟩ := h.of_bind
    obtain ⟨data, w₂, hraw, hpass⟩ := hpass.of_bind
    obtain ⟨⟨new, restart⟩, w₃, hresult, hend⟩ := hpass.of_bind
    obtain ⟨hone, hcrypto⟩ := receiveResult_crypto hlib hresult
    obtain ⟨hpackets, hfull⟩ := endPass_packets hend
    have hkept : w₂.crypto = w.crypto := by
      obtain ⟨rx, -, rfl⟩ := rawReceive_returns_iff.mp hraw
      rfl
    have hpassed : w₁.crypto = new.foldl (CryptoState.receive lib) w.crypto := by
      rw [← hkept, ← hcrypto, ← hend.2, bare_crypto (endPass_bare _ _ _ _ _ _ _)]
    cases hcomplete : pass.complete with
    | true =>
      rw [hcomplete, if_pos rfl] at h
      obtain ⟨rfl, rfl⟩ := h.of_pure
      exact ⟨new, hpackets, hpassed, fun _ _ => hone⟩
    | false =>
      rw [hcomplete, if_neg Bool.false_ne_true, hpackets] at h
      obtain ⟨rest, hpkts, hrest, hlength⟩ := ih h
      refine ⟨new ++ rest, by rw [hpkts, List.append_assoc], ?_, ?_⟩
      · rw [hrest, hpassed, List.foldl_append]
      · rintro hmax rfl
        -- a pass that does not end a window of one packet has received none
        have hnone : new = [] := by
          match new with
          | [] => rfl
          | [pkt] => exact nomatch hcomplete.symm.trans (hfull hmax rfl)
        rw [hnone, List.nil_append]
        exact hlength hmax (by rw [hnone, List.append_nil])

/-- `receive` folds its effect over the packets it returns. -/
theorem receive_crypto (hlib : TellsAdv lib) {recvSMin recvSMax : Option ℤ} {maxPkts : ℕ}
    {req : Option Pkt} {pkts : List Pkt} {w w' : World τ}
    (h : (receive lib cls recvSMin recvSMax maxPkts req).Returns w pkts w') :
    w'.crypto = pkts.foldl (CryptoState.receive lib) w.crypto ∧
      (maxPkts = 1 → pkts.length ≤ 1) := by
  obtain ⟨timeStart, w₁, htime, h⟩ := h.of_bind
  obtain ⟨w₂, w₃, hget, h⟩ := h.of_bind
  obtain ⟨rfl, rfl⟩ := hget.of_get
  obtain ⟨new, rfl, hcrypto, hlength⟩ := receiveLoop_crypto hlib h
  have hkept : w₁.crypto = w.crypto := htime.2 ▸ bare_crypto (@time_bare _ lib) w
  exact ⟨by rw [hcrypto, hkept], fun hmax => hlength hmax rfl⟩

/-! ## Handlers -/

/-- An `LL_ENC_RSP` makes the session key and the IV. -/
theorem handleEncRsp_crypto {pkt : Pkt} {skds ivs : ℕ} (hrsp : pkt.llEncRsp = some (skds, ivs))
    {w w' : World τ} (h : (handleEncRsp lib skds ivs).Returns w () w') :
    w'.crypto = w.crypto.handshake lib pkt := by
  rw [handleEncRsp_of_returns lib h, CryptoState.handshake, hrsp]
  rfl

/-- The loop of `ll_ctrl_enc_req` handles each packet it receives. -/
theorem encReqLoop_crypto (hlib : TellsAdv lib) {timeStart : ℤ} {bound : ℕ} {pkt : Pkt}
    {resPkts pkts : List Pkt} {w w' : World τ}
    (h : (encReqLoop lib cls timeStart bound pkt resPkts).Returns w pkts w') :
    ∃ new, pkts = resPkts ++ new ∧
      w'.crypto = new.foldl (CryptoState.next lib .llCtrlEncReq) w.crypto := by
  induction bound generalizing pkt resPkts w with
  | zero => exact h.not_throw.elim
  | succ bound ih =>
    obtain ⟨complete, w₁, htime, h⟩ := encReqLoop_cases lib cls h
    have hkept : w₁.crypto = w.crypto := by
      obtain ⟨timeNow, w₀, htime, hcomplete⟩ := htime.of_bind
      rw [← hcomplete.2, bare_crypto (isRspComplete_bare _ _ _ _ _), ← htime.2,
        bare_crypto (@time_bare _ lib)]
    rcases h with ⟨-, rfl, rfl⟩ | ⟨received, w₂, hreceive, ⟨rfl, h⟩ | ⟨next, rest, w₃, rfl, hnext, h⟩⟩
    · exact ⟨[], (List.append_nil _).symm, hkept⟩
    · obtain ⟨hcrypto, -⟩ := receive_crypto hlib hreceive
      obtain ⟨new, hpkts, hnew⟩ := ih h
      exact ⟨new, hpkts, by rw [hnew, hcrypto, hkept]; rfl⟩
    · obtain ⟨hcrypto, hone⟩ := receive_crypto hlib hreceive
      -- the window has room for one packet
      obtain rfl : rest = [] := by simpa using hone rfl
      have hhandled : w₃.crypto = w₂.crypto.handshake lib next := by
        rcases hnext with ⟨skds, ivs, hrsp, hhandle⟩ | ⟨hrsp, rfl⟩
        · exact handleEncRsp_crypto hrsp hhandle
        · rw [CryptoState.handshake, hrsp]
          cases next.hasLlStartEncReq <;> simp [World.crypto]
      obtain ⟨new, hpkts, hnew⟩ := ih h
      refine ⟨next :: new, by rw [hpkts, List.append_assoc]; rfl, ?_⟩
      rw [hnew, hhandled, hcrypto, hkept]
      rfl

/-! ## Requests -/

/-- Two folds over a list may be made one after the other, if their steps commute. -/
theorem foldl_foldl_of_comm {α β : Type} {f g : α → β → α}
    (hcomm : ∀ a b b', g (f a b) b' = f (g a b') b) (a : α) (bs : List β) :
    bs.foldl (fun a b => g (f a b) b) a = bs.foldl g (bs.foldl f a) := by
  have hswap (a : α) (b : β) (bs : List β) : bs.foldl f (g a b) = g (bs.foldl f a) b := by
    induction bs generalizing a with
    | nil => rfl
    | cons b' bs ih => rw [List.foldl_cons, List.foldl_cons, ← hcomm, ih]
  induction bs generalizing a with
  | nil => rfl
  | cons b bs ih => rw [List.foldl_cons, List.foldl_cons, List.foldl_cons, ih, hswap]

/-- The methods `_post` look at what no packet changes when it is received. -/
theorem answer_receive_comm {sym : InputSymbol} (hsym : sym ≠ .llCtrlEncReq) (c : CryptoState τ)
    (pkt pkt' : Pkt) :
    CryptoState.answer lib sym (CryptoState.receive lib c pkt) pkt' =
      CryptoState.receive lib (CryptoState.answer lib sym c pkt') pkt := by
  have haddress : (CryptoState.receive lib c pkt).peripheralAddress = c.peripheralAddress := by
    simp only [CryptoState.receive, CryptoState.process]
    split <;> rfl
  cases sym
  case llCtrlEncReq => exact absurd rfl hsym
  case llCtrlPauseEncReq =>
    simp only [CryptoState.answer, CryptoState.receive, CryptoState.process]
    repeat' split
    all_goals simp
  case llAdvScanReq =>
    rw [CryptoState.answer, CryptoState.answer, haddress]
    simp only [CryptoState.receive, CryptoState.process]
    repeat' split
    all_goals rfl
  all_goals rfl

/-- The answers to a scan request say whether the address is random. -/
theorem llAdvScanReqPost_crypto {pkts : List Pkt} {w w' : World τ}
    (h : (llAdvScanReqPost pkts).Returns w () w') :
    w'.crypto = pkts.foldl (CryptoState.answer lib .llAdvScanReq) w.crypto := by
  induction pkts generalizing w with
  | nil =>
    obtain ⟨-, rfl⟩ := h.of_pure
    rfl
  | cons pkt pkts ih =>
    have h := of_getSelf_bind h
    have haddress : w.crypto.peripheralAddress = w.self.peripheralAddress := rfl
    rw [List.foldl_cons, CryptoState.answer, haddress]
    split at h
    case isTrue hscan =>
      rw [if_pos hscan]
      match htxAdd : pkt.txAdd with
      | none =>
        rw [htxAdd] at h
        obtain ⟨_, _, hthrow, -⟩ := h.of_bind
        exact hthrow.not_throw.elim
      | some txAdd =>
        rw [htxAdd] at h
        obtain ⟨_, w₁, hassign, h⟩ := h.of_bind
        obtain rfl := hassign.of_modify
        exact ih h
    case isFalse hscan =>
      rw [if_neg hscan]
      exact ih h

/-- An `LL_PAUSE_ENC_RSP` ends the encryption. -/
theorem llCtrlPauseEncReqPost_crypto {pkts : List Pkt} {w w' : World τ}
    (h : (llCtrlPauseEncReqPost pkts).Returns w () w') :
    w'.crypto = pkts.foldl (CryptoState.answer lib .llCtrlPauseEncReq) w.crypto := by
  induction pkts generalizing w with
  | nil =>
    obtain ⟨-, rfl⟩ := h.of_pure
    rfl
  | cons pkt pkts ih =>
    rw [llCtrlPauseEncReqPost] at h
    rw [List.foldl_cons, CryptoState.answer]
    split at h
    case isTrue hpause =>
      obtain ⟨_, w₁, hassign, h⟩ := h.of_bind
      obtain rfl := hassign.of_modify
      rw [if_pos hpause]
      exact ih h
    case isFalse hpause =>
      rw [if_neg hpause]
      exact ih h

/-- What comes after a request, for every input symbol. -/
theorem callPost_crypto {sym : InputSymbol} (hsym : sym ≠ .llCtrlEncReq) {pkts : List Pkt}
    {w w' : World τ} (h : (callPost sym pkts).Returns w () w') :
    w'.crypto = pkts.foldl (CryptoState.answer lib sym) w.crypto := by
  cases sym
  case llCtrlEncReq => exact absurd rfl hsym
  case llAdvScanReq => exact llAdvScanReqPost_crypto h
  case llCtrlPauseEncReq => exact llCtrlPauseEncReqPost_crypto h
  all_goals
    obtain ⟨-, rfl⟩ := Returns.of_pure h
    exact (List.foldl_fixed' (fun _ => rfl) pkts).symm

/-- The window of a request, from the first packet received to the method `_post`. -/
theorem request_crypto (hlib : TellsAdv lib) {sym : InputSymbol} (hsym : sym ≠ .llCtrlEncReq)
    {recvSMin recvSMax : Option ℤ} {maxPkts : ℕ} {req : Option Pkt} {pkts : List Pkt}
    {w w₁ w' : World τ}
    (hreceive : (receive lib cls recvSMin recvSMax maxPkts req).Returns w pkts w₁)
    (hpost : (callPost sym pkts).Returns w₁ () w') :
    w'.crypto = pkts.foldl (CryptoState.next lib sym) w.crypto := by
  rw [callPost_crypto hsym hpost, (receive_crypto hlib hreceive).1]
  exact (foldl_foldl_of_comm (answer_receive_comm hsym) _ _).symm

/-- A pairing request configures the SMP server. -/
theorem smPairingReqPre_crypto {pkt pkt' : Pkt} {pairingIocap authentication : ℕ}
    (hpkt : pkt.smPairingRequest = some (pairingIocap, authentication)) {w w' : World τ}
    (h : (smPairingReqPre lib pkt).Returns w pkt' w') :
    w'.crypto = w.crypto.pair lib pairingIocap authentication := by
  rw [smPairingReqPre, hpkt] at h
  obtain ⟨_, w₁, hconfigure, h⟩ := (of_getSelf_bind h).of_bind
  obtain rfl := hconfigure.of_modify
  obtain ⟨_, _, hget, h⟩ := h.of_bind
  obtain ⟨rfl, rfl⟩ := hget.of_get
  obtain ⟨_, w₂, hrequest, h⟩ := h.of_bind
  obtain rfl := hrequest.of_modify
  dsimp only at h
  split at h
  case isTrue =>
    obtain ⟨-, rfl⟩ := h.of_pure
    rfl
  case isFalse => exact h.not_throw.elim

/-- The method `_pre`, applied to the packet of the input symbol. -/
theorem callPre_crypto {sym : InputSymbol} {self : Blesul} {pkt : Pkt} {w w' : World τ}
    (h : (callPre lib cls sym (packets sym self)).Returns w pkt w') :
    w'.crypto = w.crypto.input lib cls sym := by
  cases sym
  case llAdvScanReq =>
    rw [callPre] at h
    rw [CryptoState.input]
    cases hkeeps : cls.llAdvScanReqKeeps with
    | true =>
      rw [hkeeps] at h
      obtain ⟨-, rfl⟩ := h.of_pure
      rfl
    | false =>
      rw [hkeeps] at h
      obtain ⟨_, w₁, hassign, h⟩ := h.of_bind
      obtain ⟨-, rfl⟩ := h.of_pure
      obtain rfl := hassign.of_modify
      rfl
  case llAdvConnectInd =>
    obtain ⟨_, w₁, hassign, h⟩ := h.of_bind
    obtain ⟨-, rfl⟩ := h.of_pure
    obtain rfl := hassign.of_modify
    rfl
  case smPairingReq => exact smPairingReqPre_crypto rfl h
  case smPairingReqSc => exact smPairingReqPre_crypto rfl h
  case attReadReq =>
    rw [callPre] at h
    split at h
    all_goals
      obtain ⟨-, rfl⟩ := h.of_pure
      rfl
  all_goals
    obtain ⟨-, rfl⟩ := Returns.of_pure h
    rfl

end BleFuzzer.Mapper
