import BleFuzzer.Mapper.Counters
import BleFuzzer.Mapper.Passes
import Mathlib.Data.List.ReduceOption

/-!
# `ll_ctrl_enc_req` as a fold

What `ll_ctrl_enc_req` makes of its packets, as a transition for a single packet
(`EncReqState.packet`). The two nested loops of the source fold this transition over the packets
they take, whatever the timing (`llCtrlEncReq_foldl`).
-/

namespace BleFuzzer.Mapper

open Driver Exec

variable {τ : Type} (lib : Lib τ) (cls : MapperClass)

/-! ## The transition -/

/-- The key material that the SMP server hands out. -/
structure SmpMaterial where
  connLtk : Bytes
  confirm : Bytes
  random : Bytes
  connLtkEncInf : Bytes
  ediv : ℕ
  rand : Bytes
  irk : Bytes
  atype : ℕ
  csrk : Bytes
  keyX : Bytes
  keyY : Bytes
  dhkeyCheck : Bytes

/-- What a packet is judged by, and what it can change. -/
structure EncReqState (τ : Type) where
  peripheralAddress : Addr
  accessAddress : Option UInt32
  encrypted : Bool
  connSessionKey : Bytes
  connIv : Bytes
  connSkd : Bytes
  encRxPktCount : ℕ
  material : SmpMaterial
  smp : τ
  /-- The packets accepted, oldest first. -/
  accepted : List Pkt

/-- An answer of the SMP server. -/
def SmpMaterial.next (m : SmpMaterial) (answer : Bytes) : SmpMaterial :=
  let res := lib.scapy.hciHdr answer
  if let some confirm := res.smConfirm then
    { m with confirm := confirm }
  else if let some random := res.smRandom then
    { m with random := random }
  else if let some ltk := res.hciCmdLeEnableEncryption then
    { m with connLtk := ltk }
  else if let some ltk := res.smEncryptionInformation then
    { m with connLtkEncInf := ltk }
  else if let some (ediv, rand) := res.smMasterIdentification then
    { m with ediv := ediv, rand := rand }
  else if let some irk := res.smIdentityInformation then
    { m with irk := irk }
  else if let some atype := res.smIdentityAddressInformation then
    { m with atype := atype }
  else if let some csrk := res.smSigningInformation then
    { m with csrk := csrk }
  else if let some (keyX, keyY) := res.smPublicKey then
    { m with keyX := keyX, keyY := keyY }
  else if let some dhkeyCheck := res.smDHKeyCheck then
    { m with dhkeyCheck := dhkeyCheck }
  else
    m

namespace EncReqState

/-- The packet is for us: an advertisement of the peripheral, or a data packet of the connection. -/
def isTarget (s : EncReqState τ) (pkt : Pkt) : Bool :=
  !(pkt.hasBtleAdv && pkt.advA.any (· ≠ s.peripheralAddress)) &&
    !(pkt.hasBtleData && decide (s.accessAddress ≠ pkt.accessAddr))

/-- The length byte in the header of a data packet. -/
def llLength (raw : Bytes) : ℕ := (raw.getD 5 0).toNat

/-- The nonce of the next packet. -/
def nonce (s : EncReqState τ) : Bytes :=
  ((leBytes 8 s.encRxPktCount).take 5).modify 4 (· &&& 0x7F) ++ s.connIv

/-- The payload of an encrypted packet, before its MIC and CRC. -/
def cipherText (raw : Bytes) : Bytes := (raw.take (raw.length - 7)).drop 6

/-- The MIC of an encrypted packet. -/
def mic (raw : Bytes) : Bytes := (raw.take (raw.length - 3)).drop (6 + (llLength raw - 4))

/-- The MIC of a packet is valid under the key, IV and counter of the state. -/
def verifies (s : EncReqState τ) (raw : Bytes) : Bool :=
  lib.ccm.verify s.connSessionKey s.nonce [raw.getD 4 0 &&& 0xE3] (cipherText raw) (mic raw)

/-- The packet decrypted under the key, IV and counter of the state. -/
def plainPkt (s : EncReqState τ) (raw : Bytes) : Pkt :=
  lib.scapy.btle (raw.take 4 ++ [raw.getD 4 0] ++ [UInt8.ofNat (llLength raw - 4)] ++
    lib.ccm.decrypt s.connSessionKey s.nonce [raw.getD 4 0 &&& 0xE3] (cipherText raw) ++ [0, 0, 0])

/-- A packet of the security manager goes to the SMP server. -/
def smpProcess (s : EncReqState τ) (pkt : Pkt) : EncReqState τ :=
  if pkt.hasSmHdr then
    let answer := lib.smp.sendHci
      (lib.scapy.raw ⟨[.hciHdr, .hciAclHdr, .l2capHdr] ++ pkt.fromSmHdr⟩) s.smp
    { s with smp := answer.2, material := (answer.1.getD []).foldl (SmpMaterial.next lib) s.material }
  else
    s

/-- An accepted `LL_ENC_RSP` or `LL_START_ENC_REQ`. -/
def handshake (s : EncReqState τ) (pkt : Pkt) : EncReqState τ :=
  match pkt.llEncRsp with
  | some (skds, ivs) =>
    let connSkd := s.connSkd.take 8 ++ leBytes 8 skds
    { s with
      connSkd := connSkd
      connIv := s.connIv.take 4 ++ leBytes 4 ivs
      connSessionKey :=
        if s.encrypted then s.connSessionKey
        else lib.ecb s.material.connLtk.reverse connSkd.reverse }
  | none => if pkt.hasLlStartEncReq then { s with encrypted := true } else s

/-- A packet is accepted, up to its handling by `ll_ctrl_enc_req`. -/
def accept (s : EncReqState τ) (pkt : Pkt) : EncReqState τ × Option Pkt :=
  (smpProcess lib { s with accepted := s.accepted ++ [fixPacket pkt] } (fixPacket pkt),
    some (fixPacket pkt))

/-- A packet is received: the new state, and the packet if it is accepted. -/
def receive (s : EncReqState τ) (data : Bytes) : EncReqState τ × Option Pkt :=
  let pkt := lib.scapy.btle data
  let raw := lib.scapy.raw pkt
  if s.isTarget pkt then
    let s := if pkt.hasBtleAdv then { s with encrypted := false } else s
    if s.encrypted && 5 ≤ llLength raw then
      let next := { s with encRxPktCount := s.encRxPktCount + 1 }
      if s.verifies lib raw then next.accept lib (s.plainPkt lib raw) else (next, none)
    else
      s.accept lib pkt
  else
    (s, none)

/-- **What a single packet does** in `ll_ctrl_enc_req`. -/
def packet (s : EncReqState τ) (data : Bytes) : EncReqState τ :=
  match s.receive lib data with
  | (s, some pkt) => s.handshake lib pkt
  | (s, none) => s

end EncReqState

/-- The state of the mapper, with the packets accepted so far. -/
def World.encReqState (w : World τ) (accepted : List Pkt) : EncReqState τ where
  peripheralAddress := w.self.peripheralAddress
  accessAddress := w.self.accessAddress
  encrypted := w.self.encrypted
  connSessionKey := w.self.connSessionKey
  connIv := w.self.connIv
  connSkd := w.self.connSkd
  encRxPktCount := w.self.encRxPktCount
  material :=
    { connLtk := w.self.connLtk, confirm := w.self.confirm, random := w.self.random,
      connLtkEncInf := w.self.connLtkEncInf, ediv := w.self.ediv, rand := w.self.rand,
      irk := w.self.irk, atype := w.self.atype, csrk := w.self.csrk, keyX := w.self.keyX,
      keyY := w.self.keyY, dhkeyCheck := w.self.dhkeyCheck }
  smp := w.smp
  accepted := accepted

variable {lib} {cls}

/-! ## One packet in `receive` -/

/-- Sending and judging leave what the loop has learnt alone. -/
theorem bare_encReqState {α : Type} {m : Program τ α} (h : Steps (BareAssign lib) m) (w : World τ)
    (accepted : List Pkt) : (m.final w).encReqState accepted = w.encReqState accepted := by
  refine h.final (P := fun t => t.encReqState accepted = w.encReqState accepted)
    (fun s t hassign hs => ?_) rfl
  refine Eq.trans ?_ hs
  cases hassign <;> rfl

/-- Whether a packet is ours is known there. -/
theorem isTarget_encReqState (w : World τ) (accepted : List Pkt) (pkt : Pkt) :
    (w.encReqState accepted).isTarget pkt = isTarget w.self pkt := by
  have haddr : (w.encReqState accepted).peripheralAddress = w.self.peripheralAddress := rfl
  have haccess : (w.encReqState accepted).accessAddress = w.self.accessAddress := rfl
  rw [EncReqState.isTarget, isTarget, haddr, haccess]
  split
  case isTrue h => rw [h]; rfl
  case isFalse h =>
    rw [Bool.eq_false_of_not_eq_true h]
    split
    case isTrue h' => rw [h']; rfl
    case isFalse h' => rw [Bool.eq_false_of_not_eq_true h']; rfl

/-- An answer without confirm value, random value and long-term key. -/
theorem smpMaterial_encReqState {data : Bytes} (hconfirm : (lib.scapy.hciHdr data).smConfirm = none)
    (hrandom : (lib.scapy.hciHdr data).smRandom = none)
    (hltk : (lib.scapy.hciHdr data).hciCmdLeEnableEncryption = none) (w : World τ)
    (accepted : List Pkt) :
    ({ w with self := smpMaterial w.self (lib.scapy.hciHdr data) } : World τ).encReqState accepted =
      { w.encReqState accepted with
        material := (w.encReqState accepted).material.next lib data } := by
  rw [SmpMaterial.next, smpMaterial, hconfirm, hrandom, hltk]
  dsimp only
  rcases (lib.scapy.hciHdr data).smEncryptionInformation with _ | ltk <;> [skip; rfl]
  rcases (lib.scapy.hciHdr data).smMasterIdentification with _ | ⟨ediv, rand⟩ <;> [skip; rfl]
  rcases (lib.scapy.hciHdr data).smIdentityInformation with _ | irk <;> [skip; rfl]
  rcases (lib.scapy.hciHdr data).smIdentityAddressInformation with _ | atype <;> [skip; rfl]
  rcases (lib.scapy.hciHdr data).smSigningInformation with _ | csrk <;> [skip; rfl]
  rcases (lib.scapy.hciHdr data).smPublicKey with _ | ⟨keyX, keyY⟩ <;> [skip; rfl]
  rcases (lib.scapy.hciHdr data).smDHKeyCheck with _ | dhkeyCheck <;> rfl

/-- The answers of the SMP server are folded into the key material. -/
theorem smpAnswers_encReqState (answers : List Bytes) (w : World τ) (accepted : List Pkt) :
    ((smpAnswers lib answers).final w).encReqState accepted =
      { w.encReqState accepted with
        material := answers.foldl (SmpMaterial.next lib) (w.encReqState accepted).material } := by
  induction answers generalizing w with
  | nil => rfl
  | cons data answers ih =>
    have hassign (f : World τ → World τ) := congrArg (World.encReqState · accepted)
      (modify_bind_final f (smpAnswers lib answers) w)
    rw [smpAnswers, List.foldl_cons]
    cases hconfirm : (lib.scapy.hciHdr data).smConfirm with
    | some confirm =>
      rw [SmpMaterial.next, hconfirm]
      exact (hassign _).trans (ih _)
    | none =>
      cases hrandom : (lib.scapy.hciHdr data).smRandom with
      | some random =>
        rw [SmpMaterial.next, hconfirm, hrandom]
        exact (hassign _).trans (ih _)
      | none =>
        cases hltk : (lib.scapy.hciHdr data).hciCmdLeEnableEncryption with
        | some ltk =>
          rw [SmpMaterial.next, hconfirm, hrandom, hltk]
          exact (hassign _).trans (ih _)
        | none =>
          refine (hassign _).trans ((ih _).trans ?_)
          rw [smpMaterial_encReqState hconfirm hrandom hltk]

/-- The SMP server does what its part of the transition says. -/
theorem smpProcess_encReqState {pkt : Pkt} (hsm : pkt.hasSmHdr = true) (w : World τ)
    (accepted : List Pkt) :
    ((smpProcess lib pkt).final w).encReqState accepted =
      (w.encReqState accepted).smpProcess lib pkt := by
  have hsmp : (w.encReqState accepted).smp = w.smp := rfl
  rw [smpProcess, (bind_ok (get_result w)).2.1, get_final, modify_bind_final,
    EncReqState.smpProcess, if_pos hsm, hsmp]
  dsimp only
  cases (lib.smp.sendHci _ w.smp).1 with
  | none => rfl
  | some answers => exact smpAnswers_encReqState answers _ _

/-- So does all that is done with a packet after it has been appended. -/
theorem processPkt_encReqState {pkt : Pkt} {restart : Option ℤ} {w w' : World τ}
    (h : (processPkt lib cls pkt).Returns w restart w') (accepted : List Pkt) :
    w'.encReqState accepted = (w.encReqState accepted).smpProcess lib pkt := by
  rw [processPkt_eq] at h
  obtain ⟨_, w₁, hreset, h⟩ := h.of_bind
  obtain ⟨_, w₂, hprocess, hanswer⟩ := h.of_bind
  have hkept : w₁.encReqState accepted = w.encReqState accepted := by
    rw [← hreset.2]
    split
    · exact bare_encReqState (@resetDevice_bare _ lib) w accepted
    · rfl
  have hanswered : w'.encReqState accepted = w₂.encReqState accepted :=
    hanswer.2 ▸ bare_encReqState (answerPkt_bare pkt) w₂ accepted
  rw [hanswered, ← hkept, ← hprocess.2]
  split
  case isTrue hsm => exact smpProcess_encReqState hsm w₁ accepted
  case isFalse hsm => rw [EncReqState.smpProcess, if_neg hsm]; rfl

/-- A packet for us, from where the encryption has been ended by an advertisement. -/
theorem decrypt_receive {pkt pkt' : Pkt} {isBroken : Bool} {w w' : World τ}
    (h : (decrypt lib pkt).Returns w (pkt', isBroken) w') (accepted : List Pkt) :
    let s := w.encReqState accepted
    let raw := lib.scapy.raw pkt
    (if s.encrypted && 5 ≤ EncReqState.llLength raw then
        let next := { s with encRxPktCount := s.encRxPktCount + 1 }
        if s.verifies lib raw then next.accept lib (s.plainPkt lib raw) else (next, none)
      else
        s.accept lib pkt) =
      if isBroken then (w'.encReqState accepted, none)
      else (w'.encReqState accepted).accept lib pkt' := by
  intro s raw
  rcases decrypt_cases lib h with ⟨hpasses, rfl, rfl, rfl⟩ | ⟨hdecrypts, data, hdec, rfl, rfl⟩
  · rw [if_neg Bool.false_ne_true]
    exact if_neg (Bool.eq_false_iff.mp hpasses)
  · obtain ⟨-, rfl, rfl⟩ := decryptPkt_some lib hdec
    refine (if_pos hdecrypts).trans ?_
    show (if s.verifies lib raw then _ else _) = if (!s.verifies lib raw) = true then _ else _
    cases s.verifies lib raw <;> rfl

/-- Accepting a packet is the first part of the transition. -/
theorem acceptData_encReqState {data : Bytes} {pkt : Option Pkt} {w w' : World τ}
    (h : (acceptData lib data).Returns w pkt w') (accepted : List Pkt) :
    (w.encReqState accepted).receive lib data =
      pkt.elim (w'.encReqState accepted, none) fun pkt =>
        ((w'.encReqState (accepted ++ [pkt])).smpProcess lib pkt, some pkt) := by
  rw [EncReqState.receive, isTarget_encReqState]
  dsimp only
  rcases acceptData_cases lib h with
    ⟨htarget, rfl, rfl⟩ | ⟨htarget, pkt, isBroken, hdecrypt, rfl⟩
  · rw [htarget, if_neg Bool.false_ne_true]
    rfl
  · rw [htarget, if_pos rfl]
    have hended : (if (lib.scapy.btle data).hasBtleAdv = true then
          { w.encReqState accepted with encrypted := false } else w.encReqState accepted) =
        { w.encReqState accepted with
          encrypted := w.self.encrypted && !(lib.scapy.btle data).hasBtleAdv } := by
      cases hadv : (lib.scapy.btle data).hasBtleAdv <;> simp [World.encReqState]
    rw [hended]
    refine (decrypt_receive hdecrypt accepted).trans ?_
    cases isBroken <;> rfl

/-- A result of `raw_receive`, up to the handling of an accepted packet. -/
theorem receiveResult_encReqState {data : Option Bytes} {new : List Pkt} {restart : Option ℤ}
    {w w' : World τ} (h : (receiveResult lib cls data).Returns w (new, restart) w')
    (accepted : List Pkt) :
    new.length ≤ 1 ∧ data.toList.foldl (EncReqState.packet lib) (w.encReqState accepted) =
      new.foldl (EncReqState.handshake lib) (w'.encReqState (accepted ++ new)) := by
  match data with
  | none =>
    obtain ⟨hnew, rfl⟩ := h.of_pure
    obtain ⟨rfl, -⟩ := Prod.mk.inj hnew
    exact ⟨Nat.zero_le _, by rw [List.append_nil]; rfl⟩
  | some data =>
    obtain ⟨pkt, w₁, haccept, h⟩ := h.of_bind
    have hreceive := acceptData_encReqState haccept accepted
    match pkt with
    | none =>
      obtain ⟨hnew, rfl⟩ := h.of_pure
      obtain ⟨rfl, -⟩ := Prod.mk.inj hnew
      refine ⟨Nat.zero_le _, ?_⟩
      rw [Option.toList_some, List.foldl_cons, EncReqState.packet, hreceive, List.append_nil]
      rfl
    | some pkt =>
      obtain ⟨restart', w₂, hprocess, h⟩ := h.of_bind
      obtain ⟨hnew, rfl⟩ := h.of_pure
      obtain ⟨rfl, -⟩ := Prod.mk.inj hnew
      refine ⟨le_rfl, ?_⟩
      rw [Option.toList_some, List.foldl_cons, EncReqState.packet, hreceive,
        processPkt_encReqState hprocess]
      rfl

/-! ## The two loops -/

/-- A call of `receive` for one packet takes results of `raw_receive` up to an accepted packet. -/
theorem receiveLoop_encReqState {recvSMin recvSMax : Option ℤ} {req : Option Pkt} {bound : ℕ}
    {pkts : List Pkt} {timeStart : ℤ} {w w' : World τ}
    (h : (receiveLoop lib cls recvSMin recvSMax 1 req bound [] timeStart).Returns w pkts w')
    (accepted : List Pkt) :
    pkts.length ≤ 1 ∧ ∃ taken, w.env.rx = taken ++ w'.env.rx ∧
      taken.reduceOption.foldl (EncReqState.packet lib) (w.encReqState accepted) =
        pkts.foldl (EncReqState.handshake lib) (w'.encReqState (accepted ++ pkts)) := by
  induction bound generalizing timeStart w with
  | zero => exact h.not_throw.elim
  | succ bound ih =>
    rw [receiveLoop_succ] at h
    obtain ⟨pass, w₁, hpass, h⟩ := h.of_bind
    obtain ⟨data, w₂, hraw, hpass⟩ := hpass.of_bind
    obtain ⟨⟨new, restart⟩, w₃, hresult, hend⟩ := hpass.of_bind
    obtain ⟨rx, hrx, rfl⟩ := rawReceive_returns_iff.mp hraw
    obtain ⟨hone, hfold⟩ := receiveResult_encReqState hresult accepted
    obtain ⟨hpackets, hfull⟩ := endPass_packets hend
    have hbare := @endPass_bare _ lib cls recvSMin recvSMax 1 req new (restart.getD timeStart)
      restart.isSome
    have hkept : w₁.encReqState (accepted ++ new) = w₃.encReqState (accepted ++ new) :=
      hend.2 ▸ bare_encReqState hbare w₃ _
    have hrx₁ : w₁.env.rx = rx := by
      have h₁ : w₁.rxSettings = w₃.rxSettings := hend.2 ▸ side_rxSettings (bare_side hbare) w₃
      have h₃ := @receiveResult_rxSettings _ lib cls data (w.withRx rx)
      rw [hresult.2] at h₃
      exact congrArg Prod.fst (h₁.trans h₃)
    -- what this pass takes
    have htaken : [data].reduceOption.foldl (EncReqState.packet lib) (w.encReqState accepted) =
        new.foldl (EncReqState.handshake lib) (w₁.encReqState (accepted ++ new)) := by
      rw [hkept, ← hfold]
      cases data <;> rfl
    cases hcomplete : pass.complete with
    | true =>
      rw [hcomplete, if_pos rfl, hpackets] at h
      obtain ⟨rfl, rfl⟩ := h.of_pure
      exact ⟨hone, [data], by rw [hrx, hrx₁]; rfl, htaken⟩
    | false =>
      -- a pass that does not end the call has accepted no packet
      have hnone : new = [] := by
        match new with
        | [] => rfl
        | [pkt] => exact nomatch hcomplete.symm.trans (hfull rfl rfl)
      subst hnone
      rw [hcomplete, if_neg Bool.false_ne_true, hpackets] at h
      obtain ⟨hpkts, taken, hrest, hfold'⟩ := ih h
      refine ⟨hpkts, data :: taken, by rw [hrx, ← hrx₁, hrest]; rfl, ?_⟩
      rw [← List.singleton_append, List.reduceOption_append, List.foldl_append, htaken,
        List.append_nil]
      exact hfold'

/-- A call of `receive` folds the transition over the results it takes, up to the handling by the
loop of `ll_ctrl_enc_req`. -/
theorem receive_encReqState {recvSMin recvSMax : Option ℤ} {req : Option Pkt} {pkts : List Pkt}
    {w w' : World τ} (h : (receive lib cls recvSMin recvSMax 1 req).Returns w pkts w')
    (accepted : List Pkt) :
    pkts.length ≤ 1 ∧ ∃ taken, w.env.rx = taken ++ w'.env.rx ∧
      taken.reduceOption.foldl (EncReqState.packet lib) (w.encReqState accepted) =
        pkts.foldl (EncReqState.handshake lib) (w'.encReqState (accepted ++ pkts)) := by
  obtain ⟨timeStart, w₁, htime, h⟩ := h.of_bind
  obtain ⟨_, _, hget, h⟩ := h.of_bind
  obtain ⟨rfl, rfl⟩ := hget.of_get
  obtain ⟨hone, taken, hrx, hfold⟩ := receiveLoop_encReqState h accepted
  obtain rfl := htime.2
  exact ⟨hone, taken, hrx, hfold⟩

/-- That handling is the last part of the transition. -/
theorem handleEncRsp_encReqState {pkt : Pkt} {skds ivs : ℕ} (hrsp : pkt.llEncRsp = some (skds, ivs))
    {w w' : World τ} (h : (handleEncRsp lib skds ivs).Returns w () w') (accepted : List Pkt) :
    w'.encReqState accepted = (w.encReqState accepted).handshake lib pkt ∧ w'.env.rx = w.env.rx := by
  rw [handleEncRsp_of_returns lib h, EncReqState.handshake, hrsp]
  exact ⟨rfl, rfl⟩

/-- The loop of `ll_ctrl_enc_req` folds the transition over the packets it takes. -/
theorem encReqLoop_encReqState {timeStart : ℤ} {bound : ℕ} {pkt : Pkt} {resPkts pkts : List Pkt}
    {w w' : World τ} (h : (encReqLoop lib cls timeStart bound pkt resPkts).Returns w pkts w') :
    ∃ taken, w.env.rx = taken ++ w'.env.rx ∧
      taken.reduceOption.foldl (EncReqState.packet lib) (w.encReqState resPkts) =
        w'.encReqState pkts := by
  induction bound generalizing pkt resPkts w with
  | zero => exact h.not_throw.elim
  | succ bound ih =>
    obtain ⟨complete, w₁, htime, h⟩ := encReqLoop_cases lib cls h
    have hbare : Steps (BareAssign lib) ((time : Program τ ℤ) >>= fun timeNow =>
        isRspComplete lib cls resPkts (timeNow - timeStart) none none none) :=
      time_bare.bind fun _ => isRspComplete_bare _ _ _ _ _
    have hkept : w₁.encReqState resPkts = w.encReqState resPkts :=
      htime.2 ▸ bare_encReqState hbare w resPkts
    have hrx : w₁.env.rx = w.env.rx :=
      congrArg Prod.fst (htime.2 ▸ side_rxSettings (bare_side hbare) w)
    rcases h with ⟨-, rfl, rfl⟩ | ⟨received, w₂, hreceive, ⟨rfl, h⟩ | ⟨next, rest, w₃, rfl, hnext, h⟩⟩
    · exact ⟨[], hrx.symm, hkept.symm⟩
    · obtain ⟨-, taken, hrx₂, hfold⟩ := receive_encReqState hreceive resPkts
      rw [hkept, List.append_nil] at hfold
      obtain ⟨taken', hrx', hfold'⟩ := ih h
      refine ⟨taken ++ taken', by rw [← hrx, hrx₂, hrx', List.append_assoc], ?_⟩
      rw [List.reduceOption_append, List.foldl_append, hfold]
      exact hfold'
    · obtain ⟨hone, taken, hrx₂, hfold⟩ := receive_encReqState hreceive resPkts
      -- the window has room for one packet
      obtain rfl : rest = [] := by simpa using hone
      rw [hkept] at hfold
      have hhandled : w₃.encReqState (resPkts ++ [next]) =
          (w₂.encReqState (resPkts ++ [next])).handshake lib next ∧ w₃.env.rx = w₂.env.rx := by
        rcases hnext with ⟨skds, ivs, hrsp, hhandle⟩ | ⟨hrsp, rfl⟩
        · exact handleEncRsp_encReqState hrsp hhandle _
        · rw [EncReqState.handshake, hrsp]
          cases next.hasLlStartEncReq <;> simp [World.encReqState]
      obtain ⟨taken', hrx', hfold'⟩ := ih h
      refine ⟨taken ++ taken', by rw [← hrx, hrx₂, ← hhandled.2, hrx', List.append_assoc], ?_⟩
      rw [List.reduceOption_append, List.foldl_append, hfold, ← hfold', hhandled.1]
      rfl

/-- **`ll_ctrl_enc_req` processes its packets one at a time**: from counter 0, its two loops fold
the transition over the packets they take, whatever the timing, and the output is that of the
packets accepted. -/
theorem llCtrlEncReq_foldl {pkt : Pkt} {out : Text} {w w' : World τ}
    (h : (llCtrlEncReq lib cls pkt).Returns w out w') :
    ∃ taken accepted, w.env.rx = taken ++ w'.env.rx ∧
      w'.encReqState accepted =
        taken.reduceOption.foldl (EncReqState.packet lib)
          { w.encReqState [] with encRxPktCount := 0 } ∧
      ∃ table, w'.self.symbols = some table ∧ out = packetsSymbol lib table accepted := by
  obtain ⟨_, w₁, hsend, h⟩ := h.of_bind
  obtain ⟨_, w₂, hrecord, h⟩ := h.of_bind
  obtain rfl := hrecord.of_modify
  obtain ⟨timeStart, w₃, htime, h⟩ := h.of_bind
  obtain ⟨_, _, hget, h⟩ := h.of_bind
  obtain ⟨rfl, rfl⟩ := hget.of_get
  obtain ⟨resPkts, w₄, hloop, hout⟩ := h.of_bind
  obtain ⟨taken, hrx, hfold⟩ := encReqLoop_encReqState hloop
  -- only the counters are assigned before the loop
  have hsent : ({ w₁ with
      self := { w₁.self with encTxPktCount := 0, encRxPktCount := 0 }
      log := w₁.log ++ [.encReq] } : World τ).encReqState [] =
        { w.encReqState [] with encRxPktCount := 0 } := by
    have hkept := bare_encReqState (@send_bare _ lib pkt) w []
    rw [hsend.2] at hkept
    rw [← hkept]
    rfl
  have hrx₁ : w₁.env.rx = w.env.rx := by
    have hkept := side_rxSettings (bare_side (@send_bare _ lib pkt)) w
    rw [hsend.2] at hkept
    exact congrArg Prod.fst hkept
  have hend := @outputSymbol_ok _ lib w₄ resPkts
  obtain rfl := Except.ok.inj (hend.1.symm.trans hout.1)
  obtain rfl := hend.2.symm.trans hout.2
  obtain rfl := htime.2
  exact ⟨taken, resPkts, hrx₁.symm.trans hrx, (hfold.symm.trans (by rw [← hsent]; rfl)), _, rfl, rfl⟩

/-- A request that is answered by an `LL_ENC_RSP` and an `LL_START_ENC_REQ`. -/
theorem llCtrlEncReq_foldl_answered :
    let w := unansweredWorld [.pre]
    let w' := (llCtrlEncReq unansweredLib blesulClass (packets .llCtrlEncReq w.self)).final w
    ∃ taken accepted, w.env.rx = taken ++ w'.env.rx ∧ w'.self.encrypted = true ∧
      w'.encReqState accepted =
        taken.reduceOption.foldl (EncReqState.packet unansweredLib)
          { w.encReqState [] with encRxPktCount := 0 } := by
  have hok : ((llCtrlEncReq unansweredLib blesulClass
      (packets .llCtrlEncReq (unansweredWorld [.pre]).self)).result
        (unansweredWorld [.pre])).isOk = true := by decide +kernel
  have hon : ((llCtrlEncReq unansweredLib blesulClass
      (packets .llCtrlEncReq (unansweredWorld [.pre]).self)).final
        (unansweredWorld [.pre])).self.encrypted = true := by decide +kernel
  generalize unansweredWorld [.pre] = w at hok hon
  obtain ⟨out, hreturns⟩ := Returns.of_isOk hok
  obtain ⟨taken, accepted, hrx, hfold, -⟩ := llCtrlEncReq_foldl hreturns
  exact ⟨taken, accepted, hrx, hon, hfold⟩

end BleFuzzer.Mapper
