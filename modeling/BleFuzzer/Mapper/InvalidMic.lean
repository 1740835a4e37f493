import BleFuzzer.Mapper.Passes

/-!
# Packets with an invalid MIC

`receive` does not return a packet that fails its MIC check, but it has advanced the receive counter
before the check. So a packet that fails is not as if it had never been received: after one of them
the counter is ahead (`receive_insert_iff`).
-/

namespace BleFuzzer.Mapper

open Driver Exec

variable {τ : Type} {lib : Lib τ} {cls : MapperClass}

/-! ## The stream of incoming packets -/

/-- A program that does not look at the stream. -/
abbrev RxFree {α : Type} (m : Program τ α) : Prop := ∀ rx, Commutes (fun w => w.withRx rx) m

/-- Reading the object does not look at the stream. -/
theorem getSelf_bind_rxFree {α : Type} {f : Blesul → Program τ α} (h : ∀ self, RxFree (f self)) :
    RxFree (getSelf >>= f) :=
  fun rx => .get_bind (fun _ => rfl) fun w => h w.self rx

/-- Nor does assigning its fields. -/
theorem modifySelf_rxFree (f : Blesul → Blesul) : RxFree (modifySelf f : Program τ Unit) :=
  fun _ => .modify fun _ => rfl

/-- Nor does an event. -/
theorem record_rxFree (e : Event) (f : Blesul → Blesul) : RxFree (record e f : Program τ Unit) :=
  fun _ => .modify fun _ => rfl

/-- The clock is another part of the environment. -/
theorem time_rxFree : RxFree (time : Program τ ℤ) :=
  fun _ => .get_bind (fun _ => rfl) fun _ => .bind (.modify fun _ => rfl) fun _ => .pure _

/-- The driver is part of the object. -/
theorem callDriver_rxFree (f : Nrf52 → Except PyErr (Nrf52 × Bytes)) :
    RxFree (callDriver f : Program τ Unit) :=
  fun rx => .get_bind (fun _ => rfl) fun _ => .bind (.lift _) fun _ => record_rxFree _ _ rx

/-- A device reset takes its outcome from elsewhere. -/
theorem resetDevice_rxFree : RxFree (resetDevice : Program τ Unit) := by
  intro rx
  have hdriver : Commutes (fun w => w.withRx rx) (driverResetDevice : Program τ Unit) :=
    .get_bind (fun _ => rfl) fun _ => .bind (.modify fun _ => rfl) fun _ => callDriver_rxFree _ rx
  exact (time_rxFree rx).bind fun _ => hdriver.bind fun _ => (time_rxFree rx).bind fun _ =>
    modifySelf_rxFree _ rx

/-- Sending looks at the object only. -/
theorem send_rxFree (pkt : Pkt) : RxFree (send lib pkt) := by
  refine getSelf_bind_rxFree fun self rx => .ite ?_ (callDriver_rxFree _ rx)
  exact .bind (.lift _) fun _ => (record_rxFree _ _ rx).bind fun _ => callDriver_rxFree _ rx

/-- Output symbols are made from packets. -/
theorem outputSymbol_rxFree (pkts : List Pkt) : RxFree (outputSymbol lib pkts) := by
  intro rx
  refine Commutes.bind (getSelf_bind_rxFree (fun self rx => ?_) rx) fun _ => .pure _
  match self.symbols with
  | some table => exact .pure _
  | none => exact (modifySelf_rxFree _ rx).bind fun _ => .pure _

/-- Responses are counted by their symbols. -/
theorem countRsp_rxFree (nRspExpected nCyclicSeen : ℕ) (pkts : List Pkt) :
    RxFree (countRsp lib nRspExpected nCyclicSeen pkts) := by
  intro rx
  induction pkts generalizing nRspExpected nCyclicSeen with
  | nil => exact .pure _
  | cons pkt pkts ih => exact .ite (ih _ _) ((outputSymbol_rxFree _ rx).bind fun _ => ih _ _)

/-- And judged by the time besides. -/
theorem isRspCompleteBase_rxFree (pkts : List Pkt) (recvSTime : ℤ) (recvSMin recvSMax : Option ℤ) :
    RxFree (isRspCompleteBase lib pkts recvSTime recvSMin recvSMax) :=
  fun rx => (countRsp_rxFree _ _ _ rx).bind fun _ => getSelf_bind_rxFree (fun _ _ => .pure _) rx

/-- The overrides look at no more. -/
theorem isRspComplete_rxFree (pkts : List Pkt) (recvSTime : ℤ) (recvSMin recvSMax : Option ℤ)
    (req : Option Pkt) : RxFree (isRspComplete lib cls pkts recvSTime recvSMin recvSMax req) := by
  rw [isRspComplete]
  cases cls.isRspComplete with
  | base => exact isRspCompleteBase_rxFree _ _ _ _
  | nimble =>
    refine fun rx => .ite (isRspCompleteBase_rxFree _ _ _ _ rx) (getSelf_bind_rxFree (fun _ rx => ?_) rx)
    exact .ite (.pure _) (.ite (.pure _) (isRspCompleteBase_rxFree _ _ _ _ rx))
  | nrf52840DKNimble =>
    refine fun rx => .ite (isRspCompleteBase_rxFree _ _ _ _ rx) (getSelf_bind_rxFree (fun _ rx => ?_) rx)
    exact .ite (.pure _) (isRspCompleteBase_rxFree _ _ _ _ rx)

/-- The answers of the SMP server come from the server. -/
theorem smpAnswers_rxFree (answers : List Bytes) : RxFree (smpAnswers lib answers) := by
  intro rx
  induction answers with
  | nil => exact .pure _
  | cons data answers ih =>
    rw [smpAnswers]
    split
    · exact (modifySelf_rxFree _ rx).bind fun _ => ih
    · split
      · exact (modifySelf_rxFree _ rx).bind fun _ => ih
      · split
        · exact (record_rxFree _ _ rx).bind fun _ => ih
        · exact (modifySelf_rxFree _ rx).bind fun _ => ih

/-- So does all that it does. -/
theorem smpProcess_rxFree (pkt : Pkt) : RxFree (smpProcess lib pkt) := by
  refine fun rx => .get_bind (fun _ => rfl) fun w => .bind (.modify fun _ => rfl) fun _ => ?_
  match (lib.smp.sendHci _ w.smp).1 with
  | none => exact .pure _
  | some answers => exact smpAnswers_rxFree answers rx

/-- A packet is processed without the stream. -/
theorem processPkt_rxFree (pkt : Pkt) : RxFree (processPkt lib cls pkt) := by
  intro rx
  rw [processPkt_eq]
  refine Commutes.bind (.ite (resetDevice_rxFree rx) (.pure _)) fun _ => ?_
  refine Commutes.bind (.ite (smpProcess_rxFree pkt rx) (.pure _)) fun _ => ?_
  refine getSelf_bind_rxFree (fun self rx => ?_) rx
  match cls.handlePacket.bind fun handlePacket => handlePacket self pkt with
  | none => exact .pure _
  | some resPkt => exact (send_rxFree _ rx).bind fun _ => (time_rxFree rx).bind fun _ => .pure _

/-- So it is decrypted. -/
theorem decrypt_rxFree (pkt : Pkt) : RxFree (decrypt lib pkt) := by
  refine getSelf_bind_rxFree fun self rx => .ite (.bind (.lift _) fun dec => ?_) (.pure _)
  match dec with
  | none => exact .pure _
  | some _ => exact (record_rxFree _ _ rx).bind fun _ => .pure _

/-- And accepted. -/
theorem acceptData_rxFree (data : Bytes) : RxFree (acceptData lib data) := by
  refine getSelf_bind_rxFree fun self rx => .ite ?_ (.pure _)
  have hdecrypt : Commutes (fun w => w.withRx rx) (acceptDecrypted lib (lib.scapy.btle data)) :=
    (decrypt_rxFree _ rx).bind fun _ => .pure _
  exact .ite ((modifySelf_rxFree _ rx).bind fun _ => hdecrypt) hdecrypt

/-- Once `raw_receive` has returned, the rest of the stream does not matter. -/
theorem receiveResult_rxFree (data : Option Bytes) : RxFree (receiveResult lib cls data) := by
  match data with
  | none => exact fun _ => .pure _
  | some data =>
    refine fun rx => (acceptData_rxFree data rx).bind fun pkt => ?_
    match pkt with
    | none => exact .pure _
    | some pkt => exact (processPkt_rxFree pkt rx).bind fun _ => .pure _

/-- Nor does it at the end of a pass. -/
theorem endPass_rxFree (recvSMin recvSMax : Option ℤ) (maxPkts : ℕ) (req : Option Pkt)
    (packets : List Pkt) (timeStart : ℤ) (answered : Bool) :
    RxFree (endPass lib cls recvSMin recvSMax maxPkts req packets timeStart answered) :=
  fun rx => (time_rxFree rx).bind fun _ => (isRspComplete_rxFree _ _ _ _ _ rx).bind fun _ => .pure _

/-! ## The receive state -/

/-- The encryption flag and the receive counter. -/
abbrev RxState := Bool × ℕ

def Blesul.rxState (self : Blesul) : RxState := (self.encrypted, self.encRxPktCount)

/-- What else decides how a packet is taken: whose packets are ours, and how they are encrypted. -/
def Blesul.rxBase (self : Blesul) : Addr × Option UInt32 × Bytes × Bytes :=
  (self.peripheralAddress, self.accessAddress, self.connIv, self.connSessionKey)

variable (lib) in
/-- The receive state after a result of `raw_receive`, if the packet can be handled. -/
def rxNext (self : Blesul) (state : RxState) : Option Bytes → RxState
  | none => state
  | some data =>
    let pkt := lib.scapy.btle data
    if isTarget self pkt then
      let encrypted := state.1 && !pkt.hasBtleAdv
      (encrypted, if encrypted && 5 ≤ ((lib.scapy.raw pkt).getD 5 0).toNat then state.2 + 1 else state.2)
    else
      state

variable (lib) in
/-- The receive state after some results. -/
def rxAfter (self : Blesul) (state : RxState) (rx : List (Option Bytes)) : RxState :=
  rx.foldl (rxNext lib self) state

/-- The fields that do not change decide whether a packet is ours. -/
theorem isTarget_congr {self self' : Blesul} (h : self'.rxBase = self.rxBase) (pkt : Pkt) :
    isTarget self' pkt = isTarget self pkt := by
  obtain ⟨haddress, h⟩ := Prod.mk.inj h
  obtain ⟨haccess, -⟩ := Prod.mk.inj h
  rw [isTarget, isTarget, haddress, haccess]

/-- And what becomes of the receive state. -/
theorem rxNext_congr {self self' : Blesul} (h : self'.rxBase = self.rxBase) :
    rxNext lib self' = rxNext lib self := by
  funext state data
  match data with
  | none => rfl
  | some data => rw [rxNext, rxNext, isTarget_congr h]

/-- Where a result of `raw_receive` that can be handled leaves the object. -/
def Takes (lib : Lib τ) (w : World τ) (rx : List (Option Bytes)) (w' : World τ) : Prop :=
  w'.self.rxBase = w.self.rxBase ∧ w'.self.rxState = rxAfter lib w.self w.self.rxState rx

/-- What is taken in two parts is taken. -/
theorem Takes.trans {w w' w'' : World τ} {rx rx' : List (Option Bytes)} (h : Takes lib w rx w')
    (h' : Takes lib w' rx' w'') : Takes lib w (rx ++ rx') w'' := by
  refine ⟨h'.1.trans h.1, h'.2.trans ?_⟩
  rw [rxAfter, rxNext_congr h.1, h.2, rxAfter, rxAfter, List.foldl_append]

/-- Processing a packet takes nothing. -/
theorem SideAssign.takes {w w' : World τ} (h : SideAssign lib w w') : Takes lib w [] w' := by
  cases h with
  | bare h => cases h <;> exact ⟨rfl, rfl⟩
  | _ => exact ⟨rfl, rfl⟩

/-- Nor does a program that does only this. -/
theorem side_takes {α : Type} {m : Program τ α} (h : Steps (SideAssign lib) m) (w : World τ) :
    Takes lib w [] (m.final w) :=
  h.final (P := fun t => Takes lib w [] t) (fun _ _ h ht => ht.trans h.takes) ⟨rfl, rfl⟩

/-- The receive state after the decryption. -/
theorem decrypt_takes {pkt pkt' : Pkt} {isBroken : Bool} {w w' : World τ}
    (h : (decrypt lib pkt).Returns w (pkt', isBroken) w') :
    w'.self.rxBase = w.self.rxBase ∧ w'.self.rxState =
      (w.self.encrypted,
        if w.self.encrypted && 5 ≤ ((lib.scapy.raw pkt).getD 5 0).toNat then w.self.encRxPktCount + 1
        else w.self.encRxPktCount) := by
  rcases decrypt_cases lib h with ⟨hpasses, -, -, rfl⟩ | ⟨hdecrypts, data, -, -, rfl⟩
  · rw [hpasses, if_neg Bool.false_ne_true]
    exact ⟨rfl, rfl⟩
  · rw [hdecrypts, if_pos rfl]
    exact ⟨rfl, rfl⟩

/-- A result of `raw_receive` that can be handled. -/
theorem receiveResult_takes {data : Option Bytes} {r : List Pkt × Option ℤ} {w w' : World τ}
    (h : (receiveResult lib cls data).Returns w r w') : Takes lib w [data] w' := by
  match data with
  | none =>
    obtain ⟨-, rfl⟩ := h.of_pure
    exact ⟨rfl, rfl⟩
  | some data =>
    obtain ⟨accepted, w₁, haccept, h⟩ := h.of_bind
    have htaken : Takes lib w [some data] w₁ := by
      rw [Takes, rxAfter, List.foldl_cons, List.foldl_nil, rxNext]
      rcases acceptData_cases lib haccept with
        ⟨htarget, -, rfl⟩ | ⟨htarget, pkt, isBroken, hdecrypt, -⟩
      · rw [htarget, if_neg Bool.false_ne_true]
        exact ⟨rfl, rfl⟩
      · rw [htarget, if_pos rfl]
        exact decrypt_takes hdecrypt
    match accepted with
    | none =>
      obtain ⟨-, rfl⟩ := h.of_pure
      exact htaken
    | some pkt =>
      obtain ⟨restart, w₂, hprocess, h⟩ := h.of_bind
      obtain ⟨-, rfl⟩ := h.of_pure
      obtain rfl := hprocess.2
      exact htaken.trans (side_takes (processPkt_side pkt) w₁)

/-! ## The loop of `receive` -/

/-- A pass that returns takes one result, and does the same on any stream that starts with it. -/
theorem receivePass_takes {recvSMin recvSMax : Option ℤ} {maxPkts : ℕ} {req : Option Pkt}
    {packets : List Pkt} {timeStart : ℤ} {pass : LoopPass} {w w' : World τ}
    (h : (receivePass lib cls recvSMin recvSMax maxPkts req packets timeStart).Returns w pass w') :
    ∃ data rx, w.env.rx = data :: rx ∧ w'.env.rx = rx ∧ Takes lib w [data] w' ∧
      ∀ rx₁, (receivePass lib cls recvSMin recvSMax maxPkts req packets timeStart).Returns
        (w.withRx (data :: rx₁)) pass (w'.withRx rx₁) := by
  obtain ⟨data, w₁, hraw, h⟩ := h.of_bind
  obtain ⟨rx, hrx, rfl⟩ := rawReceive_returns_iff.mp hraw
  obtain ⟨⟨new, restart⟩, w₂, hresult, hend⟩ := h.of_bind
  have hside := bare_side (@endPass_bare _ lib cls recvSMin recvSMax maxPkts req (packets ++ new)
    (restart.getD timeStart) restart.isSome)
  have htakes := (receiveResult_takes hresult).trans (side_takes hside w₂)
  rw [hend.2] at htakes
  refine ⟨data, rx, hrx, ?_, htakes, fun rx₁ => ?_⟩
  · have hkept := side_rxSettings hside w₂
    have hkept' := @receiveResult_rxSettings _ lib cls data (w.withRx rx)
    rw [hend.2] at hkept
    rw [hresult.2] at hkept'
    exact congrArg Prod.fst (hkept.trans hkept')
  · refine (rawReceive_returns_iff.mpr ⟨rx₁, rfl, rfl⟩).bind ?_
    exact ((receiveResult_rxFree data rx₁).returns hresult).bind
      ((endPass_rxFree _ _ _ _ _ _ _ rx₁).returns hend)

/-- The loop takes the first results of the stream, and does not look at the others. -/
theorem receiveLoop_takes {recvSMin recvSMax : Option ℤ} {maxPkts : ℕ} {req : Option Pkt}
    {bound : ℕ} {packets pkts : List Pkt} {timeStart : ℤ} {w w' : World τ}
    (h : (receiveLoop lib cls recvSMin recvSMax maxPkts req bound packets timeStart).Returns w pkts
      w') :
    ∃ taken rx, w.env.rx = taken ++ rx ∧ w'.env.rx = rx ∧ Takes lib w taken w' ∧
      ∀ rx₁, (receiveLoop lib cls recvSMin recvSMax maxPkts req bound packets timeStart).Returns
        (w.withRx (taken ++ rx₁)) pkts (w'.withRx rx₁) := by
  induction bound generalizing packets timeStart w with
  | zero => exact h.not_throw.elim
  | succ bound ih =>
    rw [receiveLoop_succ] at h ⊢
    obtain ⟨pass, w₁, hpass, h⟩ := h.of_bind
    obtain ⟨data, rx, hrx, hrx₁, htakes, hsame⟩ := receivePass_takes hpass
    cases hcomplete : pass.complete with
    | true =>
      rw [hcomplete, if_pos rfl] at h
      obtain ⟨rfl, rfl⟩ := h.of_pure
      refine ⟨[data], rx, hrx, hrx₁, htakes, fun rx₁ => (hsame rx₁).bind ?_⟩
      rw [hcomplete]
      exact .pure _ _
    | false =>
      rw [hcomplete, if_neg Bool.false_ne_true] at h
      obtain ⟨taken, rx', hrx', hfinal, htakes', hsame'⟩ := ih h
      refine ⟨data :: taken, rx', ?_, hfinal, htakes.trans htakes', fun rx₁ => ?_⟩
      · rw [hrx, ← hrx₁, hrx', List.cons_append]
      · refine (hsame (taken ++ rx₁)).bind ?_
        rw [hcomplete]
        exact hsame' rx₁

/-- So does the call. -/
theorem receive_takes {recvSMin recvSMax : Option ℤ} {maxPkts : ℕ} {req : Option Pkt}
    {pkts : List Pkt} {w w' : World τ}
    (h : (receive lib cls recvSMin recvSMax maxPkts req).Returns w pkts w') :
    ∃ taken rx, w.env.rx = taken ++ rx ∧ w'.env.rx = rx ∧ Takes lib w taken w' ∧
      ∀ rx₁, rx₁.length = rx.length →
        (receive lib cls recvSMin recvSMax maxPkts req).Returns (w.withRx (taken ++ rx₁)) pkts
          (w'.withRx rx₁) := by
  obtain ⟨timeStart, w₁, htime, h⟩ := h.of_bind
  obtain ⟨w₂, w₃, hget, h⟩ := h.of_bind
  obtain ⟨rfl, rfl⟩ := hget.of_get
  obtain ⟨taken, rx, hrx, hfinal, htakes, hsame⟩ := receiveLoop_takes h
  have hkept := side_rxSettings (bare_side (@time_bare _ lib)) w
  have htaken := (side_takes (bare_side (@time_bare _ lib)) w).trans
    (htime.2.symm ▸ htakes : Takes lib ((time : Program τ ℤ).final w) taken w')
  rw [htime.2] at hkept
  have hrx' : w.env.rx = taken ++ rx := (congrArg Prod.fst hkept).symm.trans hrx
  refine ⟨taken, rx, hrx', hfinal, htaken, fun rx₁ hlength => ?_⟩
  refine ((time_rxFree (taken ++ rx₁)).returns htime).bind ((Returns.get _).bind ?_)
  have hbound : (w₁.withRx (taken ++ rx₁)).env.rx.length = w₁.env.rx.length := by
    rw [hrx, List.length_append, ← hlength, ← List.length_append]
    rfl
  rw [hbound]
  exact hsame rx₁

/-! ## Inserted packets -/

variable (lib) in
/-- A packet of ours that is decrypted in the given receive state fails CCM verification. -/
def failsMic (self : Blesul) (state : RxState) (data : Bytes) : Bool :=
  let pkt := lib.scapy.btle data
  isTarget self pkt && !pkt.hasBtleAdv && state.1 &&
    match decryptPkt lib { self with encRxPktCount := state.2 } (lib.scapy.raw pkt) with
    | .ok (some (_, isBroken)) => isBroken
    | _ => false

/-- `rx₁` is `rx` with packets that fail CCM verification, each in the place of a call of
`raw_receive` that returns nothing. -/
inductive Inserted (lib : Lib τ) (self : Blesul) :
    RxState → List (Option Bytes) → List (Option Bytes) → Prop
  | nil (state : RxState) : Inserted lib self state [] []
  | same {state : RxState} {data : Option Bytes} {rx₁ rx : List (Option Bytes)}
      (h : Inserted lib self (rxNext lib self state data) rx₁ rx) :
      Inserted lib self state (data :: rx₁) (data :: rx)
  | insert {state : RxState} {data : Bytes} {rx₁ rx : List (Option Bytes)}
      (hfails : failsMic lib self state data = true)
      (h : Inserted lib self (rxNext lib self state (some data)) rx₁ rx) :
      Inserted lib self state (some data :: rx₁) (none :: rx)

/-- An inserted packet takes the place of a result without one. -/
theorem Inserted.length_eq {self : Blesul} {state : RxState} {rx₁ rx : List (Option Bytes)}
    (h : Inserted lib self state rx₁ rx) : rx₁.length = rx.length := by
  induction h with
  | nil => rfl
  | same h ih => rw [List.length_cons, List.length_cons, ih]
  | insert hfails h ih => rw [List.length_cons, List.length_cons, ih]

/-- How far the counter is ahead makes no difference to how it goes on. -/
theorem rxNext_ahead (self : Blesul) (state : RxState) (j : ℕ) (data : Option Bytes) :
    rxNext lib self (state.1, state.2 + j) data =
      ((rxNext lib self state data).1, (rxNext lib self state data).2 + j) := by
  match data with
  | none => rfl
  | some data =>
    rw [rxNext, rxNext]
    dsimp only
    split
    · refine Prod.ext rfl ?_
      dsimp only
      split
      · omega
      · rfl
    · rfl

/-- A packet that fails advances the counter. -/
theorem rxNext_of_failsMic {self : Blesul} {state : RxState} {data : Bytes}
    (h : failsMic lib self state data = true) :
    rxNext lib self state (some data) = (state.1, state.2 + 1) := by
  simp only [failsMic, Bool.and_eq_true, Bool.not_eq_true'] at h
  obtain ⟨⟨⟨htarget, hadv⟩, hencrypted⟩, hbroken⟩ := h
  have hlong : 5 ≤ ((lib.scapy.raw (lib.scapy.btle data)).getD 5 0).toNat := by
    split at hbroken
    case h_1 dec isBroken hdec =>
      have hsome := decryptPkt_isSome lib hdec
      exact of_decide_eq_true hsome.symm
    case h_2 => cases hbroken
  rw [rxNext]
  dsimp only
  rw [if_pos htarget, hadv, hencrypted, if_pos (by simpa using hlong)]
  rfl

/-- The counter is ahead by the number of inserted packets. -/
theorem Inserted.rxAfter_take {self : Blesul} {state₁ : RxState} {rx₁ rx : List (Option Bytes)}
    (h : Inserted lib self state₁ rx₁ rx) {state : RxState} {j : ℕ}
    (hstate : state₁ = (state.1, state.2 + j)) (n : ℕ) :
    ∃ k, (rxAfter lib self state₁ (rx₁.take n)).2 = (rxAfter lib self state (rx.take n)).2 + j + k ∧
      (k = 0 → rx₁.take n = rx.take n) := by
  -- `j` counts the packets inserted before, `k` those among the next `n` results
  induction h generalizing state j n with
  | nil => exact ⟨0, by rw [hstate, List.take_nil]; rfl, fun _ => rfl⟩
  | @same state₁ data rx₁ rx h ih =>
    cases n with
    | zero => exact ⟨0, by rw [hstate]; rfl, fun _ => rfl⟩
    | succ n =>
      obtain ⟨k, hk, heq⟩ := ih (by rw [hstate, rxNext_ahead]) n
      refine ⟨k, hk, fun h0 => ?_⟩
      rw [List.take_succ_cons, List.take_succ_cons, heq h0]
  | @insert state₁ data rx₁ rx hfails h ih =>
    cases n with
    | zero => exact ⟨0, by rw [hstate]; rfl, fun _ => rfl⟩
    | succ n =>
      have hnext : rxNext lib self state₁ (some data) = (state.1, state.2 + (j + 1)) := by
        rw [rxNext_of_failsMic hfails, hstate, Nat.add_assoc]
      obtain ⟨k, hk, -⟩ := ih hnext n
      refine ⟨k + 1, ?_, fun h0 => nomatch h0⟩
      have hcount : (rxAfter lib self state₁ ((some data :: rx₁).take (n + 1))).2 =
          (rxAfter lib self state ((none :: rx).take (n + 1))).2 + (j + 1) + k := hk
      omega

/-- `receive` does with the stream `rx₁` what it does with the stream of `w`. -/
def AsIfNeverReceived (receive : Program τ (List Pkt)) (rx₁ : List (Option Bytes)) (w : World τ)
    (pkts : List Pkt) (w' : World τ) : Prop :=
  ∃ w₁', receive.Returns (w.withRx rx₁) pkts w₁' ∧ w₁'.self = w'.self ∧ w₁'.smp = w'.smp ∧
    w₁'.env.rx.length = w'.env.rx.length

/-- An inserted packet makes no difference only when `receive` ends before it. -/
theorem asIfNeverReceived_iff_take {recvSMin recvSMax : Option ℤ} {maxPkts : ℕ} {req : Option Pkt}
    {rx₁ : List (Option Bytes)} {pkts : List Pkt} {w w' : World τ}
    (hinserted : Inserted lib w.self w.self.rxState rx₁ w.env.rx)
    (hreturns : (receive lib cls recvSMin recvSMax maxPkts req).Returns w pkts w') :
    AsIfNeverReceived (receive lib cls recvSMin recvSMax maxPkts req) rx₁ w pkts w' ↔
      rx₁.take (w.env.rx.length - w'.env.rx.length) =
        w.env.rx.take (w.env.rx.length - w'.env.rx.length) := by
  have hlength := hinserted.length_eq
  obtain ⟨taken, rx, hrx, hfinal, htakes, hsame⟩ := receive_takes hreturns
  have hn : w.env.rx.length - w'.env.rx.length = taken.length := by
    rw [hrx, hfinal, List.length_append, Nat.add_sub_cancel]
  have htaken : w.env.rx.take taken.length = taken := by rw [hrx, List.take_left]
  rw [hn]
  constructor
  · rintro ⟨w₁', hreturns₁, hself, -, hrest⟩
    obtain ⟨taken₁, rx', hrx₁, hfinal₁, htakes₁, -⟩ := receive_takes hreturns₁
    have hrx₁ : rx₁ = taken₁ ++ rx' := hrx₁
    -- both calls leave results of the same number, so they have taken the same number
    have hn₁ : taken₁.length = taken.length := by
      rw [hfinal₁, hfinal] at hrest
      rw [hrx, hrx₁, List.length_append, List.length_append] at hlength
      omega
    have htaken₁ : rx₁.take taken.length = taken₁ := by rw [hrx₁, ← hn₁, List.take_left]
    have hstart : w.self.rxState = (w.self.rxState.1, w.self.rxState.2 + 0) := rfl
    obtain ⟨k, hk, heq⟩ := hinserted.rxAfter_take hstart taken.length
    refine heq ?_
    -- the counters are equal, so no packet has been inserted among those taken
    have hcount : w'.self.rxState = rxAfter lib w.self w.self.rxState taken := htakes.2
    have hcount₁ : w₁'.self.rxState = rxAfter lib w.self w.self.rxState taken₁ := htakes₁.2
    rw [htaken, htaken₁, ← hcount, ← hcount₁, hself] at hk
    omega
  · intro heq
    -- the two streams agree up to where the call ends
    have hrx₁ : taken ++ rx₁.drop taken.length = rx₁ := by
      conv_lhs => rw [← heq.trans htaken]
      rw [List.length_take, hlength, hrx, List.length_append, Nat.min_eq_left (Nat.le_add_right _ _)]
      exact List.take_append_drop _ _
    have hdrop : (rx₁.drop taken.length).length = rx.length := by
      rw [List.length_drop, hlength, hrx, List.length_append, Nat.add_sub_cancel_left]
    have hreturns₁ := hsame _ hdrop
    rw [hrx₁] at hreturns₁
    refine ⟨_, hreturns₁, rfl, rfl, ?_⟩
    rw [hfinal]
    exact hdrop

/-- **A packet that fails its MIC check** changes what `receive` does. It makes no difference only
when `receive` ends before it; when `receive` reads its stream to the end, only when there is none.
-/
theorem receive_insert_iff (recvSMin recvSMax : Option ℤ) (maxPkts : ℕ) (req : Option Pkt)
    {rx₁ : List (Option Bytes)} {pkts : List Pkt} {w w' : World τ}
    (hinserted : Inserted lib w.self w.self.rxState rx₁ w.env.rx)
    (hreturns : (receive lib cls recvSMin recvSMax maxPkts req).Returns w pkts w') :
    (AsIfNeverReceived (receive lib cls recvSMin recvSMax maxPkts req) rx₁ w pkts w' ↔
      rx₁.take (w.env.rx.length - w'.env.rx.length) =
        w.env.rx.take (w.env.rx.length - w'.env.rx.length)) ∧
    (w'.env.rx = [] →
      (AsIfNeverReceived (receive lib cls recvSMin recvSMax maxPkts req) rx₁ w pkts w' ↔
        rx₁ = w.env.rx)) := by
  have htake := asIfNeverReceived_iff_take hinserted hreturns
  refine ⟨htake, ?_⟩
  intro hend
  have hlength := hinserted.length_eq
  rw [htake, hend, List.length_nil, Nat.sub_zero, List.take_length, ← hlength, List.take_length]

/-! ## A small stream -/

/-- A Scapy that keeps the bytes of the packets of one connection. -/
def micScapy : Scapy where
  raw pkt := (pkt.layers.findSome? fun | .raw load => some load | _ => none).getD []
  btle data := ⟨[.btle 7, .btleData none, .raw data]⟩
  hciHdr _ := ⟨[]⟩
  summary _ := []

/-- A packet with one byte of payload and the given tag, whose first byte is that of the counter. -/
def micPacket (tag : UInt8) : Bytes := [7, 0, 0, 0, 2, 5, 9, tag, 0, 0, 0, 0, 0, 0]

/-- An encrypted connection, and a device that sends one valid packet. -/
def micWorld : World Unit :=
  let w := plainWorld 2000000 [none, some (micPacket 11)]
  { w with self := { w.self with
    accessAddress := some 7
    encrypted := true
    connIv := List.replicate 8 0
    connSessionKey := List.replicate 16 0 } }

/-- The first result of the stream is replaced by a packet with a wrong MIC. -/
theorem micWorld_inserted :
    Inserted (plainLib micScapy) micWorld.self micWorld.self.rxState
      [some (micPacket 0), some (micPacket 11)] micWorld.env.rx :=
  .insert (by decide +kernel) (.same (.nil _))

/-- A packet that fails, before the valid one. The call reads both. -/
theorem receive_insert_iff_micWorld :
    ∃ pkts, ((receive (plainLib micScapy) blesulClass none none 0 none).final micWorld).env.rx = [] ∧
      ¬ AsIfNeverReceived (receive (plainLib micScapy) blesulClass none none 0 none)
        [some (micPacket 0), some (micPacket 11)] micWorld pkts
        ((receive (plainLib micScapy) blesulClass none none 0 none).final micWorld) := by
  obtain ⟨pkts, hreturns⟩ := Returns.of_isOk
    (m := receive (plainLib micScapy) blesulClass none none 0 none) (s := micWorld) (by decide +kernel)
  have hend : ((receive (plainLib micScapy) blesulClass none none 0 none).final
      micWorld).env.rx = [] := by
    decide +kernel
  refine ⟨pkts, hend, ?_⟩
  intro hsame
  exact absurd (((receive_insert_iff none none 0 none micWorld_inserted hreturns).2 hend).mp hsame)
    (by decide +kernel)

/-- The valid packet is lost. -/
theorem receive_insert_loses :
    Inserted (plainLib micScapy) micWorld.self micWorld.self.rxState
      [some (micPacket 0), some (micPacket 11)] micWorld.env.rx ∧
    ((receive (plainLib micScapy) blesulClass none none 0 none).result micWorld).toOption.map
      List.length = some 1 ∧
    ((receive (plainLib micScapy) blesulClass none none 0 none).result
      (micWorld.withRx [some (micPacket 0), some (micPacket 11)])).toOption.map List.length = some 0 ∧
    ((receive (plainLib micScapy) blesulClass none none 0 none).final
      micWorld).self.encRxPktCount = 1 ∧
    ((receive (plainLib micScapy) blesulClass none none 0 none).final
      (micWorld.withRx [some (micPacket 0), some (micPacket 11)])).self.encRxPktCount = 2 :=
  ⟨micWorld_inserted, by decide +kernel⟩

end BleFuzzer.Mapper
