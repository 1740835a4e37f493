import BleFuzzer.Mapper.Effects
import BleFuzzer.Mapper.RspComplete

/-!
# The passes of the loop of `receive`

The body of the loop as a program of its own. `receiveLoop_succ` cuts the loop at its passes, and
`receivePasses` lists those that a call makes. Everything in a pass but the call of `raw_receive`
and the decryption leaves the crypto state and the stream of incoming packets alone
(`SideAssign.kept`).
-/

namespace BleFuzzer.Mapper

open Driver Exec

variable {τ : Type} (lib : Lib τ) (cls : MapperClass)

/-- The locals of `receive` at the end of a pass. -/
structure LoopPass where
  packets : List Pkt
  timeStart : ℤ
  timeNow : ℤ
  /-- `handle_packet` has answered the packet of this pass. -/
  answered : Bool
  /-- The loop ends. -/
  complete : Bool

/-- A packet of `raw_receive`, or none, is handled. -/
def receiveResult (data : Option Bytes) : Program τ (List Pkt × Option ℤ) :=
  match data with
  | none => pure ([], none)
  | some data => receiveData lib cls data

/-- The end of a pass. -/
def endPass (recvSMin recvSMax : Option ℤ) (maxPkts : ℕ) (req : Option Pkt) (packets : List Pkt)
    (timeStart : ℤ) (answered : Bool) : Program τ LoopPass := do
  let timeNow ← time
  let complete ← isRspComplete lib cls packets (timeNow - timeStart) recvSMin recvSMax req
  return { packets := packets, timeStart := timeStart, timeNow := timeNow, answered := answered,
           complete := complete || (0 < maxPkts && packets.length == maxPkts) }

/-- The body of the loop of `receive`. -/
def receivePass (recvSMin recvSMax : Option ℤ) (maxPkts : ℕ) (req : Option Pkt) (packets : List Pkt)
    (timeStart : ℤ) : Program τ LoopPass := do
  let data ← rawReceive
  let (new, restart) ← receiveResult lib cls data
  endPass lib cls recvSMin recvSMax maxPkts req (packets ++ new) (restart.getD timeStart)
    restart.isSome

/-- The passes that the loop of `receive` makes. -/
def loopPasses (recvSMin recvSMax : Option ℤ) (maxPkts : ℕ) (req : Option Pkt) :
    ℕ → List Pkt → ℤ → World τ → List LoopPass
  | 0, _, _, _ => []
  | bound + 1, packets, timeStart, w =>
    let body := receivePass lib cls recvSMin recvSMax maxPkts req packets timeStart
    match body.result w with
    | .error _ => []
    | .ok pass =>
      pass :: if pass.complete then [] else
        loopPasses recvSMin recvSMax maxPkts req bound pass.packets pass.timeStart (body.final w)

/-- The passes that a call of `receive` makes. -/
def receivePasses (recvSMin recvSMax : Option ℤ) (maxPkts : ℕ) (req : Option Pkt) (w : World τ) :
    List LoopPass :=
  loopPasses lib cls recvSMin recvSMax maxPkts req (w.env.rx.length + 1) [] w.env.clock.head
    ((time : Program τ ℤ).final w)

variable {lib} {cls}

/-- **The loop is its body, repeated.** -/
theorem receiveLoop_succ (recvSMin recvSMax : Option ℤ) (maxPkts : ℕ) (req : Option Pkt)
    (bound : ℕ) (packets : List Pkt) (timeStart : ℤ) :
    receiveLoop lib cls recvSMin recvSMax maxPkts req (bound + 1) packets timeStart =
      (receivePass lib cls recvSMin recvSMax maxPkts req packets timeStart >>= fun pass =>
        if pass.complete then pure pass.packets
        else receiveLoop lib cls recvSMin recvSMax maxPkts req bound pass.packets pass.timeStart) := by
  simp only [receivePass, endPass, bind_assoc]
  rw [receiveLoop]
  refine congrArg (rawReceive >>= ·) (funext fun data => ?_)
  cases data with
  | none => rfl
  | some data => rfl

/-- The same with another stream of incoming packets. -/
def World.withRx (w : World τ) (rx : List (Option Bytes)) : World τ :=
  { w with env := { w.env with rx := rx } }

/-- `raw_receive` takes the first result of the stream. -/
theorem rawReceive_returns_iff {w w' : World τ} {data : Option Bytes} :
    rawReceive.Returns w data w' ↔ ∃ rx, w.env.rx = data :: rx ∧ w.withRx rx = w' := by
  constructor
  · intro h
    obtain ⟨w₀, w₁, hget, h⟩ := h.of_bind
    obtain ⟨rfl, rfl⟩ := hget.of_get
    cases hrx : w.env.rx with
    | nil =>
      rw [hrx] at h
      exact h.not_throw.elim
    | cons data' rx =>
      rw [hrx] at h
      obtain ⟨_, w₂, hmodify, h⟩ := h.of_bind
      obtain ⟨rfl, rfl⟩ := h.of_pure
      exact ⟨rx, rfl, hmodify.of_modify⟩
  · rintro ⟨rx, hrx, rfl⟩
    refine (Returns.get w).bind ?_
    rw [hrx]
    exact (Returns.modify _ w).bind (.pure _ _)

/-! ## What a pass leaves alone -/

/-- The end of a pass only judges. -/
theorem endPass_bare (recvSMin recvSMax : Option ℤ) (maxPkts : ℕ) (req : Option Pkt)
    (packets : List Pkt) (timeStart : ℤ) (answered : Bool) :
    Steps (BareAssign lib)
      (endPass lib cls recvSMin recvSMax maxPkts req packets timeStart answered) :=
  time_bare.bind fun _ => (isRspComplete_bare _ _ _ _ _).bind fun _ => .pure _

/-- The end of a pass keeps the packets, and ends a call for one packet when there is one. -/
theorem endPass_packets {recvSMin recvSMax : Option ℤ} {maxPkts : ℕ} {req : Option Pkt}
    {packets : List Pkt} {timeStart : ℤ} {answered : Bool} {pass : LoopPass} {w w' : World τ}
    (h : (endPass lib cls recvSMin recvSMax maxPkts req packets timeStart answered).Returns w pass
      w') :
    pass.packets = packets ∧ (maxPkts = 1 → packets.length = 1 → pass.complete = true) := by
  obtain ⟨timeNow, w₁, -, h⟩ := h.of_bind
  obtain ⟨complete, w₂, -, h⟩ := h.of_bind
  obtain ⟨rfl, -⟩ := h.of_pure
  refine ⟨rfl, ?_⟩
  rintro rfl hlength
  simp [hlength]

/-- The stream of incoming packets and the receive times. -/
def World.rxSettings (w : World τ) : List (Option Bytes) × ℤ × ℤ :=
  (w.env.rx, w.self.recvSMin, w.self.recvSMax)

/-- Sending and judging leave the stream and the receive times alone. -/
theorem BareAssign.rxSettings {w w' : World τ} (h : BareAssign lib w w') :
    w'.rxSettings = w.rxSettings := by
  cases h with
  | env _ hrx | deviceReset _ _ _ hrx => rw [World.rxSettings, hrx, World.rxSettings]
  | _ => rfl

/-- So does what is done with a received packet. -/
theorem SideAssign.rxSettings {w w' : World τ} (h : SideAssign lib w w') :
    w'.rxSettings = w.rxSettings := by
  cases h with
  | bare h => exact h.rxSettings
  | _ => rfl

/-- And the decryption. -/
theorem TakeAssign.rxSettings {w w' : World τ} (h : TakeAssign lib w w') :
    w'.rxSettings = w.rxSettings := by
  cases h with
  | side h => exact h.rxSettings
  | decrypt | encryptionOff => rfl

/-- After `raw_receive`, the rest of a pass leaves them alone. -/
theorem receiveResult_rxSettings (data : Option Bytes) (w : World τ) :
    ((receiveResult lib cls data).final w).rxSettings = w.rxSettings := by
  have hsteps : Steps (TakeAssign lib) (receiveResult lib cls data) :=
    match data with
    | none => .pure _
    | some data => receiveData_take data
  exact hsteps.final (P := fun t => t.rxSettings = w.rxSettings)
    (fun _ _ h ht => h.rxSettings.trans ht) rfl

/-- The same for a program. -/
theorem side_rxSettings {α : Type} {m : Program τ α} (h : Steps (SideAssign lib) m) (w : World τ) :
    (m.final w).rxSettings = w.rxSettings :=
  h.final (P := fun t => t.rxSettings = w.rxSettings) (fun _ _ h ht => h.rxSettings.trans ht) rfl

/-! ## When a response is complete -/

/-- The maximum receive time of a call of `receive`, with the overrides of the subclasses. -/
def effectiveMax (cls : MapperClass) (self : Blesul) (recvSMin recvSMax : Option ℤ)
    (req : Option Pkt) : ℤ :=
  let connects := req.any Pkt.hasBtleConnectReq
  max (recvSMin.getD self.recvSMin)
    (match cls.isRspComplete with
    | .base => recvSMax.getD self.recvSMax
    | .nimble => if connects then 500000 else recvSMax.getD self.recvSMax
    | .nrf52840DKNimble => if connects then 2000000 else recvSMax.getD self.recvSMax)

/-- No version of `is_rsp_complete` raises, and after the maximum receive time they are all true. -/
theorem isRspComplete_returns (pkts : List Pkt) (recvSTime : ℤ) (recvSMin recvSMax : Option ℤ)
    (req : Option Pkt) (w : World τ) :
    ∃ complete, (isRspComplete lib cls pkts recvSTime recvSMin recvSMax req).result w = .ok complete ∧
      (effectiveMax cls w.self recvSMin recvSMax req ≤ recvSTime → complete = true) := by
  obtain ⟨complete, hresult, hiff⟩ :=
    @isRspComplete_decides _ lib cls w pkts recvSTime recvSMin recvSMax req
  refine ⟨complete, hresult, fun hle => hiff.mpr ?_⟩
  rw [effectiveMax] at hle
  match hpolicy : cls.isRspComplete with
  | .base =>
    rw [hpolicy] at hle
    exact .inl hle
  | .nimble =>
    rw [hpolicy] at hle
    by_cases hconnects : req.any Pkt.hasBtleConnectReq = true
    · simp only [hconnects, if_true] at hle
      rw [CompleteFor, if_pos hconnects]
      exact .inl hle
    · simp only [hconnects] at hle
      rw [CompleteFor, if_neg hconnects]
      exact .inr (.inr (.inl hle))
  | .nrf52840DKNimble =>
    rw [hpolicy] at hle
    by_cases hconnects : req.any Pkt.hasBtleConnectReq = true
    · simp only [hconnects, if_true] at hle
      rw [CompleteFor, if_pos hconnects]
      exact .inl hle
    · simp only [hconnects] at hle
      rw [CompleteFor, if_neg hconnects]
      exact .inr (.inl hle)

/-- The maximum receive time depends on the receive times of the object. -/
theorem effectiveMax_congr {w w' : World τ} (h : w'.rxSettings.2 = w.rxSettings.2)
    (recvSMin recvSMax : Option ℤ) (req : Option Pkt) :
    effectiveMax cls w'.self recvSMin recvSMax req = effectiveMax cls w.self recvSMin recvSMax req := by
  obtain ⟨hmin, hmax⟩ := Prod.mk.inj h
  rw [effectiveMax, effectiveMax, hmin, hmax]

/-! ## What a pass returns -/

/-- Without `handle_packet`, no packet is answered. -/
theorem processPkt_unanswered (hcls : cls.handlePacket = none) (pkt : Pkt) :
    Triple (fun _ => True) (fun _ _ => True) (processPkt lib cls pkt)
      fun restart _ => restart = none := by
  rw [processPkt_eq, answerPkt, hcls]
  refine (Triple.trivial _ _).bind fun _ => (Triple.trivial _ _).bind fun _ => ?_
  exact (Triple.trivial _ _).bind fun _ => .pure fun _ _ => rfl

/-- Without `handle_packet`, no result restarts the receive time. -/
theorem receiveResult_unanswered (hcls : cls.handlePacket = none) (data : Option Bytes) :
    Triple (fun _ => True) (fun _ _ => True) (receiveResult lib cls data) fun r _ => r.2 = none := by
  match data with
  | none => exact .pure fun _ _ => rfl
  | some data =>
    refine (Triple.trivial _ _).bind fun pkt => ?_
    match pkt with
    | none => exact .pure fun _ _ => rfl
    | some pkt =>
      refine (processPkt_unanswered hcls pkt).bind fun restart => .pure ?_
      exact fun _ h => h

/-- What a pass that returns guarantees. -/
structure PassSpec (cls : MapperClass) (recvSMin recvSMax : Option ℤ) (req : Option Pkt)
    (timeStart : ℤ) (w : World τ) (rx : List (Option Bytes)) (pass : LoopPass) (w' : World τ) :
    Prop where
  rxSettings : w'.rxSettings = (rx, w.self.recvSMin, w.self.recvSMax)
  timeStart_eq : pass.answered = false → pass.timeStart = timeStart
  complete : effectiveMax cls w.self recvSMin recvSMax req ≤ pass.timeNow - pass.timeStart →
    pass.complete = true
  unanswered : cls.handlePacket = none → pass.answered = false

/-- **A pass** takes one result of `raw_receive`, and returns if the packet can be handled. -/
theorem receivePass_spec (recvSMin recvSMax : Option ℤ) (maxPkts : ℕ) (req : Option Pkt)
    (packets : List Pkt) (timeStart : ℤ) {w : World τ} {data : Option Bytes}
    {rx : List (Option Bytes)} (hrx : w.env.rx = data :: rx) :
    (∃ e, Visits (receivePass lib cls recvSMin recvSMax maxPkts req packets timeStart) w
        (w.withRx rx) ∧
      (receiveResult lib cls data).result (w.withRx rx) = .error e ∧
      (receivePass lib cls recvSMin recvSMax maxPkts req packets timeStart).result w = .error e) ∨
    ∃ pass w', (receivePass lib cls recvSMin recvSMax maxPkts req packets timeStart).Returns w pass w' ∧
      PassSpec cls recvSMin recvSMax req timeStart w rx pass w' := by
  set w₁ := w.withRx rx with hw₁
  have hraw : rawReceive.Returns w data w₁ := rawReceive_returns_iff.mpr ⟨rx, hrx, rfl⟩
  have hkept := @receiveResult_rxSettings _ lib cls data w₁
  cases hresult : (receiveResult lib cls data).result w₁ with
  | error e =>
    refine .inl ⟨e, ?_, rfl, ?_⟩
    · refine Visits.bind_right hraw.1 ?_
      rw [hraw.2]
      exact List.mem_cons_self
    · rw [receivePass, (bind_ok hraw.1).1, hraw.2]
      exact (bind_error hresult).1
  | ok r =>
    obtain ⟨new, restart⟩ := r
    -- the clock is read and the packets are judged, neither of which raises
    set w₂ := (receiveResult lib cls data).final w₁ with hw₂
    set w₃ := (time : Program τ ℤ).final w₂ with hw₃
    have htime : (time : Program τ ℤ).Returns w₂ w₂.env.clock.head w₃ := ⟨rfl, rfl⟩
    have hsettings : w₃.rxSettings = (rx, w.self.recvSMin, w.self.recvSMax) :=
      (side_rxSettings (bare_side (@time_bare _ lib)) w₂).trans hkept
    obtain ⟨complete, hcomplete, hmax⟩ := @isRspComplete_returns _ lib cls (packets ++ new)
      (w₂.env.clock.head - restart.getD timeStart) recvSMin recvSMax req w₃
    have hside := bare_side (@isRspComplete_bare _ lib cls (packets ++ new)
      (w₂.env.clock.head - restart.getD timeStart) recvSMin recvSMax req)
    refine .inr ⟨⟨packets ++ new, restart.getD timeStart, w₂.env.clock.head, restart.isSome,
      complete || (0 < maxPkts && (packets ++ new).length == maxPkts)⟩,
      (isRspComplete lib cls (packets ++ new) (w₂.env.clock.head - restart.getD timeStart) recvSMin
        recvSMax req).final w₃, ?_, ?_⟩
    · exact hraw.bind (Returns.bind ⟨hresult, rfl⟩
        (htime.bind (Returns.bind ⟨hcomplete, rfl⟩ (.pure _ _))))
    · refine ⟨(side_rxSettings hside w₃).trans hsettings, fun h => ?_, fun h => ?_, fun h => ?_⟩
      · rw [Option.isSome_eq_false_iff, Option.isNone_iff_eq_none] at h
        rw [h, Option.getD_none]
      · have htimes : w₃.rxSettings.2 = w.rxSettings.2 := by rw [hsettings, World.rxSettings]
        have heq := @effectiveMax_congr _ cls w w₃ htimes recvSMin recvSMax req
        rw [hmax (heq.trans_le h), Bool.true_or]
      · have hnone : restart = none :=
          (receiveResult_unanswered h data).returns trivial ⟨hresult, rfl⟩
        rw [hnone, Option.isSome_none]

end BleFuzzer.Mapper
