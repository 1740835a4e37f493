import BleFuzzer.Mapper.Passes
import BleFuzzer.Mapper.Classes

/-!
# How long a call of `receive` takes

The clock advances by ten milliseconds in each pass of the loop, and after the maximum receive time
a response is complete. But the time counts from the last packet that `handle_packet` has answered,
so each answer can add as many passes as the call had from its start (`receive_passes_le`).
-/

namespace BleFuzzer.Mapper

open Driver Exec

/-- `time.sleep(0.01)`, in microseconds. -/
def sleepTime : ℤ := 10000

/-- The clock advances by at least the sleep in each pass, and does not go back within one. -/
def Paced : ℤ → List LoopPass → Prop
  | _, [] => True
  | last, pass :: passes =>
    last + sleepTime ≤ pass.timeNow ∧
      (pass.answered = true → last ≤ pass.timeStart ∧ pass.timeStart ≤ pass.timeNow) ∧
      Paced pass.timeNow passes

instance (last : ℤ) (passes : List LoopPass) : Decidable (Paced last passes) := by
  induction passes generalizing last with
  | nil => exact .isTrue trivial
  | cons pass passes ih =>
    have := ih pass.timeNow
    exact inferInstanceAs (Decidable (_ ∧ _ ∧ _))

/-- A time divided by that of a pass and rounded up. -/
def passesIn (time : ℤ) : ℕ := ((time + (sleepTime - 1)) / sleepTime).toNat

/-! ## Counting passes -/

/-- What the loop guarantees of its passes, for a maximum receive time. -/
def Timed (maxTime : ℤ) : ℤ → List LoopPass → Prop
  | _, [] => True
  | timeStart, pass :: passes =>
    (pass.answered = false → pass.timeStart = timeStart) ∧
      (maxTime ≤ pass.timeNow - pass.timeStart → pass.complete = true) ∧
      (pass.complete = true → passes = []) ∧ Timed maxTime pass.timeStart passes

/-- So many passes take at least the time. -/
theorem le_passesIn (time : ℤ) : time ≤ sleepTime * passesIn time := by
  rw [passesIn, sleepTime]
  omega

/-- A pass that is not the last one ends before the maximum receive time. -/
theorem lt_of_incomplete {maxTime : ℤ} {pass : LoopPass} {k : ℕ}
    (htime : maxTime ≤ pass.timeNow - pass.timeStart → pass.complete = true)
    (hcomplete : pass.complete = false) (hk : pass.timeStart + sleepTime * k ≤ pass.timeNow) :
    k < passesIn maxTime := by
  have hmax := le_passesIn maxTime
  by_contra hge
  have hle : (passesIn maxTime : ℤ) ≤ k := by exact_mod_cast Nat.not_lt.mp hge
  have hlate : maxTime ≤ pass.timeNow - pass.timeStart := by
    rw [sleepTime] at hmax hk
    omega
  cases hcomplete.symm.trans (htime hlate)

/-- With `k` passes since the time counts, the passes to come are those left in the maximum receive
time, and as many again for each answer. One more is needed for the loop to end. -/
theorem passes_length_le {maxTime last timeStart : ℤ} {passes : List LoopPass} {k : ℕ}
    (hpaced : Paced last passes) (htimed : Timed maxTime timeStart passes)
    (hk : timeStart + sleepTime * k ≤ last) (hle : k ≤ passesIn maxTime) :
    passes.length ≤ passesIn maxTime - k + passes.countP LoopPass.answered * (passesIn maxTime + 1) +
      passes.countP LoopPass.complete := by
  induction passes generalizing last timeStart k with
  | nil => exact Nat.zero_le _
  | cons pass passes ih =>
    obtain ⟨hsleep, hanswer, hpaced⟩ := hpaced
    obtain ⟨hstart, hmax, hlast, htimed⟩ := htimed
    rw [List.length_cons, List.countP_cons, List.countP_cons]
    cases hcomplete : pass.complete with
    | true =>
      rw [hlast hcomplete]
      simp
    | false =>
      cases hanswered : pass.answered with
      | true =>
        -- the time counts from this pass on
        obtain ⟨-, hnow⟩ := hanswer hanswered
        have hrest := ih hpaced htimed (k := 0) (by simpa using hnow) (Nat.zero_le _)
        simp only [if_true, Bool.false_eq_true, if_false, Nat.add_mul]
        omega
      | false =>
        have hk' : pass.timeStart + sleepTime * (k + 1 : ℕ) ≤ pass.timeNow := by
          rw [hstart hanswered]
          rw [sleepTime] at hsleep hk ⊢
          push_cast
          omega
        have hlt := lt_of_incomplete hmax hcomplete hk'
        have hrest := ih hpaced htimed hk' hlt.le
        simp only [Bool.false_eq_true, if_false, Nat.add_zero]
        omega

/-- The loop ends with the first pass that completes the response. -/
theorem Timed.countP_complete_le {maxTime timeStart : ℤ} {passes : List LoopPass}
    (h : Timed maxTime timeStart passes) : passes.countP LoopPass.complete ≤ 1 := by
  induction passes generalizing timeStart with
  | nil => exact Nat.zero_le _
  | cons pass passes ih =>
    obtain ⟨-, -, hlast, htimed⟩ := h
    rw [List.countP_cons]
    split
    case isTrue hcomplete =>
      rw [hlast hcomplete]
      exact le_rfl
    case isFalse => exact ih htimed

/-! ## The loop of `receive` -/

variable {τ : Type} {lib : Lib τ} {cls : MapperClass}

variable (lib cls) in
/-- Handling the packet that the program `m` has just taken from the results of `raw_receive` raises
`e`. -/
def PacketRaises {α : Type} (m : Program τ α) (w : World τ) (e : PyErr) : Prop :=
  ∃ w₁ data, Visits m w w₁ ∧ some data :: w₁.env.rx <:+ w.env.rx ∧
    (receiveData lib cls data).result w₁ = .error e

/-- What the passes of a loop that starts in `w` say about it. -/
structure LoopSpec (lib : Lib τ) (cls : MapperClass) (maxTime timeStart : ℤ) (w : World τ)
    (loop : Program τ (List Pkt)) (passes : List LoopPass) : Prop where
  timed : Timed maxTime timeStart passes
  unanswered : cls.handlePacket = none → passes.countP LoopPass.answered = 0
  /-- If it does not return, it has used up the results of `raw_receive`, or handling a packet
  raises. -/
  error : ∀ e, loop.result w = .error e →
    (passes.countP LoopPass.complete = 0 ∧ passes.length = w.env.rx.length) ∨
      PacketRaises lib cls loop w e

/-- The loop, by induction on its bound: each pass meets its specification. -/
theorem receiveLoop_passes (recvSMin recvSMax : Option ℤ) (maxPkts : ℕ) (req : Option Pkt)
    {bound : ℕ} (packets : List Pkt) (timeStart : ℤ) {w : World τ}
    (hbound : w.env.rx.length < bound) :
    LoopSpec lib cls (effectiveMax cls w.self recvSMin recvSMax req) timeStart w
      (receiveLoop lib cls recvSMin recvSMax maxPkts req bound packets timeStart)
      (loopPasses lib cls recvSMin recvSMax maxPkts req bound packets timeStart w) := by
  induction bound generalizing packets timeStart w with
  | zero => omega
  | succ bound ih =>
    rw [receiveLoop_succ, loopPasses]
    cases hrx : w.env.rx with
    | nil =>
      have hraw : (rawReceive : Program τ (Option Bytes)).result w = .error .waiting := by
        rw [rawReceive, (bind_ok (get_result w)).1, get_final, hrx]
        rfl
      have hpass : (receivePass lib cls recvSMin recvSMax maxPkts req packets timeStart).result w =
          .error .waiting := (bind_error hraw).1
      rw [hpass]
      exact ⟨trivial, fun _ => rfl, fun _ _ => .inl ⟨rfl, by rw [hrx]; rfl⟩⟩
    | cons data rx =>
      rw [hrx, List.length_cons] at hbound
      rcases @receivePass_spec _ lib cls recvSMin recvSMax maxPkts req packets timeStart _ _ _ hrx with
        ⟨e, hvisits, hresult, hpass⟩ | ⟨pass, w', hpass, hspec⟩
      · rw [hpass]
        refine ⟨trivial, fun _ => rfl, fun e' he' => .inr ?_⟩
        rw [(bind_error hpass).1] at he'
        obtain rfl : e = e' := Except.error.inj he'
        cases data with
        | none => cases hresult
        | some data => exact ⟨_, data, hvisits.bind_left, hrx ▸ List.suffix_rfl, hresult⟩
      · rw [hpass.1, hpass.2]
        have htimes : w'.rxSettings.2 = w.rxSettings.2 := by rw [hspec.rxSettings, World.rxSettings]
        have hmax := @effectiveMax_congr _ cls _ _ htimes recvSMin recvSMax req
        have hrx' : w'.env.rx = rx := congrArg Prod.fst hspec.rxSettings
        dsimp only
        cases hcomplete : pass.complete with
        | true =>
          rw [if_pos rfl]
          refine ⟨⟨hspec.timeStart_eq, fun _ => hcomplete, fun _ => rfl, trivial⟩, fun h => ?_, ?_⟩
          · simp [hspec.unanswered h]
          · intro e he
            rw [(bind_ok hpass.1).1, hcomplete] at he
            cases he
        | false =>
          rw [if_neg Bool.false_ne_true]
          have hloop := ih pass.packets pass.timeStart (w := w') (by rw [hrx']; omega)
          rw [hmax] at hloop
          refine ⟨⟨hspec.timeStart_eq, hspec.complete, ?_, hloop.timed⟩, fun h => ?_, ?_⟩
          · exact fun h => absurd (hcomplete.symm.trans h) Bool.false_ne_true
          · rw [List.countP_cons_of_neg (by simp [hspec.unanswered h]), hloop.unanswered h]
          · intro e he
            rw [(bind_ok hpass.1).1, hpass.2, hcomplete] at he
            rcases hloop.error e he with ⟨hnone, hlength⟩ | ⟨w₁, data, hvisits, htaken, hraises⟩
            · refine .inl ⟨?_, ?_⟩
              · rw [List.countP_cons_of_neg (by simp [hcomplete]), hnone]
              · rw [List.length_cons, hlength, hrx', hrx, List.length_cons]
            · refine .inr ⟨w₁, data, .bind_right hpass.1 ?_, ?_, hraises⟩
              · rw [hpass.2, hcomplete]
                exact hvisits
              · rw [hrx]
                exact (hrx' ▸ htaken).trans (List.suffix_cons _ _)

/-- **A call of `receive`** makes as many passes as its maximum receive time has sleeps, plus one,
and as many again for each packet that `handle_packet` answers. Unless handling a packet raises, it
returns when the driver has that many results. -/
theorem receive_passes_le (recvSMin recvSMax : Option ℤ) (maxPkts : ℕ) (req : Option Pkt)
    (w : World τ)
    (hpaced : Paced w.env.clock.head (receivePasses lib cls recvSMin recvSMax maxPkts req w)) :
    let passes := receivePasses lib cls recvSMin recvSMax maxPkts req w
    let most := passesIn (effectiveMax cls w.self recvSMin recvSMax req) + 1
    let answers := passes.countP LoopPass.answered
    passes.length ≤ (answers + 1) * most ∧
      (cls.handlePacket = none → answers = 0) ∧
      ∀ e, (receive lib cls recvSMin recvSMax maxPkts req).result w = .error e →
        w.env.rx.length < (answers + 1) * most ∨
          PacketRaises lib cls (receive lib cls recvSMin recvSMax maxPkts req) w e := by
  intro passes most answers
  set w' := (time : Program τ ℤ).final w with hw'
  have hrun : (time : Program τ ℤ).result w = .ok w.env.clock.head := rfl
  have hreceive : receive lib cls recvSMin recvSMax maxPkts req =
      ((time : Program τ ℤ) >>= fun timeStart => Exec.get >>= fun w =>
        receiveLoop lib cls recvSMin recvSMax maxPkts req (w.env.rx.length + 1) [] timeStart) := rfl
  have hspec : LoopSpec lib cls (effectiveMax cls w.self recvSMin recvSMax req) w.env.clock.head w'
      (receiveLoop lib cls recvSMin recvSMax maxPkts req (w.env.rx.length + 1) [] w.env.clock.head)
      passes :=
    @receiveLoop_passes _ lib cls recvSMin recvSMax maxPkts req _ [] w.env.clock.head w'
      (Nat.lt_succ_self _)
  have hcount : passes.length ≤ most - 1 - 0 + answers * most + passes.countP LoopPass.complete :=
    passes_length_le hpaced hspec.timed (by simp) (Nat.zero_le _)
  have hcomplete := hspec.timed.countP_complete_le
  have hmul : (answers + 1) * most = answers * most + most := Nat.succ_mul _ _
  refine ⟨?_, hspec.unanswered, fun e he => ?_⟩
  · omega
  · rw [hreceive, (bind_ok hrun).1, (bind_ok (get_result _)).1] at he
    rcases hspec.error e he with ⟨hnone, hlength⟩ | ⟨w₁, data, hvisits, htaken, hraises⟩
    · refine .inl ?_
      have hrx : w'.env.rx = w.env.rx := rfl
      rw [hrx] at hlength
      omega
    · refine .inr ⟨w₁, data, ?_, htaken, hraises⟩
      rw [hreceive]
      exact .bind_right hrun (.bind_right (get_result _) hvisits)

/-! ## Two small calls -/

/-- A device whose packets are requests to exchange the MTU. -/
def mtuScapy : Scapy where
  raw _ := []
  btle _ := ⟨[.btle 7, .btleData none, .l2capHdr, .attHdr, .attExchangeMtuRequest 23]⟩
  hciHdr _ := ⟨[]⟩
  summary _ := []

/-- A connected mapper of an Intel AX200 that receives packets, with a clock that advances by a
sleep at each reading. -/
def intelWorld (rx : List (Option Bytes)) : World Unit where
  self :=
    { Blesul.init (intelAX200BlueZArgs plainAddress) (plainWorld 0 []).self.driver 0 with
      accessAddress := some 7 }
  env := { plainEnv rx with clock := fun n => 10000 * n }
  smp := ()
  log := []

/-- One request, and then silence for a tenth of a second. -/
theorem receive_passes_le_silence :
    (receivePasses (plainLib mtuScapy) intelAX200BlueZ none (some 100000) 0 none
      (intelWorld (some [] :: List.replicate 10 none))).length ≤ 22 :=
  (receive_passes_le none (some 100000) 0 none _ (by decide +kernel)).1.trans (by decide +kernel)

/-- Requests that keep coming hold the call up. -/
theorem receive_passes_gt :
    Paced 0 (receivePasses (plainLib mtuScapy) intelAX200BlueZ none (some 100000) 0 none
      (intelWorld (List.replicate 12 (some [])))) ∧
    passesIn (effectiveMax intelAX200BlueZ (intelWorld []).self none (some 100000) none) + 1 <
      (receivePasses (plainLib mtuScapy) intelAX200BlueZ none (some 100000) 0 none
        (intelWorld (List.replicate 12 (some [])))).length := by
  decide +kernel

end BleFuzzer.Mapper
