import BleFuzzer.Common.Spans
import BleFuzzer.Mapper.Primitives
import Mathlib.Algebra.Order.Group.Int

/-!
# The reset breaks

`reset_device` records when it has stopped the test and for how long, and `close` reports it with
the total. With a clock that does not go back, the breaks of any session follow each other between
its start and its end, so that their total is a part of the runtime (`close_breaks`).
-/

namespace BleFuzzer.Mapper

open Driver Exec

variable {τ : Type}

/-- What `close` prints, in microseconds. -/
structure CloseReport where
  totalRuntime : ℤ
  resetBreaks : List (ℤ × ℤ)
  totalPauseTime : ℤ
deriving DecidableEq

/-- `BLESUL.close`. The file it writes is left out. -/
def close : Program τ CloseReport := do
  let now ← time
  let self ← getSelf
  modifySelf fun self => { self with driver := self.driver.savePcap.1.close }
  return {
    totalRuntime := now - self.testStartTime
    resetBreaks := self.resetBreaks
    totalPauseTime := self.resetBreaks.foldl (fun total pause => total + (pause.2 - pause.1)) 0 }

/-! ## What is kept -/

/-- The breaks follow each other until a moment that has passed, and there are no more of them than
resets of the device, `extra` of which have not been recorded. -/
structure BreaksBefore (moment : ℤ) (extra : ℕ) (w : World τ) : Prop where
  forward : ∀ n, w.env.clock n ≤ w.env.clock (n + 1)
  past : moment ≤ w.env.clock.head
  spaced : Spaced 0 w.self.resetBreaks (moment - w.self.testStartTime)
  counted : w.self.resetBreaks.length + extra ≤ w.log.count .deviceReset

/-- The breaks follow each other until now. -/
def BreaksKept (w : World τ) : Prop := BreaksBefore w.env.clock.head 0 w

variable {moment : ℤ} {extra : ℕ} {w w' : World τ}

/-- Breaks that end before a moment that has passed end before now. -/
theorem BreaksBefore.kept (h : BreaksBefore moment extra w) : BreaksKept w where
  forward := h.forward
  past := le_rfl
  spaced := h.spaced.mono (Int.sub_le_sub_right h.past _)
  counted := (Nat.le_add_right _ _).trans h.counted

/-- A break that has just ended. -/
theorem BreaksBefore.snoc (h : BreaksBefore moment 1 w) {now : ℤ} (hle : moment ≤ now)
    (hpast : now ≤ w.env.clock.head) :
    BreaksKept { w with self := { w.self with
      resetBreaks := w.self.resetBreaks ++
        [(moment - w.self.testStartTime, now - w.self.testStartTime)]
      lastDeviceResetTime := now } } := by
  have hbefore : BreaksBefore now 0 { w with self := { w.self with
      resetBreaks := w.self.resetBreaks ++
        [(moment - w.self.testStartTime, now - w.self.testStartTime)]
      lastDeviceResetTime := now } } := by
    refine ⟨h.forward, hpast, h.spaced.snoc (Int.sub_le_sub_right hle _), ?_⟩
    rw [List.length_append]
    exact h.counted
  exact hbefore.kept

/-- An assignment that leaves the breaks and the clock as they are. -/
structure Breakless (w w' : World τ) : Prop where
  clock : w'.env.clock = w.env.clock
  testStartTime : w'.self.testStartTime = w.self.testStartTime
  resetBreaks : w'.self.resetBreaks = w.self.resetBreaks
  log : w.log <+: w'.log

/-- It still holds after steps without a break. -/
theorem BreaksBefore.of_breakless (h : BreaksBefore moment extra w) (hstep : Breakless w w') :
    BreaksBefore moment extra w' where
  forward := hstep.clock.symm ▸ h.forward
  past := hstep.clock.symm ▸ h.past
  spaced := by
    rw [hstep.testStartTime, hstep.resetBreaks]
    exact h.spaced
  counted := by
    rw [hstep.resetBreaks]
    exact h.counted.trans (hstep.log.sublist.count_le _)

/-- The moment may be a later one that has passed. -/
theorem BreaksBefore.until (h : BreaksBefore moment extra w) {now : ℤ} (hle : moment ≤ now)
    (hpast : now ≤ w.env.clock.head) : BreaksBefore now extra w :=
  ⟨h.forward, hpast, h.spaced.mono (Int.sub_le_sub_right hle _), h.counted⟩

/-- What stays inside records no break. -/
theorem Inward.breakless (h : Inward w w') : Breakless w w' where
  clock := congrArg Env.clock h.env
  testStartTime := congrArg (fun s => s.2.2.1) h.outward
  resetBreaks := congrArg (fun s => s.2.2.2) h.outward
  log := by
    rcases h.log with hlog | ⟨e, hlog, -⟩
    · rw [hlog]
    · rw [hlog]
      exact List.prefix_append _ _

/-! ## The primitives -/

/-- Nor does a call of the driver. -/
theorem callDriver_breakless (f : Nrf52 → Except PyErr (Nrf52 × Bytes)) :
    Steps Breakless (callDriver f : Program τ Unit) :=
  .bind .get fun _ => .bind (.lift _) fun _ =>
    .modify fun _ => ⟨rfl, rfl, rfl, List.prefix_append _ _⟩

/-- Nor does `send`. -/
theorem send_breakless {lib : Lib τ} (pkt : Pkt) : Steps Breakless (send lib pkt) := by
  refine getSelf_bind_steps fun s => .ite (.bind (.lift _) fun pktSend => ?_) (callDriver_breakless _)
  exact .bind (.modify fun _ => ⟨rfl, rfl, rfl, List.prefix_append _ _⟩) fun _ =>
    callDriver_breakless _

/-- Nor does `raw_receive`. -/
theorem rawReceive_breakless : Steps Breakless (rawReceive : Program τ (Option Bytes)) := by
  refine .bind .get fun w => ?_
  cases w.env.rx with
  | nil => exact .throw _
  | cons data rx => exact .bind (.modify fun _ => ⟨rfl, rfl, rfl, List.prefix_rfl⟩) fun _ => .pure _

/-- What the breakless assignments keep. -/
theorem breakless_keeps {α : Type} {m : Program τ α} (h : Steps Breakless m) :
    Keeps BreaksKept (fun _ _ => True) m :=
  h.keeps fun _ _ hstep hw => ⟨trivial, (hw.of_breakless hstep).kept⟩

/-- Verifying a program from now on. -/
theorem of_kept {α : Type} {m : Program τ α} {T : World τ → World τ → Prop} {Q : α → World τ → Prop}
    {E : World τ → Prop} (h : ∀ moment, Ends (BreaksBefore moment 0) T m Q E) :
    Ends BreaksKept T m Q E := by
  refine Ends.of_eq fun w hw => (h w.env.clock.head).pre ?_
  rintro w' rfl
  exact hw

/-- A reading of the clock comes after everything that has passed. -/
theorem time_breaks {E : World τ → Prop} :
    Ends (BreaksBefore moment extra) (fun _ _ => True) (time : Program τ ℤ)
      (fun now w => BreaksBefore moment extra w ∧ moment ≤ now ∧ now ≤ w.env.clock.head) E := by
  refine Ends.get_bind fun w hw => ?_
  refine .bind (Q := fun _ w' => BreaksBefore moment extra w' ∧ moment ≤ w.env.clock.head ∧
    w.env.clock.head ≤ w'.env.clock.head) (.modify ?_) fun _ => .pure fun _ => id
  rintro w' rfl
  have hnext : w'.env.clock.head ≤ w'.env.clock.tail.head := hw.forward 0
  refine ⟨trivial, ⟨fun n => hw.forward (n + 1), hw.past.trans hnext, hw.spaced, hw.counted⟩,
    hw.past, hnext⟩

/-- A device reset gives room for one more break. -/
theorem driverResetDevice_breaks :
    Ends (BreaksBefore moment extra) (fun _ _ => True) (driverResetDevice : Program τ Unit)
      (fun _ => BreaksBefore moment (extra + 1)) BreaksKept := by
  refine Ends.get_bind fun w hw => ?_
  refine .bind (Q := fun _ => BreaksBefore moment (extra + 1)) (.modify ?_) fun _ => ?_
  · rintro w' rfl
    refine ⟨trivial, hw.forward, hw.past, hw.spaced, ?_⟩
    have hcounted := hw.counted
    show w'.self.resetBreaks.length + (extra + 1) ≤
      (w'.log ++ [Event.deviceReset]).count Event.deviceReset
    rw [List.count_append, List.count_singleton_self]
    omega
  · have hcall : Keeps (BreaksBefore moment (extra + 1)) (fun _ _ => True)
        (callDriver fun driver => driver.resetDevice w.env.resets.head : Program τ Unit) :=
      (callDriver_breakless _).keeps fun _ _ hstep hw => ⟨trivial, hw.of_breakless hstep⟩
    exact hcall.post (fun _ _ => id) fun _ => BreaksBefore.kept

/-- **A break is recorded after the others**, and only when the device has been reset. -/
theorem resetDevice_breaks : Keeps BreaksKept (fun _ _ => True) (resetDevice : Program τ Unit) := by
  have htime : Ends BreaksKept (fun _ _ => True) (time : Program τ ℤ)
      (fun before => BreaksBefore before 0) BreaksKept :=
    of_kept fun moment => time_breaks.post (fun now w h => h.1.until h.2.1 h.2.2) fun _ => id
  refine htime.bind fun timeBefore => driverResetDevice_breaks.bind fun _ => ?_
  refine time_breaks.bind fun timeAfter => .modify ?_
  rintro w ⟨hbreaks, hle, hpast⟩
  exact ⟨trivial, hbreaks.snoc hle hpast⟩

/-- The primitives of the mapper keep the breaks in order. -/
theorem breaks_primitives (lib : Lib τ) : Primitives lib BreaksKept fun _ _ => True where
  inward w w' h hw := ⟨trivial, (hw.of_breakless h.breakless).kept⟩
  time := of_kept fun moment => time_breaks.post (fun _ _ h => h.1.kept) fun _ => id
  rawReceive := breakless_keeps rawReceive_breakless
  driverResetDevice :=
    of_kept fun moment => driverResetDevice_breaks.post (fun _ _ h => h.kept) fun _ => id
  resetDevice := resetDevice_breaks
  startTest w hw := by
    have hstep : Breakless w w.startTest := ⟨rfl, rfl, rfl, List.prefix_append _ _⟩
    exact ⟨trivial, (hw.of_breakless hstep).kept⟩
  send _ pkt _ := (breakless_keeps (send_breakless pkt)).pre fun _ => And.left

/-! ## Closing -/

/-- The clock gives its next reading. -/
theorem time_returns (w : World τ) : (time : Program τ ℤ).Returns w w.env.clock.head
    { w with env := { w.env with clock := w.env.clock.tail } } :=
  (Returns.get w).bind ((Returns.modify _ w).bind (.pure _ _))

/-- **The reset breaks**, as `close` reports them after any session of a constructed object: with a
clock that does not go back, they follow each other between the start of the test and its end, and
there are no more of them than resets of the device. So their total is no more than the runtime. -/
theorem close_breaks {lib : Lib τ} {cls : MapperClass}
    (hcls : cls ∈ [blesulClass, arduinoNanoESP32, nimble, rpiPico2W, rpiZeroWBlueZ, intelAX200BlueZ,
      nrf52840, nrf52840DKNimble])
    {args : BlesulArgs} {now : ℤ} {env : Env} {smp : τ} {w₀ : World τ}
    (hconstruct : construct args now env smp = .ok w₀) (hnow : now ≤ env.clock.head)
    (hforward : ∀ n, env.clock n ≤ env.clock (n + 1)) (cs : List Call) :
    ∃ report w, close.Returns ((session lib cls cs).final w₀) report w ∧
      Spaced 0 report.resetBreaks report.totalRuntime ∧
      report.resetBreaks.length ≤ w.log.count .deviceReset ∧
      0 ≤ report.totalPauseTime ∧ report.totalPauseTime ≤ report.totalRuntime := by
  have hstart : BreaksKept w₀ := by
    obtain rfl := Except.ok.inj hconstruct
    exact ⟨hforward, le_rfl, Int.sub_nonneg_of_le hnow, Nat.zero_le _⟩
  have hend := ((breaks_primitives lib).session (answersOwn_of_mem hcls) cs).final hstart
  set w := (session lib cls cs).final w₀
  have htotal : w.self.resetBreaks.foldl (fun total pause => total + (pause.2 - pause.1)) 0 =
      (w.self.resetBreaks.map fun pause => pause.2 - pause.1).sum := by
    rw [List.sum_eq_foldl, List.foldl_map]
  refine ⟨_, _, (time_returns w).bind ((getSelf_returns _).bind ((Returns.modify _ _).bind (.pure _ _))),
    hend.spaced, hend.counted, ?_, ?_⟩
  · show 0 ≤ w.self.resetBreaks.foldl _ 0
    rw [htotal]
    exact hend.spaced.sum_nonneg
  · show w.self.resetBreaks.foldl _ 0 ≤ w.env.clock.head - w.self.testStartTime
    rw [htotal]
    exact hend.spaced.sum_le.trans_eq (Int.sub_zero _)

/-- A device whose scan responses are not parsed to the end. -/
def rawScapy : Scapy where
  raw _ := []
  btle _ := ⟨[.btle 0x8E89BED6, .btleAdv 0 0, .btleScanRsp plainAddress, .raw []]⟩
  hciHdr _ := ⟨[]⟩
  summary _ := "Raw".toList

/-- The device is reset once during `pre`. -/
theorem close_breaks_raw :
    ∃ report w, close.Returns ((session (plainLib rawScapy) blesulClass [.pre]).final
        (plainWorld 0 [some [0], none])) report w ∧
      report.resetBreaks.length = 1 ∧ report.totalPauseTime ≤ report.totalRuntime := by
  have hforward (n : ℕ) :
      (plainEnv [some [0], none]).clock n ≤ (plainEnv [some [0], none]).clock (n + 1) := by
    show (1000000 * n : ℤ) ≤ 1000000 * (n + 1 : ℕ)
    omega
  obtain ⟨report, w, hreturns, -, -, -, hle⟩ := @close_breaks _ (plainLib rawScapy) blesulClass
    List.mem_cons_self _ _ _ _ _ (construct_plain 0 [some [0], none]) (by decide) hforward [.pre]
  have hone : (close.result ((session (plainLib rawScapy) blesulClass [.pre]).final
      (plainWorld 0 [some [0], none]))).toOption.map (·.resetBreaks.length) = some 1 := by decide +kernel
  rw [hreturns.1] at hone
  exact ⟨report, w, hreturns, Option.some.inj hone, hle⟩

end BleFuzzer.Mapper
