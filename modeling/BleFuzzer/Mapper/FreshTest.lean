import BleFuzzer.Common.System
import BleFuzzer.Mapper.Agree
import BleFuzzer.Mapper.Classes
import BleFuzzer.Mapper.Retry

/-!
# Fresh tests

What a test inherits from the tests before it. `Configured` is what completed calls leave of the
construction, and `reset` brings two such objects to agreement, except for the address type that
`ll_adv_scan_req_post` has noted and for the state of the SMP server.
-/

namespace BleFuzzer.Mapper

open Driver Exec

variable {τ : Type} (lib : Lib τ) (cls : MapperClass)

/-- `pre` up to its call of `reset`. -/
def resetIfDue : Program τ Unit := do
  if cls.preResets then
    let now ← time
    let self ← getSelf
    if 60 * 60 * 8 * 1000000 < now - self.lastDeviceResetTime then
      driverResetDevice
      let now ← time
      modifySelf fun self => { self with lastDeviceResetTime := now }

/-- `pre` in two parts. -/
theorem pre_eq : (pre lib cls : Program τ Unit) = resetIfDue cls >>= fun _ => reset lib cls := by
  rw [pre, resetIfDue]
  split
  · simp only [Exec.bind_assoc]
    congr 1
    funext now
    congr 1
    funext self
    split
    · simp only [Exec.bind_assoc]
    · rfl
  · rfl

/-- `reset` up to its assignments. -/
def resetTerminate : Program τ Unit := do
  let self ← getSelf
  if self.accessAddress.isSome then
    send lib (packets .llCtrlTerminateInd self)

/-- `reset` from its assignments on. -/
def resetRest : Program τ Unit := do
  Exec.modify fun w =>
    { w with
      self := w.self.resetFields w.env.draws.head
      env := { w.env with draws := w.env.draws.tail }
      log := w.log ++ [.reset] }
  resetScan lib cls (List.range 32)

/-- `reset` in two parts. -/
theorem reset_eq :
    (reset lib cls : Program τ Unit) = resetTerminate lib >>= fun _ => resetRest lib cls := by
  rw [reset, resetTerminate, Exec.bind_assoc]
  congr 1
  funext self
  split
  · rfl
  · rfl

/-- On an object constructed with `args`, calls that do not raise have been made, and a further call
of `pre` has called `reset` in the state `u` and returned in `v`. -/
def EntersTest (args : BlesulArgs) (u v : World τ) : Prop :=
  ∃ now env smp w history x, construct args now env smp = .ok w ∧
    (calls lib cls history).Returns w () x ∧ (resetIfDue cls).Returns x () u ∧
    (reset lib cls).Returns u () v

/-- A test that has been entered, from the calls that came before. -/
theorem entersTest_of_calls {args : BlesulArgs} {now : ℤ} {env : Env} {smp : τ} {w : World τ}
    (hw : construct args now env smp = .ok w) (hcls : cls.preResets = false) (history : List Call)
    (hcalls : (calls lib cls history).result w = .ok ())
    (hreset : (reset lib cls).result ((calls lib cls history).final w) = .ok ()) :
    EntersTest lib cls args ((calls lib cls history).final w)
      ((reset lib cls).final ((calls lib cls history).final w)) := by
  refine ⟨now, env, smp, w, history, _, hw, ⟨hcalls, rfl⟩, ?_, hreset, rfl⟩
  rw [resetIfDue, hcls]
  exact .pure () _

/-- The packets and settings sent, in what a log adds to `base`. -/
def transmitted (base log : List Event) : List Bytes :=
  (log.drop base.length).filterMap fun | .tx data => some data | _ => none

/-! ## What is left of the construction -/

/-- The fields that only the constructor assigns, the driver up to its port, and the table of
symbols. -/
structure Configured (lib : Lib τ) (args : BlesulArgs) (driver : Nrf52) (s : Blesul) : Prop where
  idle : driver.IsIdle
  driver : s.driver.close = driver.close
  peripheralAddress : s.peripheralAddress = args.deviceAddress
  centralAddressIsRand : s.centralAddressIsRand = 0
  recvSMin : s.recvSMin = args.recvSMin
  recvSMax : s.recvSMax = args.recvSMax
  outputSymbolFilters : s.outputSymbolFilters =
    args.outputSymbolFilters ++ ["LL_ADV_IND".toList, "LL_DATA".toList]
  symbols : ∀ table, s.symbols = some table → table = symbolTable lib s

variable {lib} {cls}

/-- No assignment below `step_internal` changes the configuration. -/
theorem Assign.configured (hlib : lib.Regular) {args : BlesulArgs} {driver : Nrf52} {w w' : World τ}
    (h : Assign lib w w') (hw : Configured lib args driver w.self) :
    Configured lib args driver w'.self := by
  obtain ⟨hidle, hdriver, haddr, hcentral, hmin, hmax, hfilters, hsymbols⟩ := hw
  have hkeep (self' : Blesul) (hsame : self'.symbols = w.self.symbols) :
      ∀ table, self'.symbols = some table → table = symbolTable lib self' := by
    intro table htable
    rw [hsymbols table (hsame.symm.trans htable)]
    exact symbolTable_eq hlib _ _
  cases h with
  | deviceReset driver' env hport =>
    exact ⟨hidle, hport.trans hdriver, haddr, hcentral, hmin, hmax, hfilters, hkeep _ rfl⟩
  | tx driver' data hsend =>
    have hdriver' : driver'.close = driver.close :=
      (hsend (hidle.of_close_eq hdriver)).trans hdriver
    exact ⟨hidle, hdriver', haddr, hcentral, hmin, hmax, hfilters, hkeep _ rfl⟩
  | symbols =>
    refine ⟨hidle, hdriver, haddr, hcentral, hmin, hmax, hfilters, ?_⟩
    rintro table ⟨⟩
    exact symbolTable_eq hlib _ _
  | _ => exact ⟨hidle, hdriver, haddr, hcentral, hmin, hmax, hfilters, hkeep _ rfl⟩

/-- Nor do those of `ll_ctrl_enc_req`. -/
theorem EncReqAssign.configured (hlib : lib.Regular) {args : BlesulArgs} {driver : Nrf52}
    {w w' : World τ} (h : EncReqAssign w w') (hw : Configured lib args driver w.self) :
    Configured lib args driver w'.self := by
  obtain ⟨hidle, hdriver, haddr, hcentral, hmin, hmax, hfilters, hsymbols⟩ := hw
  cases h <;>
    exact ⟨hidle, hdriver, haddr, hcentral, hmin, hmax, hfilters, fun table htable =>
      (hsymbols table htable).trans (symbolTable_eq hlib _ _)⟩

/-- Nor do those of a test. -/
theorem TestAssign.configured (hlib : lib.Regular) {args : BlesulArgs} {driver : Nrf52}
    {w w' : World τ} (h : TestAssign w w') (hw : Configured lib args driver w.self) :
    Configured lib args driver w'.self := by
  obtain ⟨hidle, hdriver, haddr, hcentral, hmin, hmax, hfilters, hsymbols⟩ := hw
  cases h <;>
    exact ⟨hidle, hdriver, haddr, hcentral, hmin, hmax, hfilters, fun table htable =>
      (hsymbols table htable).trans (symbolTable_eq hlib _ _)⟩

/-- The driver of every object constructed with `args`. -/
def initDriver (args : BlesulArgs) : Nrf52 where
  serialOpen := true
  nDebug := false
  logsPcap := false
  resetCmd := args.resetCmd
  pcapTxHandover := 0
  eventCounter := 0
  sentPkt := none
  packetsBuffer := []

/-- A constructed object, with any libraries. -/
theorem construct_configured {args : BlesulArgs} {now : ℤ} {env : Env} {smp : τ} {w : World τ}
    (h : construct args now env smp = .ok w) :
    Configured lib args (initDriver args) w.self ∧ w.told.retrying = false := by
  obtain rfl := Except.ok.inj h
  exact ⟨⟨⟨rfl, rfl⟩, rfl, rfl, rfl, rfl, rfl, rfl, nofun⟩, rfl⟩

/-- After any calls, the object is configured as it was constructed. -/
theorem calls_configured (hlib : lib.Regular) {args : BlesulArgs} {driver : Nrf52} (cs : List Call)
    {w w' : World τ} (hw : Configured lib args driver w.self)
    (h : (calls lib cls cs).Returns w () w') : Configured lib args driver w'.self := by
  have hkeeps : Keeps (fun w => Configured lib args driver w.self) (fun _ _ => True)
      (calls lib cls cs) := by
    refine calls_keeps (fun _ _ h hw => ⟨trivial, h.configured hlib hw⟩)
      (fun _ _ h hw => ⟨trivial, h.configured hlib hw⟩) ?_ cs
    intro sym pkt
    refine ((performSymbol_steps sym pkt).keeps fun w w' hassign hw => ?_).pre fun _ => And.left
    rcases hassign with h | h
    · exact ⟨trivial, h.configured hlib hw⟩
    · exact ⟨trivial, h.configured hlib hw⟩
  exact hkeeps.1.returns hw h

/-- The part of `pre` that may reset the device. -/
theorem resetIfDue_steps : Steps (Assign lib) (resetIfDue cls : Program τ Unit) := by
  refine .ite (time_steps.bind fun now => getSelf_bind_steps fun self => .ite ?_ (.pure _)) (.pure _)
  refine driverResetDevice_steps.bind fun _ => time_steps.bind fun now => .modify fun _ => ?_
  exact .deviceResetTime _ _

/-- Completed calls leave no retry running. -/
theorem calls_notRetrying (cs : List Call) :
    Records (fun t => t.retrying = false) (calls lib cls cs) fun _ t => t.retrying = false := by
  induction cs with
  | nil => exact .pure fun _ => id
  | cons c cs ih =>
    refine Triple.bind (Q := fun _ w => w.told.retrying = false) ?_ fun _ => ih
    cases c with
    | pre =>
      refine .of_eq fun w hw => ((pre_records w.told).pre (by rintro w' rfl; rfl)).post ?_
      intro _ w' hw'
      rw [hw']
      exact hw
    | step sym =>
      refine Triple.bind (Q := fun _ w => w.told.retrying = false) ?_ fun _ => .pure fun _ => id
      refine .of_eq fun w hw => ?_
      refine ((stepInternal_stepped w.told recursionLimit sym).pre (by rintro w' rfl; rfl)).bind
        fun out => getSelf_bind_triple fun w' hstep => .pure ?_
      rintro _ rfl
      rcases hstep with h | ⟨-, -, t₁, h, -⟩
      · rw [h]
        exact hw
      · rw [h]
        rfl

/-! ## The start of `reset` -/

/-- A program has done nothing to the environment, the SMP server and the fields that `reset` keeps.
-/
structure Quiet (u w : World τ) : Prop where
  env : w.env = u.env
  smp : w.smp = u.smp
  peripheralAddressIsRand : w.self.peripheralAddressIsRand = u.self.peripheralAddressIsRand
  isRetryRunning : w.self.isRetryRunning = u.self.isRetryRunning
  lastDeviceResetTime : w.self.lastDeviceResetTime = u.self.lastDeviceResetTime
  log : ∃ l, w.log = u.log ++ l ∧ .configureConnection ∉ l

/-- `send` changes the driver, the counter and the log. -/
theorem send_quiet (pkt : Pkt) (u : World τ) :
    Steps (fun w w' => Quiet u w → Quiet u w') (send lib pkt) := by
  have hrecord {e : Event} {f : Blesul → Blesul} (he : e ≠ .configureConnection)
      (hf : ∀ s, (f s).peripheralAddressIsRand = s.peripheralAddressIsRand ∧
        (f s).isRetryRunning = s.isRetryRunning ∧ (f s).lastDeviceResetTime = s.lastDeviceResetTime) :
      Steps (fun w w' => Quiet u w → Quiet u w') (record e f : Program τ Unit) := by
    refine .modify fun w hw => ?_
    obtain ⟨l, hl, hconf⟩ := hw.log
    obtain ⟨hrand, hretry, htime⟩ := hf w.self
    refine ⟨hw.env, hw.smp, hrand.trans hw.peripheralAddressIsRand, hretry.trans hw.isRetryRunning,
      htime.trans hw.lastDeviceResetTime, l ++ [e], ?_, by simpa [hconf] using he.symm⟩
    rw [hl, List.append_assoc]
  have hcall (f : Nrf52 → Except PyErr (Nrf52 × Bytes)) :
      Steps (fun w w' => Quiet u w → Quiet u w') (callDriver f : Program τ Unit) :=
    .bind .get fun w => .bind (.lift _) fun r => hrecord nofun fun _ => ⟨rfl, rfl, rfl⟩
  refine getSelf_bind_steps fun self => .ite ?_ (hcall _)
  exact .bind (.lift _) fun _ => .bind (hrecord nofun fun _ => ⟨rfl, rfl, rfl⟩) fun _ => hcall _

/-- So does the termination at the start of `reset`. -/
theorem resetTerminate_quiet (u : World τ) :
    Steps (fun w w' => Quiet u w → Quiet u w') (resetTerminate lib) :=
  getSelf_bind_steps fun _ => .ite (send_quiet _ u) (.pure ())

/-- It leaves the configuration alone. -/
theorem resetTerminate_configured (hlib : lib.Regular) {args : BlesulArgs} {driver : Nrf52} :
    Steps (fun w w' : World τ =>
      Configured lib args driver w.self → Configured lib args driver w'.self)
      (resetTerminate lib) :=
  getSelf_bind_steps fun _ =>
    .ite ((send_steps _).mono fun _ _ h => h.configured hlib) (.pure ())

/-- A packet that has been sent went to an open port. -/
theorem isOpen_of_callDriver {f : Nrf52 → Except PyErr (Nrf52 × Bytes)}
    (hf : ∀ d r, f d = .ok r → d.serialOpen = true) {w w' : World τ}
    (h : (callDriver f).Returns w () w') : w.self.driver.serialOpen = true := by
  obtain ⟨_, _, hget, h⟩ := h.of_bind
  obtain ⟨rfl, rfl⟩ := hget.of_get
  obtain ⟨r, _, hlift, -⟩ := h.of_bind
  exact hf _ r hlift.of_lift.1

/-- What has been sent was sent on an open port. -/
theorem isOpen_of_send {pkt : Pkt} {w w' : World τ} (h : (send lib pkt).Returns w () w') :
    w.self.driver.serialOpen = true := by
  have h := of_getSelf_bind h
  split at h
  · obtain ⟨pktSend, _, hlift, h⟩ := h.of_bind
    obtain ⟨-, rfl⟩ := hlift.of_lift
    obtain ⟨_, _, hrecord, h⟩ := h.of_bind
    obtain rfl := hrecord.of_modify
    have hopen := isOpen_of_callDriver (fun d r hr => ?_) h
    · exact hopen
    · obtain ⟨data, hraw, -⟩ := exists_of_bind_ok hr
      exact Nrf52.rawSend_isOpen hraw
  · exact isOpen_of_callDriver (fun d r hr => Nrf52.send_isOpen hr) h

/-- `reset` sends a scan request before all else that it does after its assignments. -/
theorem isOpen_of_resetRest {w w' : World τ} (h : (resetRest lib cls).Returns w () w') :
    w.self.driver.serialOpen = true := by
  obtain ⟨_, w₁, hmodify, hscan⟩ := h.of_bind
  have hrange : List.range 32 = 0 :: (List.range 31).map Nat.succ := List.range_succ_eq_map
  rw [hrange] at hscan
  obtain ⟨_, _, hsend, -⟩ := (of_getSelf_bind hscan).of_bind
  have hopen := isOpen_of_send hsend
  obtain rfl := hmodify.of_modify
  exact hopen

/-! ## From the assignments of `reset` on -/

/-- Where the assignments of `reset` bring two objects to agreement. -/
structure Meets (lib : Lib τ) (cls : MapperClass) (args : BlesulArgs) (driver : Nrf52) (st : Start)
    (w₁ w₂ : World τ) : Prop where
  configured₁ : Configured lib args driver w₁.self
  configured₂ : Configured lib args driver w₂.self
  driver : w₁.self.driver = w₂.self.driver
  peripheralAddressIsRand : w₁.self.peripheralAddressIsRand = w₂.self.peripheralAddressIsRand
  isRetryRunning : w₁.self.isRetryRunning = w₂.self.isRetryRunning
  lastDeviceResetTime : cls.preResets = true →
    w₁.self.lastDeviceResetTime = w₂.self.lastDeviceResetTime
  env : w₁.env = w₂.env
  log₁ : w₁.log = st.base₁
  log₂ : w₂.log = st.base₂
  smp : w₁.smp = w₂.smp ∨ st.smpDiffers

/-- **All that `reset` leaves of the tests before** is in `Meets`. -/
theorem resetRest_alike (hlib : lib.Regular) (hcls : cls.Regular) {args : BlesulArgs}
    {driver : Nrf52} {st : Start} :
    Alike (Meets lib cls args driver st) (Stale st) (resetRest lib cls) (Agree lib cls st) := by
  refine Alike.modify_bind (Q := Agree lib cls st) (fun _ hw => hw.append rfl) (fun w₁ w₂ hw => ?_)
    (resetScan_insensitive hlib hcls _)
  obtain ⟨h₁, h₂, hdriver, hrand, hretry, htime, henv, hlog₁, hlog₂, hsmp⟩ := hw
  refine ⟨?_, htime, ?_, ?_, ?_, [.reset], ?_, ?_, hsmp.imp_right fun h => ⟨h, by simp⟩⟩
  · simp only [Blesul.core, Blesul.resetFields, henv, hrand, hretry, hdriver,
      h₁.peripheralAddress, h₂.peripheralAddress, h₁.centralAddressIsRand,
      h₂.centralAddressIsRand, h₁.recvSMin, h₂.recvSMin, h₁.recvSMax, h₂.recvSMax,
      h₁.outputSymbolFilters, h₂.outputSymbolFilters]
  · intro table htable
    exact (h₁.symbols table htable).trans (symbolTable_eq hlib _ _)
  · intro table htable
    exact (h₂.symbols table htable).trans (symbolTable_eq hlib _ _)
  · rw [henv]
  · rw [hlog₁]
  · rw [hlog₂]

/-! ## Two tests with the same inputs -/

/-- What earlier tests can change and `reset` keeps is the same in two objects. -/
structure SameKept (cls : MapperClass) (s₁ s₂ : Blesul) : Prop where
  peripheralAddressIsRand : s₁.peripheralAddressIsRand = s₂.peripheralAddressIsRand
  /-- Only a class whose `pre` resets the device looks at it. -/
  lastDeviceResetTime : cls.preResets = true → s₁.lastDeviceResetTime = s₂.lastDeviceResetTime

/-- An object that enters a test is as constructed where `reset` starts, with no retry running. -/
theorem EntersTest.configured (hlib : lib.Regular) {args : BlesulArgs} {u v : World τ}
    (h : EntersTest lib cls args u v) :
    Configured lib args (initDriver args) u.self ∧ u.self.isRetryRunning = false := by
  obtain ⟨now, env, smp, w, history, x, hconstruct, hhistory, hdue, -⟩ := h
  obtain ⟨hw, hretry⟩ := @construct_configured _ lib _ _ _ _ _ hconstruct
  have hx := calls_configured hlib history hw hhistory
  have hxretry := (calls_notRetrying history).returns hretry hhistory
  have hu := (records_of_assign (@resetIfDue_steps _ lib cls)
    fun t => t.retrying = false).returns hxretry hdue
  refine ⟨?_, hu⟩
  rw [← hdue.2]
  exact resetIfDue_steps.final (P := fun w => Configured lib args (initDriver args) w.self)
    (fun _ _ hassign => hassign.configured hlib) hx

/-- An object in a test: where its `reset` assigns the fields, and what it has sent until then. -/
theorem EntersTest.meets (hlib : lib.Regular) {args : BlesulArgs} {u v : World τ}
    (h : EntersTest lib cls args u v) :
    ∃ w, Quiet u w ∧ Configured lib args (initDriver args) w.self ∧
      w.self.isRetryRunning = false ∧ (resetRest lib cls).Returns w () v := by
  obtain ⟨hu, hretry⟩ := h.configured hlib
  obtain ⟨-, -, -, -, -, -, -, -, -, hreset⟩ := h
  rw [reset_eq] at hreset
  obtain ⟨_, w, hterminate, hrest⟩ := hreset.of_bind
  have hquiet : Quiet u w := by
    rw [← hterminate.2]
    exact (resetTerminate_quiet u).final (fun _ _ => id)
      ⟨rfl, rfl, rfl, rfl, rfl, [], by simp, by simp⟩
  refine ⟨w, hquiet, ?_, hquiet.isRetryRunning.trans hretry, hrest⟩
  rw [← hterminate.2]
  exact (resetTerminate_configured hlib).final
    (P := fun w => Configured lib args (initDriver args) w.self) (fun _ _ => id) hu

/-- **Tests are fresh** up to what `SameKept` names and up to an SMP server that is used before it
is configured: with the same draws, times and packets, two objects with any histories transmit the
same packets and return the same output symbols. -/
theorem steps_fresh (hlib : lib.Regular) (hcls : cls.Regular) {args : BlesulArgs}
    {u₁ v₁ u₂ v₂ : World τ} (h₁ : EntersTest lib cls args u₁ v₁) (h₂ : EntersTest lib cls args u₂ v₂)
    (henv : u₁.env = u₂.env) (hkept : SameKept cls u₁.self u₂.self) (inputs : List InputSymbol)
    (hsmp : u₁.smp = u₂.smp ∨
      ¬ SmpUnconfigured u₁.log ((steps lib cls inputs).final v₁).log) :
    (steps lib cls inputs).result v₁ = (steps lib cls inputs).result v₂ ∧
      transmitted v₁.log ((steps lib cls inputs).final v₁).log =
        transmitted v₂.log ((steps lib cls inputs).final v₂).log := by
  obtain ⟨w₁, hquiet₁, hconf₁, hretry₁, hrest₁⟩ := h₁.meets hlib
  obtain ⟨w₂, hquiet₂, hconf₂, hretry₂, hrest₂⟩ := h₂.meets hlib
  let st : Start := { base₁ := w₁.log, base₂ := w₂.log, smpDiffers := u₁.smp ≠ u₂.smp }
  have hmeets : Meets lib cls args (initDriver args) st w₁ w₂ := by
    have hdriver : w₁.self.driver = w₂.self.driver :=
      Nrf52.eq_of_close_eq (hconf₁.driver.trans hconf₂.driver.symm)
        ((isOpen_of_resetRest hrest₁).trans (isOpen_of_resetRest hrest₂).symm)
    refine ⟨hconf₁, hconf₂, hdriver, ?_, hretry₁.trans hretry₂.symm, fun hpre => ?_, ?_, rfl, rfl, ?_⟩
    · rw [hquiet₁.peripheralAddressIsRand, hquiet₂.peripheralAddressIsRand,
        hkept.peripheralAddressIsRand]
    · rw [hquiet₁.lastDeviceResetTime, hquiet₂.lastDeviceResetTime, hkept.lastDeviceResetTime hpre]
    · rw [hquiet₁.env, hquiet₂.env, henv]
    · rw [hquiet₁.smp, hquiet₂.smp]
      exact em _
  have hsteps := @steps_insensitive _ _ _ st hlib hcls inputs
  -- the first test never uses a server that is in the state of another test
  have hfresh : ¬ Stale st ((steps lib cls inputs).final v₁) := by
    rintro ⟨hdiffers, l₁, l₂, hlog, hconf⟩
    obtain ⟨l, hl, hlconf⟩ := hquiet₁.log
    refine (hsmp.resolve_left hdiffers) ⟨l ++ l₁, l₂, ?_, ?_⟩
    · rw [hlog, show st.base₁ = u₁.log ++ l from hl]
      simp only [List.append_assoc]
    · simp [hlconf, hconf]
  have hagree : Agree lib cls st v₁ v₂ := by
    rcases (resetRest_alike hlib hcls).alike w₁ w₂ hmeets with hstale | ⟨-, hagree⟩
    · rw [hrest₁.2] at hstale
      exact absurd (hsteps.keeps _ hstale) hfresh
    · rwa [hrest₁.2, hrest₂.2] at hagree
  rcases hsteps.alike v₁ v₂ hagree with hstale | ⟨hresult, hend⟩
  · exact absurd hstale hfresh
  · refine ⟨hresult, ?_⟩
    obtain ⟨l, hv₁, hv₂, -⟩ := hagree.log
    obtain ⟨l', hf₁, hf₂, -⟩ := hend.log
    rw [hv₁, hv₂, hf₁, hf₂]
    simp only [transmitted, List.length_append, ← List.drop_drop, List.drop_left]

/-- Every class of the repository is regular: only one has a `handle_packet`, and it builds its
answers from the access address. -/
theorem classes_regular (cls : MapperClass)
    (h : cls ∈ [blesulClass, arduinoNanoESP32, nimble, rpiPico2W, rpiZeroWBlueZ, intelAX200BlueZ,
      nrf52840, nrf52840DKNimble]) : cls.Regular := by
  have hnone (cls : MapperClass) (hcls : cls.handlePacket = none) : cls.Regular :=
    fun _ h => nomatch hcls.symm.trans h
  have hintel : intelAX200BlueZ.Regular := by
    rintro _ ⟨⟩ self self' hself
    funext pkt
    simp only [intelAX200BlueZHandlePacket, readByTypeRsp, attPacket, dataPacket, Blesul.aa, hself]
  simp only [List.mem_cons, List.not_mem_nil, or_false] at h
  rcases h with rfl | rfl | rfl | rfl | rfl | rfl | rfl | rfl
  case inr.inr.inr.inr.inr.inl => exact hintel
  all_goals exact hnone _ rfl

/-! ## An object that has noted an address type -/

/-- After a scan that a device of a given address type has answered, which answers the next two
scans as well. -/
def scanned (isRand : ℕ) : World Unit :=
  (calls (plainLib wireScapy) blesulClass [.pre, .step .llAdvScanReq]).final
    (plainWorld 0 (List.replicate 4 (some (plainScanRsp isRand)) ++ [none]))

/-- A new object in the same environment. -/
def unused (isRand : ℕ) : World Unit := { plainWorld 0 [] with env := (scanned isRand).env }

/-- The state in which a test starts. -/
def started (w : World Unit) : World Unit := (reset (plainLib wireScapy) blesulClass).final w

/-- Both tests are made with one environment. -/
theorem unused_env (isRand : ℕ) : (scanned isRand).env = (unused isRand).env := by
  rw [unused]

/-- A test after one in which the device has been scanned. -/
theorem scanned_enters (isRand : ℕ) (hcalls : (calls (plainLib wireScapy) blesulClass
      [.pre, .step .llAdvScanReq]).result
        (plainWorld 0 (List.replicate 4 (some (plainScanRsp isRand)) ++ [none])) = .ok ())
    (hreset : (reset (plainLib wireScapy) blesulClass).result (scanned isRand) = .ok ()) :
    EntersTest (plainLib wireScapy) blesulClass (plainArgs 0) (scanned isRand)
      (started (scanned isRand)) := by
  rw [started, scanned] at *
  exact entersTest_of_calls _ _ (construct_plain _ _) rfl _ hcalls hreset

/-- A test of a new object. -/
theorem unused_enters (isRand : ℕ)
    (hreset : (reset (plainLib wireScapy) blesulClass).result (unused isRand) = .ok ()) :
    EntersTest (plainLib wireScapy) blesulClass (plainArgs 0) (unused isRand)
      (started (unused isRand)) := by
  have hconstruct : construct (plainArgs 0) 0 (scanned isRand).env () = .ok (unused isRand) := rfl
  rw [started]
  exact entersTest_of_calls _ _ hconstruct rfl [] rfl hreset

/-- The summaries of the mapper's packets name their layers only. -/
theorem wireScapy_regular : (plainLib wireScapy).Regular :=
  ⟨fun sym _ _ => by cases sym <;> rfl, fun _ _ _ _ _ _ _ _ => rfl⟩

/-- A device with a random address changes nothing in a new object: a scan and a connection are the
same on both. -/
theorem steps_fresh_random :
    let test := steps (plainLib wireScapy) blesulClass [.llAdvScanReq, .llAdvConnectInd]
    test.result (started (scanned 1)) = test.result (started (unused 1)) ∧
      transmitted (started (scanned 1)).log (test.final (started (scanned 1))).log =
        transmitted (started (unused 1)).log (test.final (started (unused 1))).log :=
  steps_fresh wireScapy_regular (classes_regular _ List.mem_cons_self)
    (scanned_enters 1 (by decide +kernel) (by decide +kernel)) (unused_enters 1 (by decide +kernel))
    (unused_env 1) ⟨by decide +kernel, nofun⟩ [.llAdvScanReq, .llAdvConnectInd]
    (.inl (Subsingleton.elim _ _))

/-- The address type that a device with a public address has told an earlier test goes into the
`CONNECT_IND` of the next one, unlike in a new object. -/
theorem scanned_not_fresh :
    EntersTest (plainLib wireScapy) blesulClass (plainArgs 0) (scanned 0) (started (scanned 0)) ∧
      EntersTest (plainLib wireScapy) blesulClass (plainArgs 0) (unused 0) (started (unused 0)) ∧
      (scanned 0).env = (unused 0).env ∧ (plainLib wireScapy).Regular ∧ blesulClass.Regular ∧
      transmitted (started (scanned 0)).log
          ((steps (plainLib wireScapy) blesulClass [.llAdvConnectInd]).final
            (started (scanned 0))).log ≠
        transmitted (started (unused 0)).log
          ((steps (plainLib wireScapy) blesulClass [.llAdvConnectInd]).final
            (started (unused 0))).log :=
  ⟨scanned_enters 0 (by decide +kernel) (by decide +kernel), unused_enters 0 (by decide +kernel),
    unused_env 0, wireScapy_regular, classes_regular _ List.mem_cons_self, by decide +kernel⟩

end BleFuzzer.Mapper
