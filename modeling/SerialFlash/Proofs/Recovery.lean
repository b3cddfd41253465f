import SerialFlash.Proofs.Initialised
import SerialFlash.Proofs.Promptness
import SerialFlash.Proofs.Sleep

/-!
The way back to the ready state. With nothing wrong with the chip, every busy time can be waited
out with status reads. An idle chip that is awake ends the erase of a driver that takes it for
erasing, and is identified by one that has given it up or holds nothing of it. A sleeping chip is
woken by the driver that has put it to sleep, as long as that holds its identity. Without one,
nothing leads back.
-/

namespace SerialFlash

open Procedure

/-- Status polls come to an end, and a status write takes effect. -/
structure Chip.Fit (c : Chip) (options : DriverOptions) : Prop where
  sound : c.Sound
  unlocked : c.statusLocked = false
  programBusy : c.programBusy < options.maxPolls

theorem Chip.Alike.fit {c c' : Chip} {options : DriverOptions} (h : c.Alike c')
    (fit : c.Fit options) : c'.Fit options := by
  have sound := fit.sound.later h.endures
  obtain ⟨_, _, _, rfl, -⟩ := h
  exact ⟨sound, fit.unlocked, fit.programBusy⟩

/-- A status write behind a write enable sets what it says. -/
theorem Chip.enabled_writeStatus {c : Chip} {l : Link} (responsive : c.responsive = true)
    (unlocked : c.statusLocked = false) (first second : UInt8) :
    (c.enabled.obey l (.writeStatus first second)).2 =
      { c with
        protectBits := first &&& Status1.blockProtect
        quadEnabled := second &&& Status2.quadEnable != 0
        writeEnabled := false
        busyReads := c.programBusy } := by
  obtain ⟨awake, idle⟩ := responsive_iff.mp responsive
  obtain ⟨free, done⟩ := isBusy_eq_false_iff.mp idle
  simp [obey_writeStatus, runStatusWrite, enabled, Chip.responsive, isBusy, awake, free, done,
    unlocked]

namespace Driver

variable {d : Driver} {b : Bench}

/-! ### Identification -/

/-- Without an armed fault every instruction is obeyed. -/
theorem ensures_ask_obeyed {i : Instruction} {good : Bytes → Driver → Bench → Prop}
    {bad : DriverError BusError → Driver → Bench → Prop} (fits : i.Fits)
    (noFaults : b.chip.faults = .none)
    (obeyed : ∀ b', b'.link = b.link → (b.chip.obey b.link i).2.Alike b'.chip →
      good (b.chip.obey b.link i).1 d b') : (ask i).Ensures d b good bad :=
  ensures_ask fits (fun _ _ faults _ => absurd noFaults faults) obeyed

/-- A responsive chip shows the quad-enable bit that is set. -/
theorem ensures_readStatus2_on (noFaults : b.chip.faults = .none)
    (responsive : b.chip.responsive = true) (on : b.chip.quadEnabled = true) :
    readStatus2.Ensures d b (fun second _ _ => second &&& Status2.quadEnable ≠ 0)
      fun _ _ _ => False := by
  rw [readStatus2, ensures_bind]
  refine ensures_ask_obeyed (i := .readStatus2) trivial noFaults fun b' _ _ => ?_
  rw [Chip.obey_readStatus2, if_pos responsive, ensures_pure, Chip.status2, if_pos on]
  exact (show Status2.quadEnable &&& Status2.quadEnable ≠ 0 by decide)

/-- The status write sets the quad-enable bit, and the wait behind it ends in time to see that. -/
theorem enableQuad_succeeds (fit : b.chip.Fit d.options) (responsive : b.chip.responsive = true)
    (first second : UInt8) :
    (do
      writeEnable
      let _ ← ask (.writeStatus first (second ||| Status2.quadEnable))
      awaitIdle
      if (← readStatus2) &&& Status2.quadEnable = 0 then
        throw .quadNotLatched : FlashM Unit).Succeeds d b := by
  have awake := (Chip.responsive_iff.mp responsive).1
  simp only [Succeeds, ensures_bind, ensures_ite, ensures_throw]
  refine ensures_enabled (i := .writeStatus first (second ||| Status2.quadEnable)) trivial awake
    (fun faults _ _ _ => faults fit.sound.noFaults) fun _ b₁ _ chip₁ => ?_
  have sound₁ := fit.sound.later
    ((b.chip.endures_enabled.trans (Chip.endures_execute _ _)).trans chip₁.endures)
  rw [Chip.enabled_writeStatus responsive fit.unlocked,
    bne_iff_ne.mpr (gentle_writeStatus first second)] at chip₁
  obtain ⟨_, _, _, same₁, -⟩ := chip₁
  have waited : awaitIdle.Succeeds d b₁ := by
    apply awaitIdle_succeeds sound₁ <;> rw [same₁]
    · exact awake
    · exact fit.programBusy
  refine (waited.ensures ensures_awaitIdle).mono ?_ fun _ _ _ => False.elim
  intro _ _ b₂ ended
  obtain ⟨rfl, idles⟩ := ended
  have on : b₂.chip.quadEnabled = true := by
    obtain ⟨_, _, _, same₂, -⟩ := idles.chip
    rw [same₂, same₁]
    rfl
  have noFaults := idles.chip.endures.noFaults sound₁.noFaults
  refine (ensures_readStatus2_on noFaults idles.responsive on).mono ?_ fun _ _ _ => id
  intro latched _ _ set
  exact ⟨fun clear => set clear, fun _ => trivial⟩

/-- The quad-enable bit of a fit chip can be set. -/
theorem ensureQuad_succeeds (fit : b.chip.Fit d.options) (responsive : b.chip.responsive = true) :
    ensureQuad.Succeeds d b := by
  obtain ⟨awake, idle⟩ := Chip.responsive_iff.mp responsive
  simp only [ensureQuad, Succeeds]
  rw [ensures_bind, readStatus2, ensures_bind]
  refine ensures_ask_obeyed (i := .readStatus2) trivial fit.sound.noFaults fun b₁ _ chip₁ => ?_
  rw [Chip.obey_readStatus2] at chip₁
  rw [ensures_pure, ensures_ite, ensures_bind]
  refine ⟨fun _ => ?_, fun _ => trivial⟩
  have fit₁ := chip₁.fit fit
  have awake₁ : b₁.chip.poweredDown = false := by
    obtain ⟨_, _, _, same, -⟩ := chip₁
    rw [same]
    exact awake
  refine (ensures_readStatus1_awake awake₁).mono ?_ fun _ _ _ faults => faults fit₁.sound.noFaults
  intro register _ b₂ ended
  obtain ⟨-, rfl, chip₂⟩ := ended
  -- a status read takes nothing from a chip that is idle
  have responsive₂ : b₂.chip.responsive = true := by
    obtain ⟨free, done⟩ := Chip.isBusy_eq_false_iff.mp (chip₁.isBusy.trans idle)
    obtain ⟨_, _, _, same, -⟩ := chip₂
    rw [same, Chip.responsive_withBooks, Chip.responsive_iff]
    exact ⟨awake₁, by rw [Chip.isBusy_busyFor free, done]; rfl⟩
  exact enableQuad_succeeds (chip₂.fit ⟨fit₁.sound.later (b₁.chip.endures_busyFor _), fit₁.unlocked,
    fit₁.programBusy⟩) responsive₂ _ _

/-- A responsive chip that is fit is identified if its identity is listed. -/
theorem identify_succeeds (fit : b.chip.Fit d.options) (responsive : b.chip.responsive = true)
    {size : Nat} (listed : b.chip.id.capacity? = some size) (idle : d.state ≠ .erasing) :
    identify.Succeeds d b := by
  simp only [identify, Succeeds, ensures_bind, ensures_get, ensures_ite, ensures_throw,
    ensures_modify]
  refine ⟨idle, fun _ => ?_⟩
  refine ensures_ask_obeyed (i := .readId) trivial fit.sound.noFaults fun b₁ _ chip => ?_
  rw [Chip.obey_readId] at chip ⊢
  rw [if_pos responsive, Identity.ofBytes_toBytes, listed]
  have responsive₁ : b₁.chip.responsive = true := by
    obtain ⟨_, _, _, same, -⟩ := chip
    rw [same]
    exact responsive
  simp only [ensures_bind, ensures_get, ensures_ite, ensures_tryCatch, ensures_pure,
    ensures_modify]
  refine ⟨fun _ => ?_, fun _ => trivial⟩
  have fit₁ : b₁.chip.Fit ({ d with identity := b.chip.id } : Driver).options := chip.fit fit
  exact (ensureQuad_succeeds fit₁ responsive₁).mono (fun _ _ _ _ => trivial) fun _ _ _ => False.elim

/-- The erase of an idle chip is over. -/
theorem ensures_eraseProgress_idle (sound : b.chip.Sound) (responsive : b.chip.responsive = true)
    (erasing : d.state = .erasing) :
    eraseProgress.Ensures d b (fun _ d' _ => d'.state = .ready) fun _ _ _ => False := by
  obtain ⟨awake, idle⟩ := Chip.responsive_iff.mp responsive
  simp only [eraseProgress, ensures_bind, ensures_get, erasing]
  refine ensures_liftM_ask (i := .readStatus1) trivial
    (fun _ _ faults _ => absurd sound.noFaults faults) fun b' _ _ => ?_
  rw [Chip.obey_readStatus1, if_neg (by simp [awake])]
  simp only [ensures_ite, ensures_bind, ensures_setState, ensures_pure]
  refine ⟨fun busy => ?_, fun _ => trivial⟩
  rw [show StatusRegister.ofReply [b.chip.status1] = ⟨b.chip.status1⟩ from rfl,
    Chip.isBusy_status1_eq sound.placed, idle] at busy
  contradiction

/-- A driver that holds the identity of its chip can wake it. -/
theorem ensures_leavePowerDown (noFaults : b.chip.faults = .none) (notReady : d.state = .notReady)
    (identified : d.isIdentified = true) :
    leavePowerDown.Ensures d b (fun _ d' _ => d'.state = .ready) fun _ _ _ => False := by
  simp only [leavePowerDown, ensures_bind, ensures_get, notReady, identified, decide_true,
    Bool.and_self, if_true]
  exact ensures_ask_obeyed (i := .releasePowerDown) trivial noFaults fun _ _ _ => rfl

end Driver

/-! ### Sessions -/

namespace Session

variable {s : Session} {d : Driver}

/-- Some operations of the driver end with a driver that is ready. -/
def Returns (s : Session) : Prop :=
  ∃ operations : List FlashOperation, ∃ d,
    (s.run (operations.map .flash)).device.driver? = some d ∧ d.state = .ready

theorem Returns.of_ready (found : s.device.driver? = some d) (ready : d.state = .ready) :
    s.Returns :=
  ⟨[], d, found, ready⟩

theorem Returns.of_step {operation : FlashOperation}
    (h : (s.step (.flash operation)).2.Returns) : s.Returns := by
  obtain ⟨operations, rest⟩ := h
  exact ⟨operation :: operations, rest⟩

/-- What an operation ensures holds of the session behind it. -/
theorem step_flash_ensures (found : s.device.driver? = some d) {operation : FlashOperation}
    {ended : Driver → Bench → Prop}
    (h : operation.run.Ensures d s.bench (fun _ => ended) fun _ => ended) :
    ∃ d', (s.step (.flash operation)).2.device.driver? = some d' ∧
      ended d' (s.step (.flash operation)).2.bench := by
  rw [step_flash_eq found]
  exact ⟨_, Device.driver?_withDriver found _, h.after⟩

/-- One operation is enough if it makes the driver ready. -/
theorem Returns.of_ensures (operation : FlashOperation) (found : s.device.driver? = some d)
    (h : operation.run.Ensures d s.bench (fun _ d' _ => d'.state = .ready) fun _ _ _ => False) :
    s.Returns := by
  obtain ⟨d', found', ready⟩ := step_flash_ensures found
    (h.mono (fun _ _ _ ready => ready) fun _ d' _ => (False.elim : _ → d'.state = .ready))
  exact .of_step (.of_ready found' ready)

/-- Nothing has to be waited for. -/
theorem returns_of_responsive (recognised : s.Recognised) (fitted : s.Fitted)
    (found : s.device.driver? = some d) {size : Nat}
    (listed : s.bench.chip.id.capacity? = some size) (fit : s.bench.chip.Fit d.options)
    (responsive : s.bench.chip.responsive = true) : s.Returns := by
  have identified (idle : d.state ≠ .erasing) : s.Returns := by
    have wired : d.Wired s.bench := ⟨fitted.needsQuad d found, recognised.genuine⟩
    have ended := (Driver.identify_succeeds fit responsive listed idle).ensures
      (wired.ensures_identify True)
    refine .of_ensures .identify found ((ensures_map _ _).mpr ?_)
    exact ended.mono (fun _ _ _ known => known.2.2.1) fun _ _ _ => id
  cases state : d.state with
  | ready => exact .of_ready found state
  | erasing =>
    refine .of_ensures .eraseProgress found ((ensures_map _ _).mpr ?_)
    exact Driver.ensures_eraseProgress_idle fit.sound responsive state
  | notReady | failed => exact identified (by simp [state])
  | reading | programming =>
    have rest := (recognised.driver d found).1
    rw [state] at rest
    exact rest.elim

/-- The busy time of a chip that is awake is waited out. -/
theorem returns_of_awake (recognised : s.Recognised) (fitted : s.Fitted)
    (found : s.device.driver? = some d) {size : Nat}
    (listed : s.bench.chip.id.capacity? = some size) (fit : s.bench.chip.Fit d.options)
    (awake : s.bench.chip.poweredDown = false) : s.Returns := by
  generalize reads : s.bench.chip.busyReads = n
  induction n generalizing s with
  | zero =>
    have idle := Chip.isBusy_eq_false_iff.mpr ⟨fit.sound.free, reads⟩
    exact returns_of_responsive recognised fitted found listed fit
      (Chip.responsive_iff.mpr ⟨awake, idle⟩)
  | succ n ih =>
    have read : FlashOperation.status.run.Ensures d s.bench
        (fun _ d' b' => d' = d ∧ (s.bench.chip.busyFor n).Alike b'.chip)
        fun _ d' b' => d' = d ∧ (s.bench.chip.busyFor n).Alike b'.chip := by
      refine (ensures_map _ _).mpr ((Driver.ensures_readStatus1_awake awake).mono ?_ ?_)
      · rintro _ _ _ ⟨-, same, chip⟩
        rw [reads] at chip
        exact ⟨same, chip⟩
      · exact fun _ _ _ faults => absurd fit.sound.noFaults faults
    obtain ⟨_, found', rfl, chip⟩ := step_flash_ensures found read
    refine .of_step (ih (recognised.step _) (fitted.step recognised _) found' ?_ ?_ ?_ ?_)
    · rw [chip.endures.id]
      exact listed
    · exact chip.fit ⟨fit.sound.later (s.bench.chip.endures_busyFor n), fit.unlocked,
        fit.programBusy⟩
    · obtain ⟨_, _, _, same, -⟩ := chip
      rw [same]
      exact awake
    · obtain ⟨_, _, _, same, -⟩ := chip
      rw [same]
      rfl

/-! ### Reachable states -/

theorem placed_step (placed : s.bench.chip.Placed) (a : Action) :
    (s.step a).2.bench.chip.Placed := by
  by_cases configured : ∃ setting, a = .configure setting
  · obtain ⟨setting, rfl⟩ := configured
    rw [chip_step_configure]
    cases setting with
    | protection field =>
      show field <<< 2 &&& Status1.blockProtect &&& Status1.blockProtect = _
      rw [UInt8.and_assoc, UInt8.and_self]
      rfl
    | _ => exact placed
  · exact (endures_step fun setting same => configured ⟨setting, same⟩).placed placed

/-- What is true in every state that a session gets into through its driver. -/
theorem Reachable.invariants {allowed : Setting → Prop} (h : s.Reachable allowed) :
    s.Recognised ∧ s.Fitted ∧ s.Wakeful ∧ s.bench.chip.Placed := by
  refine h.induct (I := fun s => s.Recognised ∧ s.Fitted ∧ s.Wakeful ∧ s.bench.chip.Placed)
    (fun id link compareBuffer options => ?_) fun s a through start => ?_
  · exact ⟨recognised_create .., fitted_create .., wakeful_create id link compareBuffer options,
      UInt8.zero_and⟩
  · obtain ⟨recognised, fitted, wakeful, placed⟩ := start
    exact ⟨recognised.step a, fitted.step recognised a, wakeful.step recognised through,
      placed_step placed a⟩

/-- With nothing wrong with the chip, a driver gets back to the ready state from wherever driver,
disk and settings have brought it, unless the chip sleeps and the driver does not hold its
identity. In that case it has no way back, nor has a new driver. -/
theorem returns_to_ready {s : Session} (reachable : s.Reachable fun _ => True) {d : Driver}
    (found : s.device.driver? = some d) {size : Nat}
    (listed : s.bench.chip.id.capacity? = some size) (noFaults : s.bench.chip.faults = .none)
    (free : s.bench.chip.stuckBusy = false) (unlocked : s.bench.chip.statusLocked = false)
    (patient : s.bench.chip.programBusy < d.options.maxPolls) :
    (s.bench.chip.poweredDown = false ∨ d.isIdentified = true → s.Returns) ∧
    (s.bench.chip.poweredDown = true → d.isIdentified = false →
      ∀ later, (∀ a ∈ later, a.Through fun _ => True) →
        ∀ d', (s.run later).device.driver? = some d' → d'.state ≠ .ready) := by
  obtain ⟨recognised, fitted, wakeful, placed⟩ := reachable.invariants
  refine ⟨fun wakes => ?_, fun asleep unidentified later through d' found' ready => ?_⟩
  · cases asleep : s.bench.chip.poweredDown with
    | false =>
      exact returns_of_awake recognised fitted found listed
        ⟨⟨noFaults, free, placed⟩, unlocked, patient⟩ asleep
    | true =>
      have identified := wakes.resolve_left (by simp [asleep])
      refine Returns.of_ensures .releasePowerDown found ((ensures_map _ _).mpr ?_)
      exact Driver.ensures_leavePowerDown noFaults (wakeful d found asleep) identified
  · have lost : s.Lost := ⟨asleep, fun d'' found'' => by
      cases found.symm.trans found''
      exact ⟨asleep, wakeful d found asleep, unidentified⟩⟩
    nomatch ready.symm.trans ((lost.run through).driver d' found').notReady

/-- A new driver over a chip that still erases gets ready. -/
theorem rebuilt_over_erase_returns :
    ((create ⟨0xEF, 0x40, 0x14⟩ .direct .standard .standard).run
      [.flash .identify, .flash (.eraseSector 0), .rebuild .spi .standard]).Returns := by
  have reachable : ((create ⟨0xEF, 0x40, 0x14⟩ .direct .standard .standard).run
      [.flash .identify, .flash (.eraseSector 0), .rebuild .spi .standard]).Reachable
        fun _ => True :=
    ⟨_, _, _, _, _, by simp [Action.Through], rfl⟩
  have listed : (⟨0xEF, 0x40, 0x14⟩ : Identity).capacity? = some 0x100000 := rfl
  exact (returns_to_ready reachable rfl listed rfl rfl rfl (by decide)).1 (.inl rfl)

/-- A driver that has put its chip to sleep and then tries to identify it has lost it, with nothing
wrong with the chip. -/
theorem identified_asleep_never_returns :
    ∃ s d, s = (create ⟨0xEF, 0x40, 0x14⟩ .direct .standard .standard).run
        [.flash .identify, .flash .powerDown, .flash .identify] ∧
      s.device.driver? = some d ∧ s.bench.chip.id.capacity? = some 0x100000 ∧
      s.bench.chip.faults = .none ∧ s.bench.chip.stuckBusy = false ∧
      s.bench.chip.statusLocked = false ∧ s.bench.chip.programBusy < d.options.maxPolls ∧
      ∀ later, (∀ a ∈ later, a.Through fun _ => True) →
        ∀ d', (s.run later).device.driver? = some d' → d'.state ≠ .ready := by
  refine ⟨_, _, rfl, rfl, rfl, rfl, rfl, rfl, by decide, fun later through d' found ready => ?_⟩
  have lost : ((create ⟨0xEF, 0x40, 0x14⟩ .direct .standard .standard).run
      [.flash .identify, .flash .powerDown, .flash .identify]).Lost := by
    refine ⟨rfl, fun d found => ?_⟩
    cases found
    exact ⟨rfl, rfl, rfl⟩
  nomatch ready.symm.trans ((lost.run through).driver d' found).notReady

end Session

end SerialFlash
