import SerialFlash.Proofs.Recognition

/-!
Deep power-down, and what a driver knows of it. Only the two power operations change the power
state of the chip, so a chip that sleeps has been put to sleep by its driver, or by one before
it, and the driver in use is not ready. A sleeping chip answers an identification with ones. A
driver that holds no identity is not told apart from one whose chip is missing and may not wake
it, so a sleeping chip that its driver has forgotten stays asleep, whatever is done with driver
and disk.
-/

namespace SerialFlash

open Procedure

/-! ### Operations of a driver -/

namespace Driver

variable {d : Driver} {b : Bench}

/-- Nothing is learnt from a sleeping chip. -/
theorem ensures_identify_asleep (asleep : b.chip.poweredDown = true) :
    identify.Ensures d b (fun _ _ _ => False) fun _ d' _ =>
      d' = d ∨ d'.state = .notReady ∧ d'.isIdentified = false := by
  have unresponsive : b.chip.responsive = false := by simp [Chip.responsive, asleep]
  simp only [identify, ensures_bind, ensures_get, ensures_ite, ensures_throw]
  refine ⟨fun _ => .inl trivial, fun _ => ?_⟩
  refine ensures_ask (i := .readId) trivial (fun _ _ _ _ => .inl rfl) fun b' _ _ => ?_
  rw [Chip.obey_readId, unresponsive, if_neg Bool.false_ne_true]
  exact .inr ⟨rfl, by simp [isIdentified, Layout.unknown]⟩

/-- The driver does not take a chip that it may wake for sleeping. -/
def Wakeful (d : Driver) (b : Bench) : Prop :=
  b.chip.poweredDown = true → d.state = .notReady

/-- The chip sleeps, and the driver holds no identity to wake it by. -/
structure Lost (d : Driver) (b : Bench) : Prop where
  asleep : b.chip.poweredDown = true
  notReady : d.state = .notReady
  unidentified : d.isIdentified = false

end Driver

namespace FlashOperation

variable {operation : FlashOperation} {d d' : Driver} {b : Bench}
  {r : Except (DriverError BusError) FlashValue}

/-- A driver that is not ready is only changed by an identification or a release. -/
theorem Moves.eq_of_notReady (h : operation.Moves d r d') (notReady : d.state = .notReady)
    (identify : operation ≠ .identify) (release : operation ≠ .releasePowerDown) : d' = d := by
  cases h with
  | keep | fail | refuse | unheard => rfl
  | giveUp _ state | begin _ state | finish _ state | expire state | sleep state =>
    nomatch state.symm.trans notReady
  | wake => exact absurd rfl release
  | unlisted | unfit | identified => exact absurd rfl identify

/-- All but the two power operations leave the power state of the chip alone. -/
theorem poweredDown_run (rest : d.state.AtRest) (sleep : operation ≠ .powerDown)
    (release : operation ≠ .releasePowerDown) :
    ((operation.run.script d).run b).2.chip.poweredDown = b.chip.poweredDown := by
  have kept (i : Instruction) (said : operation.Says i) : i.KeepsPower := by
    cases operation with
    | powerDown => exact absurd rfl sleep
    | releasePowerDown => exact absurd rfl release
    | _ => exact said
  exact ((operation.always_run rest).ensures_respects
    (I := fun b' => b'.chip.poweredDown = b.chip.poweredDown)
    (fun b' i said same => (b'.poweredDown_send_keeps (kept i said)).trans same)
    (fun _ _ same => same) rfl).after

/-- While the chip sleeps, only a release makes the driver ready. An identification does not, and
leaves no identity behind. -/
theorem stays_notReady (asleep : b.chip.poweredDown = true) (rest : d.state.AtRest)
    (notReady : d.state = .notReady) (release : operation ≠ .releasePowerDown) :
    ((operation.run.script d).run b).1.2.state = .notReady ∧
      (d.isIdentified = false → ((operation.run.script d).run b).1.2.isIdentified = false) := by
  by_cases identifies : operation = .identify
  · subst identifies
    have ended : (FlashValue.layout <$> Driver.identify).Ensures d b
        (fun _ d' _ => d'.state = .notReady ∧ (d.isIdentified = false → d'.isIdentified = false))
        fun _ d' _ => d'.state = .notReady ∧
          (d.isIdentified = false → d'.isIdentified = false) := by
      rw [ensures_map]
      refine (Driver.ensures_identify_asleep asleep).mono (fun _ _ _ => False.elim) ?_
      rintro _ _ _ (rfl | ⟨state, forgotten⟩)
      · exact ⟨notReady, id⟩
      · exact ⟨state, fun _ => forgotten⟩
    exact ended.after
  · rw [(Session.moves_run operation rest b).eq_of_notReady notReady identifies release]
    exact ⟨notReady, id⟩

theorem wakeful_powerDown (wakeful : d.Wakeful b) :
    FlashOperation.powerDown.run.Ensures d b (fun _ => Driver.Wakeful) fun _ => Driver.Wakeful := by
  simp only [run, silent, Driver.enterPowerDown, ensures_map, ensures_bind,
    Driver.ensures_guardReady, Driver.ensures_setState]
  refine ⟨fun ready => ?_, fun _ => wakeful⟩
  refine Driver.ensures_ask (i := .powerDown) trivial (fun b' _ _ chip asleep => ?_)
    fun _ _ _ _ => rfl
  obtain ⟨_, _, _, same, -⟩ := chip
  rw [same] at asleep
  exact wakeful asleep

theorem wakeful_releasePowerDown (wakeful : d.Wakeful b) :
    FlashOperation.releasePowerDown.run.Ensures d b (fun _ => Driver.Wakeful)
      fun _ => Driver.Wakeful := by
  simp only [run, silent, Driver.leavePowerDown, ensures_map, ensures_bind, ensures_get]
  split
  · simp only [ensures_bind]
    refine Driver.ensures_ask (i := .releasePowerDown) trivial (fun b' _ _ chip asleep => ?_)
      fun b' _ chip asleep => ?_
    · obtain ⟨_, _, _, same, -⟩ := chip
      rw [same] at asleep
      exact wakeful asleep
    · rw [Chip.obey_releasePowerDown] at chip
      obtain ⟨_, _, _, same, -⟩ := chip
      have asleep : b'.chip.poweredDown = true := asleep
      rw [same] at asleep
      contradiction
  · exact wakeful

/-- A driver is not taken by surprise by what it does itself. -/
theorem wakeful_run (operation : FlashOperation) (rest : d.state.AtRest) (wakeful : d.Wakeful b) :
    ((operation.run.script d).run b).1.2.Wakeful ((operation.run.script d).run b).2 := by
  by_cases sleep : operation = .powerDown
  · subst sleep
    exact (wakeful_powerDown wakeful).after
  by_cases release : operation = .releasePowerDown
  · subst release
    exact (wakeful_releasePowerDown wakeful).after
  intro asleep
  rw [poweredDown_run rest sleep release] at asleep
  exact (stays_notReady asleep rest (wakeful asleep) release).1

/-- The driver is asked in vain. -/
theorem lost_run (operation : FlashOperation) (lost : d.Lost b) :
    ((operation.run.script d).run b).1.2.Lost ((operation.run.script d).run b).2 := by
  have rest : d.state.AtRest := by rw [lost.notReady]; trivial
  by_cases sleep : operation = .powerDown
  · subst sleep
    have refused : FlashOperation.powerDown.run.Ensures d b (fun _ => Driver.Lost)
        fun _ => Driver.Lost := by
      simp only [run, silent, Driver.enterPowerDown, ensures_map, ensures_bind,
        Driver.ensures_guardReady]
      exact ⟨fun ready => by simp [lost.notReady] at ready, fun _ => lost⟩
    exact refused.after
  by_cases release : operation = .releasePowerDown
  · subst release
    have refused : FlashOperation.releasePowerDown.run.Ensures d b (fun _ => Driver.Lost)
        fun _ => Driver.Lost := by
      simp only [run, silent, Driver.leavePowerDown, ensures_map, ensures_bind, ensures_get,
        lost.unidentified, Bool.and_false, Bool.false_eq_true, if_false]
      exact lost
    exact refused.after
  have asleep := (poweredDown_run (b := b) rest sleep release).trans lost.asleep
  have kept := stays_notReady (b := b) lost.asleep rest lost.notReady release
  exact ⟨asleep, kept.1, kept.2 lost.unidentified⟩

end FlashOperation

/-! ### Sessions -/

/-- No operation of a disk touches the power state. -/
theorem DiskOperation.poweredDown_run (operation : DiskOperation) (d : Disk) (b : Bench) :
    ((operation.run.run d).run b).2.chip.poweredDown = b.chip.poweredDown :=
  (ensures_liftM_state operation.run).mp ((operation.always_run d).ensures_respects
    (I := fun b' => b'.chip.poweredDown = b.chip.poweredDown)
    (fun b' _ plain same => (b'.poweredDown_send_keeps plain.keepsPower).trans same)
    (fun _ _ same => same) rfl)

theorem DiskOperation.poweredDown_runInTurn (first second : DiskOperation) (d : Disk) (b : Bench) :
    (((first.runInTurn second).run d).run b).2.chip.poweredDown = b.chip.poweredDown := by
  rw [run_runInTurn, Script.run_bind, Script.run_bind]
  exact (second.poweredDown_run _ _).trans (first.poweredDown_run d b)

namespace Session

variable {allowed : Setting → Prop} {s : Session} {a : Action} {α : Type}

theorem poweredDown_onDisk {op : StateT Disk Script α} {wrap : α → Outcome}
    (keeps : ∀ d b, ((op.run d).run b).2.chip.poweredDown = b.chip.poweredDown) :
    (s.onDisk op wrap).2.bench.chip.poweredDown = s.bench.chip.poweredDown := by
  simp only [Session.onDisk]
  cases s.device.disk? with
  | none => rfl
  | some d => exact keeps d s.bench

/-- Only operations of the driver put the chip to sleep or wake it, unless someone goes past it. -/
theorem poweredDown_step (through : a.Through allowed)
    (other : ∀ operation, a ≠ .flash operation) :
    (s.step a).2.bench.chip.poweredDown = s.bench.chip.poweredDown := by
  cases a with
  | flash operation => exact absurd rfl (other operation)
  | configure setting =>
    rw [chip_step_configure]
    cases setting <;> rfl
  | disk operation => exact poweredDown_onDisk operation.poweredDown_run
  | join first second => exact poweredDown_onDisk (first.poweredDown_runInTurn second)
  | intoDisk format =>
    simp only [Session.step]
    split
    · split <;> rfl
    · rfl
    · rfl
  | wait | share | unwrap | rebuild => rfl
  | request | frame | spi => exact through.elim

/-- The driver in use knows when its chip may sleep. -/
def Wakeful (s : Session) : Prop :=
  ∀ d, s.device.driver? = some d → d.Wakeful s.bench

theorem wakeful_create (id : Identity) (link : Link) (compareBuffer : CompareBuffer)
    (options : DriverOptions) : (create id link compareBuffer options).Wakeful := by
  intro d found asleep
  nomatch asleep

theorem Wakeful.step (h : s.Wakeful) (recognised : s.Recognised) (through : a.Through allowed) :
    (s.step a).2.Wakeful := by
  intro d' found asleep
  have rest d (found : s.device.driver? = some d) := (recognised.driver d found).1
  by_cases onFlash : ∃ operation, a = .flash operation
  · obtain ⟨operation, rfl⟩ := onFlash
    cases before : s.device.driver? with
    | none =>
      simp only [Session.step, before] at found
      cases found
    | some d =>
      rw [step_flash_eq before] at found asleep
      cases (Device.driver?_withDriver before _).symm.trans found
      exact operation.wakeful_run (rest d before) (h d before) asleep
  · have other operation : a ≠ .flash operation := fun same => onFlash ⟨operation, same⟩
    rw [poweredDown_step through other] at asleep
    have drives := drives_step rest found
    generalize before : s.device.driver? = driver at drives
    cases drives with
    | keep => exact h d' before asleep
    | giveUp _ ready => cases ready.symm.trans (h _ before asleep)
    | renew => rfl
    | move action => exact absurd action (other _)

/-- Whatever driver is in use is lost. -/
structure Lost (s : Session) : Prop where
  asleep : s.bench.chip.poweredDown = true
  driver : ∀ d, s.device.driver? = some d → d.Lost s.bench

/-- A new driver does not find the chip either. -/
theorem Lost.step (h : s.Lost) (through : a.Through allowed) : (s.step a).2.Lost := by
  by_cases onFlash : ∃ operation, a = .flash operation
  · obtain ⟨operation, rfl⟩ := onFlash
    cases before : s.device.driver? with
    | none =>
      simp only [Session.step, before]
      exact h
    | some d =>
      have after := operation.lost_run (h.driver d before)
      rw [step_flash_eq before]
      refine ⟨after.asleep, fun d' found => ?_⟩
      cases (Device.driver?_withDriver before _).symm.trans found
      exact after
  · have other operation : a ≠ .flash operation := fun same => onFlash ⟨operation, same⟩
    have asleep := (poweredDown_step (s := s) through other).trans h.asleep
    refine ⟨asleep, fun d' found => ?_⟩
    have rest d (found : s.device.driver? = some d) : d.state.AtRest := by
      rw [(h.driver d found).notReady]
      trivial
    have drives := drives_step rest found
    generalize before : s.device.driver? = driver at drives
    cases drives with
    | keep => exact ⟨asleep, (h.driver d' before).notReady, (h.driver d' before).unidentified⟩
    | giveUp _ ready => cases ready.symm.trans (h.driver _ before).notReady
    | renew => exact ⟨asleep, rfl, rfl⟩
    | move action => exact absurd action (other _)

theorem Lost.run (h : s.Lost) {later : List Action} (through : ∀ a ∈ later, a.Through allowed) :
    (s.run later).Lost :=
  run_preserves (fun _ a mem lost => lost.step (through a mem)) h

end Session

end SerialFlash
