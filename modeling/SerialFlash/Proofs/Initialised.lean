import SerialFlash.Proofs.Recognition

/-!
What a successful identification gives. It needs nothing of the time before: a driver is always
meant for the link that it is on, and a disk fits the erase unit of its driver, whatever has been
done to the chip past them. So after an identification everything that the driver believes of
the chip is true, the driver is ready and the chip is idle. Settings of the chip, time, and a
change of the owner leave it at that.
-/

namespace SerialFlash

open Procedure

/-- What a driver is made with it keeps. -/
theorem FlashOperation.Moves.made {operation : FlashOperation} {d d' : Driver}
    {r : Except (DriverError BusError) FlashValue} (h : operation.Moves d r d') :
    d'.options = d.options ∧ d'.needsQuad = d.needsQuad := by
  cases h <;> exact ⟨rfl, rfl⟩

/-- The layout knows the erase unit, if nothing else. -/
theorem Driver.Recognises.sectorSize {d : Driver} {b : Bench} (h : d.Recognises b) :
    d.layout.sectorSize = d.options.eraseUnit.size := by
  rcases h.layout with unknown | ⟨size, -, tile⟩
  · rw [unknown]; rfl
  · rw [tile]; rfl

theorem Disk.Survives.made {d d' : Disk} (h : d.Survives d') :
    d'.format = d.format ∧ d'.flash.options = d.flash.options := by
  rcases h with rfl | ⟨-, rfl⟩ <;> exact ⟨rfl, rfl⟩

theorem Device.disk?_of_withDriver {device : Device} {driver : Driver} {d' : Disk}
    (found : (device.withDriver driver).disk? = some d') :
    ∃ d, device.disk? = some d ∧ d' = { d with flash := driver } := by
  cases device with
  | bare | gone => contradiction
  | disk d | shared d => cases found; exact ⟨d, rfl, rfl⟩

/-- Sets the chip up, lets time pass, or changes the owner of the driver. -/
def Action.SetsUp : Action → Prop
  | configure setting => setting.LeavesQuad
  | wait _ | intoDisk _ | share | unwrap => True
  | _ => False

/-! ### Links -/

namespace Session

variable {s s' : Session} {a : Action} {α : Type}

theorem link_onDisk (op : StateT Disk Script α) (wrap : α → Outcome) :
    (s.onDisk op wrap).2.bench.link = s.bench.link := by
  simp only [Session.onDisk]
  cases s.device.disk? with
  | none => rfl
  | some d => exact (endures_run (op.run d) s.bench).1

/-- Only a new driver comes with another link. -/
theorem link_step (other : ∀ link options, a ≠ .rebuild link options) :
    (s.step a).2.bench.link = s.bench.link := by
  cases a with
  | rebuild link options => exact absurd rfl (other link options)
  | flash operation =>
    cases found : s.device.driver? with
    | none => simp only [Session.step, found]
    | some driver =>
      rw [step_flash_eq found]
      exact (endures_run (operation.run.script driver) s.bench).1
  | disk operation => exact link_onDisk _ _
  | join first second => exact link_onDisk _ _
  | request r =>
    obtain ⟨compareBuffer, device, b⟩ := s
    cases device <;> rfl
  | intoDisk format =>
    simp only [Session.step]
    split
    · split <;> rfl
    · rfl
    · rfl
  | configure | frame | spi | wait | share | unwrap => rfl

/-! ### Disks -/

theorem disk_onDisk {op : StateT Disk Script α} {wrap : α → Outcome}
    (survives : ∀ d : Disk, d.Survives ((op.run d).run s.bench).1.2) {d' : Disk}
    (found : (s.onDisk op wrap).2.device.disk? = some d') :
    ∃ d, s.device.disk? = some d ∧ d'.format = d.format ∧ d'.flash.options = d.flash.options := by
  simp only [Session.onDisk] at found
  cases before : s.device.disk? with
  | none =>
    simp only [before] at found
    contradiction
  | some d =>
    simp only [before] at found
    cases (Device.disk?_withDisk before _).symm.trans found
    exact ⟨d, rfl, (survives d).made⟩

/-- A disk is made around the driver in use, or it is the one before with its format, around a
driver with the same options. -/
theorem disk_step (rest : ∀ d, s.device.driver? = some d → d.state.AtRest) {d' : Disk}
    (found : (s.step a).2.device.disk? = some d') :
    (∃ d, s.device.disk? = some d ∧ d'.format = d.format ∧
        d'.flash.options = d.flash.options) ∨
      ∃ driver, s.device = .bare driver ∧ Disk.create driver d'.format = .ok d' := by
  have kept (same : s.device.disk? = some d') : ∃ d, s.device.disk? = some d ∧
      d'.format = d.format ∧ d'.flash.options = d.flash.options := ⟨d', same, rfl, rfl⟩
  cases a with
  | flash operation =>
    cases driver : s.device.driver? with
    | none =>
      simp only [Session.step, driver] at found
      exact .inl (kept found)
    | some driver' =>
      rw [step_flash_eq driver] at found
      obtain ⟨d, before, rfl⟩ := Device.disk?_of_withDriver found
      cases (Device.driver?_of_disk? before).symm.trans driver
      exact .inl ⟨d, before, rfl, (moves_run operation (rest _ driver) s.bench).made.1⟩
  | disk operation => exact .inl (disk_onDisk (fun d => operation.survives_run d _) found)
  | join first second =>
    exact .inl (disk_onDisk (fun d => first.survives_runInTurn second d _) found)
  | intoDisk format =>
    simp only [Session.step] at found
    split at found
    · next driver device =>
      split at found
      · next d created =>
        cases found
        have same : d'.format = format := by
          unfold Disk.create at created
          split at created <;> cases created
          rfl
        exact .inr ⟨driver, device, same ▸ created⟩
      · contradiction
    · exact .inl (kept found)
    · exact .inl (kept found)
  | share =>
    refine .inl (kept ?_)
    rw [← found]
    show s.device.disk? = s.device.share.disk?
    cases s.device <;> rfl
  | unwrap =>
    obtain ⟨compareBuffer, device, b⟩ := s
    cases device with
    | shared d => exact .inl (kept found)
    | bare | disk | gone => contradiction
  | rebuild link options => contradiction
  | request r =>
    obtain ⟨compareBuffer, device, b⟩ := s
    cases device <;> exact .inl (kept found)
  | configure | frame | spi | wait => exact .inl (kept found)

/-- The driver in use is meant for its link, and the disk around it fits. -/
structure Fitted (s : Session) : Prop where
  needsQuad : ∀ d, s.device.driver? = some d → d.needsQuad = s.bench.link.needsQuad
  format : ∀ d, s.device.disk? = some d →
    (d.format.resolve? d.flash.options.eraseUnit.size).isSome

theorem fitted_create (id : Identity) (link : Link) (compareBuffer : CompareBuffer)
    (options : DriverOptions) : (create id link compareBuffer options).Fitted :=
  ⟨fun _ found => by cases found; rfl, nofun⟩

theorem Fitted.step (h : s.Fitted) (recognised : s.Recognised) (a : Action) :
    (s.step a).2.Fitted := by
  have rest d (found : s.device.driver? = some d) := (recognised.driver d found).1
  refine ⟨fun d' found => ?_, fun d' found => ?_⟩
  · by_cases renewed : ∃ link options, a = .rebuild link options
    · obtain ⟨link, options, rfl⟩ := renewed
      cases found
      rfl
    · rw [link_step fun link options same => renewed ⟨link, options, same⟩]
      have drives := drives_step rest found
      generalize before : s.device.driver? = driver at drives
      cases drives with
      | keep => exact h.needsQuad d' before
      | @giveUp d _ _ => exact h.needsQuad d before
      | renew action => exact absurd ⟨_, _, action⟩ renewed
      | move _ _ moves => exact moves.made.2.trans (h.needsQuad _ before)
  · rcases disk_step rest found with ⟨d, before, format, options⟩ | ⟨driver, before, created⟩
    · rw [format, options]
      exact h.format d before
    · have sectorSize := (recognised.driver driver (by rw [before]; rfl)).2.sectorSize
      unfold Disk.create at created
      split at created
      · next size fits =>
        have flash : driver = d'.flash := congrArg Disk.flash (Except.ok.inj created)
        rw [sectorSize, flash] at fits
        exact Option.isSome_of_eq_some fits
      · contradiction

/-- In every state that any actions lead to. -/
theorem recognised_fitted_run (h : s.Recognised ∧ s.Fitted) (actions : List Action) :
    (s.run actions).Recognised ∧ (s.run actions).Fitted :=
  run_preserves (I := fun s => s.Recognised ∧ s.Fitted)
    (fun _ a _ h => ⟨h.1.step a, h.2.step h.1 a⟩) h

/-! ### Identification -/

/-- Behind an identification the driver is settled and ready, and the chip is not at work. -/
structure Initialised (s : Session) : Prop where
  settled : s.Settled True
  ready : ∀ d, s.device.driver? = some d → d.state = .ready
  done : s.bench.chip.busyReads = 0

theorem initialised_of_identified (recognised : s.Recognised) (fitted : s.Fitted) {v : FlashValue}
    (identified : s.step (.flash .identify) = (.flash (.ok v), s')) : s'.Initialised := by
  obtain ⟨d, d', b', found, run, rfl⟩ := step_flash_ok identified
  have endures := endures_run (FlashOperation.identify.run.script d) s.bench
  rw [run] at endures
  obtain ⟨layout, -, run⟩ := run_of_map run
  have wired : d.Wired s.bench := ⟨fitted.needsQuad d found, recognised.genuine⟩
  obtain ⟨settled, options, ready, idle⟩ := (wired.ensures_identify True).of_run run
  refine ⟨⟨fun size listed => ?_, ?_⟩, fun d'' found'' => ?_,
    (Chip.isBusy_eq_false_iff.mp idle).2⟩
  · rw [endures.2.id] at listed
    exact endures.2.size.trans (recognised.genuine size listed)
  · have fits := fitted.format
    generalize s.device = device at found fits
    cases device with
    | gone => contradiction
    | bare driver => exact ⟨_, settled⟩
    | disk disk | shared disk =>
      cases found
      exact ⟨_, settled, fits disk rfl⟩
  · cases (Device.driver?_withDriver found d').symm.trans found''
    exact ready

/-! ### Setting up -/

theorem busyReads_step (setsUp : a.SetsUp) :
    (s.step a).2.bench.chip.busyReads = s.bench.chip.busyReads := by
  cases a with
  | configure setting =>
    rw [chip_step_configure]
    cases setting <;> rfl
  | intoDisk format =>
    simp only [Session.step]
    split
    · split <;> rfl
    · rfl
    · rfl
  | wait | share | unwrap => rfl
  | flash | disk | join | request | frame | spi | rebuild => exact setsUp.elim

theorem Initialised.step (h : s.Initialised) (setsUp : a.SetsUp) : (s.step a).2.Initialised := by
  have through : a.Through Setting.LeavesQuad := by
    cases a <;> first | exact setsUp | trivial
  refine ⟨h.settled.step through fun _ _ leaves => leaves, fun d' found => ?_,
    (busyReads_step setsUp).trans h.done⟩
  have drives := drives_step (fun d found => by rw [h.ready d found]; trivial) found
  generalize before : s.device.driver? = driver at drives
  cases drives with
  | keep => exact h.ready d' before
  | move action => subst action; exact setsUp.elim
  | giveUp onDisk => cases a <;> first | exact onDisk.elim | exact setsUp.elim
  | renew action => subst action; exact setsUp.elim

theorem Initialised.run (h : s.Initialised) {setUp : List Action}
    (setsUp : ∀ a ∈ setUp, a.SetsUp) : (s.run setUp).Initialised :=
  run_preserves (fun _ a mem initialised => initialised.step (setsUp a mem)) h

end Session

end SerialFlash
