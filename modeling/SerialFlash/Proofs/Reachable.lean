import SerialFlash.Proofs.Identification
import SerialFlash.Session

/-!
The states that a session can get into. Whatever is done with driver and disk, and
however each operation ends, the driver stays attuned to the chip and at rest. The one
thing that can upset it is to go to the chip past the driver, so the actions allowed
here are all but those.
-/

namespace SerialFlash

open Procedure

/-! ### Disks -/

namespace Disk

variable {alone : Prop} {d : Disk} {b : Bench} {α : Type}

/-- A disk around a settled driver, whose format fits. -/
def Settled (alone : Prop) (d : Disk) (b : Bench) : Prop :=
  ∃ unit, d.flash.Settled alone unit b ∧ (d.format.resolve? unit.size).isSome

theorem keeps_onFlash {op : FlashM α} (keeps : ∀ unit, Keeps (Driver.Settled alone unit) op) :
    Keeps (Settled alone) (liftM (onFlash op) : DiskM _) := by
  intro d b ended
  obtain ⟨unit, settled, fits⟩ := ended
  rw [Driver.ensures_onFlash]
  exact (keeps unit d.flash b settled).mono (fun _ _ _ h => ⟨unit, h, fits⟩)
    fun _ _ _ h => ⟨unit, h, fits⟩

theorem keeps_guardReady {I : Disk → Bench → Prop} : Keeps I guardReady :=
  .bind .get fun _ => .ite (fun _ => .pure _) fun _ => .throw _

theorem keeps_guardSpan {I : Disk → Bench → Prop} (start length : Nat) :
    Keeps I (guardSpan start length) := by
  refine .bind .get fun d => ?_
  split
  · exact .pure _
  · exact .throw _

theorem keeps_guardWritable : Keeps (Settled alone) guardWritable := by
  refine .bind (keeps_onFlash fun unit => (Driver.settled_lasts alone unit).isProtected) fun r => ?_
  split
  · exact .pure _
  · exact .throw _
  · exact .throw _

theorem keeps_readFrom (completed count sector : Nat) :
    Keeps (Settled alone) (readFrom completed count sector) := by
  induction count generalizing completed sector with
  | zero => exact .pure _
  | succ count ih =>
    refine .bind .get fun d => ?_
    split
    · exact .throw _
    · refine .bind (keeps_onFlash fun unit => Driver.keeps_read _ _) fun r => ?_
      split
      · exact .throw _
      · exact .bind (ih _ _) fun _ => .pure _

theorem keeps_read (start length : Nat) : Keeps (Settled alone) (read start length) :=
  .bind keeps_guardReady fun _ => .bind (keeps_guardSpan start length) fun _ =>
    .bind (keeps_readFrom _ _ _) fun _ => .pure _

theorem keeps_writeFrom (completed count sector : Nat) (data : Bytes) :
    Keeps (Settled alone) (writeFrom completed count sector data) := by
  induction count generalizing completed sector data with
  | zero => exact .pure _
  | succ count ih =>
    refine .bind .get fun d => .bind
      (keeps_onFlash fun unit => Driver.keeps_replaceSector _ _ _) fun r => ?_
    split
    · exact .throw _
    · exact ih _ _ _

theorem keeps_write (start : Nat) (data : Bytes) : Keeps (Settled alone) (write start data) :=
  .bind keeps_guardReady fun _ => .bind (keeps_guardSpan start data.length) fun _ =>
    .bind keeps_guardWritable fun _ => .bind (keeps_writeFrom _ _ _ _) fun _ => .pure _

theorem keeps_trimFrom (completed count sector : Nat) :
    Keeps (Settled alone) (trimFrom completed count sector) := by
  induction count generalizing completed sector with
  | zero => exact .pure _
  | succ count ih =>
    refine .bind .get fun d => .bind
      (keeps_onFlash fun unit => Driver.keeps_eraseUnder _ _ _) fun r => ?_
    split
    · exact .throw _
    · exact ih _ _

theorem keeps_trim (start stop : Nat) : Keeps (Settled alone) (trim start stop) := by
  intro d b settled
  simp only [trim, ensures_bind, ensures_get, ensures_ite, ensures_throw]
  exact ⟨fun _ => settled, fun _ => (keeps_guardWritable d b settled).mono
    (fun _ d b settled => keeps_trimFrom _ _ _ d b settled) fun _ _ _ h => h⟩

theorem keeps_control (command : DiskCommand) : Keeps (Settled alone) (control command) := by
  refine .bind keeps_guardReady fun _ => ?_
  cases command with
  | sync => exact .pure _
  | trim start stop => exact .bind (keeps_trim start stop) fun _ => .pure _
  | _ => exact .bind .get fun _ => .pure _

theorem keeps_status : Keeps (Settled alone) (liftM status : DiskM DriveFlags) := by
  intro d b settled
  rw [status, ensures_liftM_bind, ensures_liftM_state]
  show Ensures (liftM (if d.flash.state = .ready then _ else _)) d b _ _
  split
  · rw [ensures_liftM_bind]
    refine (keeps_onFlash (fun unit => (Driver.settled_lasts alone unit).isProtected) d b
      settled).mono (fun r d b settled => ?_) fun _ _ _ h => h
    split <;> exact settled
  · exact settled

end Disk

theorem FlashOperation.keeps_run {alone : Prop} {unit : EraseUnit} (operation : FlashOperation) :
    Keeps (Driver.Settled alone unit) operation.run := by
  cases operation with
  | identify => exact .map _ Driver.keeps_identify
  | read offset length | norRead offset length => exact .map _ (Driver.keeps_read offset length)
  | program offset data | norWrite offset data => exact .map _ (Driver.keeps_program offset data)
  | eraseAll => exact .map _ (Driver.keeps_beginErase (i := .eraseChip) trivial)
  | eraseSector sector => exact .map _ (Driver.keeps_beginEraseSector sector)
  | eraseProgress => exact .map _ Driver.keeps_eraseProgress
  | finishErase => exact .map _ Driver.keeps_finishErase
  | verify sector => exact .map _ (Driver.keeps_checkErased sector)
  | status => exact .map _ (Driver.settled_lasts alone unit).readStatus1
  | isProtected => exact .map _ (Driver.settled_lasts alone unit).isProtected
  | uniqueId => exact .map _ Driver.keeps_uniqueId
  | powerDown => exact .map _ Driver.keeps_enterPowerDown
  | releasePowerDown => exact .map _ Driver.keeps_leavePowerDown
  | norErase start stop => exact .map _ (Driver.keeps_norErase start stop)

theorem DiskOperation.keeps_run {alone : Prop} (operation : DiskOperation) :
    Keeps (Disk.Settled alone) (liftM operation.run : DiskM DiskOutcome) := by
  cases operation with
  | status | startUp =>
    intro d b settled
    rw [run, map_eq_pure_bind, ensures_liftM_bind]
    exact Disk.keeps_status d b settled
  | geometry => exact fun _ _ settled => settled
  | read start length =>
    exact fun d b settled => (ensures_liftM_run _ _).mpr (Disk.keeps_read start length d b settled)
  | write start data =>
    exact fun d b settled => (ensures_liftM_run _ _).mpr (Disk.keeps_write start data d b settled)
  | control command =>
    exact fun d b settled => (ensures_liftM_run _ _).mpr (Disk.keeps_control command d b settled)

theorem DiskOperation.run_runInTurn (first second : DiskOperation) (d : Disk) :
    (first.runInTurn second).run d = (first.run.run d).bind fun p =>
      (second.run.run p.2).bind fun q => .done ((p.1, q.1), q.2) := rfl

/-! ### Sessions -/

/-- The chip may be set up in any allowed way, but is only reached through its driver. -/
def Action.Through (allowed : Setting → Prop) : Action → Prop
  | configure setting => allowed setting
  | request _ | frame _ _ | spi _ => False
  | _ => True

theorem Action.Through.weaken {allowed allowed' : Setting → Prop} {a : Action}
    (h : a.Through allowed) (weaker : ∀ setting, allowed setting → allowed' setting) :
    a.Through allowed' := by
  cases a with
  | configure setting => exact weaker setting h
  | _ => exact h

/-- The quad-enable bit is left to the driver. -/
def Setting.LeavesQuad : Setting → Prop
  | quadEnabled _ => False
  | _ => True

/-- The chip never stays busy for good. -/
def Setting.LeavesBusy : Setting → Prop
  | stuckBusy _ => False
  | _ => True

def Device.Settled (alone : Prop) : Device → Bench → Prop
  | bare driver, b => ∃ unit, driver.Settled alone unit b
  | disk d, b | shared d, b => d.Settled alone b
  | gone, _ => True

namespace Session

variable {alone : Prop} {allowed : Setting → Prop} {s : Session}

structure Settled (alone : Prop) (s : Session) : Prop where
  genuine : ∀ size, s.bench.chip.id.capacity? = some size → s.bench.chip.memory.size = size
  device : s.device.Settled alone s.bench

/-- The states that allowed actions lead to, from a fresh chip. -/
def Reachable (allowed : Setting → Prop) (s : Session) : Prop :=
  ∃ id link compareBuffer options actions, (∀ a ∈ actions, Action.Through allowed a) ∧
    s = (create id link compareBuffer options).run actions

/-- What every session begins with and every allowed action preserves is true of every reachable
state. -/
theorem Reachable.induct {I : Session → Prop} (h : s.Reachable allowed)
    (begins : ∀ id link compareBuffer options, I (create id link compareBuffer options))
    (step : ∀ s a, Action.Through allowed a → I s → I (s.step a).2) : I s := by
  obtain ⟨id, link, compareBuffer, options, actions, through, rfl⟩ := h
  exact run_preserves (fun s a mem => step s a (through a mem))
    (begins id link compareBuffer options)

end Session

theorem Chip.size_configure (c : Chip) (setting : Setting) :
    (c.configure setting).memory.size = c.memory.size := by
  cases setting with
  | store offset data => exact Memory.size_write _ _ _
  | storeAll value => exact Memory.size_fill _ _ _ _
  | _ => rfl

theorem Driver.Attuned.configure {alone : Prop} {unit : EraseUnit} {d : Driver} {b : Bench}
    (h : d.Attuned alone unit b) {setting : Setting} (leaves : alone → setting.LeavesQuad) :
    d.Attuned alone unit { b with chip := b.chip.configure setting } := by
  refine h.later rfl ?_ (b.chip.size_configure setting) (fun on quad => ?_) fun _ awake => ?_
  · cases setting <;> rfl
  · cases setting with
    | quadEnabled on' => exact (leaves on).elim
    | _ => exact quad
  · cases setting <;> exact awake

/-- A driver that has not touched its chip yet is settled on any bench. -/
theorem Driver.settled_create (alone : Prop) (options : DriverOptions)
    (compareBuffer : CompareBuffer) {b : Bench}
    (genuine : ∀ size, b.chip.id.capacity? = some size → b.chip.memory.size = size) :
    Settled alone options.eraseUnit (create options compareBuffer b.link.needsQuad) b :=
  ⟨⟨rfl, rfl, genuine, .inl rfl, False.elim⟩, trivial⟩

theorem Disk.settled_create {alone : Prop} {unit : EraseUnit} {driver : Driver} {b : Bench}
    (settled : driver.Settled alone unit b) {format : DiskFormat} {d : Disk}
    (created : Disk.create driver format = .ok d) : d.Settled alone b := by
  unfold create at created
  split at created
  · next size fits =>
    cases created
    rw [settled.attuned.sectorSize] at fits
    exact ⟨unit, settled, by rw [fits]; rfl⟩
  · contradiction

namespace Device

variable {alone : Prop} {device : Device} {b b' : Bench}

theorem disk?_withDisk {d : Disk} (found : device.disk? = some d)
    (d' : Disk) : (device.withDisk d').disk? = some d' := by
  cases device with
  | bare | gone => contradiction
  | disk | shared => rfl

theorem withDisk_self {d : Disk} (found : device.disk? = some d) :
    device.withDisk d = device := by
  cases device with
  | bare | gone => contradiction
  | disk d' | shared d' => cases found; rfl

theorem withDisk_withDisk (device : Device) (d d' : Disk) :
    (device.withDisk d).withDisk d' = device.withDisk d' := by
  cases device <;> rfl

/-- What a driver may rely on, its owner may. -/
theorem Settled.later (h : device.Settled alone b)
    (driver : ∀ unit d, Driver.Settled alone unit d b → Driver.Settled alone unit d b') :
    device.Settled alone b' := by
  cases device with
  | bare d =>
    obtain ⟨unit, settled⟩ := h
    exact ⟨unit, driver unit d settled⟩
  | disk d | shared d =>
    obtain ⟨unit, settled, fits⟩ := h
    exact ⟨unit, driver unit _ settled, fits⟩
  | gone => trivial

/-- The driver of a settled device is settled, and may be replaced by a settled one. -/
theorem Settled.driver (h : device.Settled alone b) {driver : Driver}
    (found : device.driver? = some driver) :
    ∃ unit, driver.Settled alone unit b ∧
      ∀ d b, d.Settled alone unit b → (device.withDriver d).Settled alone b := by
  cases device with
  | bare d =>
    cases found
    obtain ⟨unit, settled⟩ := h
    exact ⟨unit, settled, fun _ _ h => ⟨unit, h⟩⟩
  | disk d | shared d =>
    cases found
    obtain ⟨unit, settled, fits⟩ := h
    exact ⟨unit, settled, fun _ _ h => ⟨unit, h, fits⟩⟩
  | gone => contradiction

theorem Settled.disk (h : device.Settled alone b) {disk : Disk}
    (found : device.disk? = some disk) :
    disk.Settled alone b ∧ ∀ d b, d.Settled alone b → (device.withDisk d).Settled alone b := by
  cases device with
  | bare d | gone => contradiction
  | disk d | shared d =>
    cases found
    exact ⟨h, fun _ _ h => h⟩

theorem Settled.share (h : device.Settled alone b) : device.share.Settled alone b := by
  cases device <;> exact h

theorem Settled.unwrap (h : device.Settled alone b) : device.unwrap.Settled alone b := by
  cases device with
  | disk d =>
    obtain ⟨unit, settled, -⟩ := h
    exact ⟨unit, settled⟩
  | _ => exact h

end Device

namespace Session

variable {alone : Prop} {allowed : Setting → Prop} {s : Session} {α : Type}

theorem settled_create (alone : Prop) (id : Identity) (link : Link) (compareBuffer : CompareBuffer)
    (options : DriverOptions) : Settled alone (create id link compareBuffer options) := by
  have genuine : ∀ size, id.capacity? = some size → (Chip.factory id).memory.size = size := by
    intro size listed
    unfold Identity.capacity? at listed
    split at listed
    · simp [Chip.factory, listed]
    · contradiction
  exact ⟨genuine, options.eraseUnit, Driver.settled_create alone options compareBuffer
    (b := .create link id) genuine⟩

/-- What keeps the disk settled keeps the session settled. -/
theorem Settled.onDisk (h : s.Settled alone) {op : StateT Disk Script α} {wrap : α → Outcome}
    (keeps : Keeps (Disk.Settled alone) (liftM op : DiskM α)) :
    (s.onDisk op wrap).2.Settled alone := by
  obtain ⟨compareBuffer, device, b⟩ := s
  simp only [Session.onDisk]
  cases found : device.disk? with
  | none => exact h
  | some d =>
    obtain ⟨settled, replace⟩ := h.device.disk found
    have after := (ensures_liftM_state op).mp (keeps d b settled)
    have endures := endures_run (op.run d) b
    refine ⟨fun size listed => ?_, replace _ _ after⟩
    rw [endures.2.id] at listed
    exact endures.2.size.trans (h.genuine size listed)

theorem Settled.step (h : s.Settled alone) {a : Action} (through : a.Through allowed)
    (leaves : alone → ∀ setting, allowed setting → setting.LeavesQuad) :
    (s.step a).2.Settled alone := by
  cases a with
  | configure setting =>
    have quad on : setting.LeavesQuad := leaves on setting through
    obtain ⟨compareBuffer, device, b⟩ := s
    refine ⟨fun size listed => ?_, ?_⟩
    · exact (b.chip.size_configure setting).trans
        (h.genuine size (by cases setting <;> exact listed))
    · exact h.device.later fun _ _ settled => ⟨settled.attuned.configure quad, settled.atRest⟩
  | flash operation =>
    obtain ⟨compareBuffer, device, b⟩ := s
    simp only [Session.step]
    cases found : device.driver? with
    | none => exact h
    | some driver =>
      obtain ⟨unit, settled, replace⟩ := h.device.driver found
      have endures := endures_run (operation.run.script driver) b
      refine ⟨fun size listed => ?_, replace _ _ (operation.keeps_run.run settled)⟩
      exact endures.2.size.trans (h.genuine size (endures.2.id ▸ listed))
  | disk operation => exact h.onDisk operation.keeps_run
  | join first second =>
    refine h.onDisk fun d b settled => ?_
    rw [DiskOperation.runInTurn, ensures_liftM_bind]
    refine (first.keeps_run d b settled).mono (fun _ d b settled => ?_) fun _ _ _ h => h
    rw [ensures_liftM_bind]
    exact (second.keeps_run d b settled).mono (fun _ d b settled => settled) fun _ _ _ h => h
  | request | frame | spi => exact through.elim
  | wait nanoseconds =>
    exact ⟨h.genuine, h.device.later fun unit d => (Driver.settled_lasts alone unit).wait d _ _⟩
  | intoDisk format =>
    obtain ⟨compareBuffer, device, b⟩ := s
    cases device with
    | bare driver =>
      obtain ⟨unit, settled⟩ := h.device
      simp only [Session.step]
      split
      · next d created => exact ⟨h.genuine, Disk.settled_create settled created⟩
      · exact ⟨h.genuine, trivial⟩
    | _ => exact h
  | share => exact ⟨h.genuine, h.device.share⟩
  | unwrap => exact ⟨h.genuine, h.device.unwrap⟩
  | rebuild link options =>
    exact ⟨h.genuine, options.eraseUnit, Driver.settled_create alone options s.compareBuffer
      (b := { s.bench with link }) h.genuine⟩

/-- Every reachable state is settled. -/
theorem Reachable.settled (h : s.Reachable allowed)
    (leaves : alone → ∀ setting, allowed setting → setting.LeavesQuad) : s.Settled alone :=
  h.induct (settled_create alone) fun _ _ through settled => settled.step through leaves

/-! ### What a step does -/

theorem chip_step_configure (s : Session) (setting : Setting) :
    (s.step (.configure setting)).2.bench.chip = s.bench.chip.configure setting := rfl

theorem step_flash_eq {driver : Driver} (found : s.device.driver? = some driver)
    (operation : FlashOperation) :
    s.step (.flash operation) =
      (.flash ((operation.run.script driver).run s.bench).1.1,
        ⟨s.compareBuffer, s.device.withDriver ((operation.run.script driver).run s.bench).1.2,
          ((operation.run.script driver).run s.bench).2⟩) := by
  simp only [Session.step, found, Driver.perform]

/-! ### The busy time ends -/

theorem stuckBusy_onDisk {op : StateT Disk Script α} {wrap : α → Outcome} :
    (s.onDisk op wrap).2.bench.chip.stuckBusy = s.bench.chip.stuckBusy := by
  simp only [Session.onDisk]
  cases s.device.disk? with
  | none => rfl
  | some d => exact (endures_run (op.run d) s.bench).2.stuckBusy

theorem stuckBusy_step {a : Action} (through : a.Through allowed)
    (leaves : ∀ setting, allowed setting → setting.LeavesBusy) :
    (s.step a).2.bench.chip.stuckBusy = s.bench.chip.stuckBusy := by
  cases a with
  | configure setting =>
    have busy : setting.LeavesBusy := leaves setting through
    rw [chip_step_configure]
    cases setting with
    | stuckBusy on => exact busy.elim
    | _ => rfl
  | flash operation =>
    cases found : s.device.driver? with
    | none => simp only [Session.step, found]
    | some driver =>
      rw [step_flash_eq found]
      exact (endures_run (operation.run.script driver) s.bench).2.stuckBusy
  | disk operation => exact stuckBusy_onDisk
  | join first second => exact stuckBusy_onDisk
  | request | frame | spi => exact through.elim
  | intoDisk format =>
    simp only [Session.step]
    split
    · split <;> rfl
    · rfl
    · rfl
  | _ => rfl

/-- A chip that is never set up otherwise does not stay busy for good. -/
theorem Reachable.free (h : s.Reachable allowed)
    (leaves : ∀ setting, allowed setting → setting.LeavesBusy) :
    s.bench.chip.stuckBusy = false :=
  h.induct (I := fun s => s.bench.chip.stuckBusy = false) (fun _ _ _ _ => rfl)
    fun _ _ through free => (stuckBusy_step through leaves).trans free

/-! ### Two operations at once -/

theorem Reachable.step (h : s.Reachable allowed) {a : Action} (through : a.Through allowed) :
    (s.step a).2.Reachable allowed := by
  obtain ⟨id, link, compareBuffer, options, actions, all, rfl⟩ := h
  refine ⟨id, link, compareBuffer, options, actions ++ [a], ?_, ?_⟩
  · intro a' mem
    rcases List.mem_append.mp mem with mem | mem
    · exact all a' mem
    · rwa [List.mem_singleton.mp mem]
  · rw [Session.run, Session.run, List.foldl_append]
    rfl

/-- The effect of two operations that are started together. -/
theorem step_join (s : Session) (first second : DiskOperation) :
    (s.step (.join first second)).2 = ((s.step (.disk first)).2.step (.disk second)).2 := by
  cases found : s.device.disk? with
  | none => simp only [Session.step, Session.onDisk, found]
  | some d =>
    simp only [Session.step, Session.onDisk, found, DiskOperation.run_runInTurn, Script.run_bind,
      Script.run_done, Device.disk?_withDisk found, Device.withDisk_withDisk]

/-- Operations that are started together have the outcomes, and the effect, that they have
one behind the other. What is said of an operation of a disk is so said of these too. -/
theorem Reachable.join (h : s.Reachable allowed) {first second : DiskOperation}
    {a b : DiskOutcome} {s' : Session} (joined : s.step (.join first second) = (.join a b, s')) :
    ∃ s₁, s.step (.disk first) = (.disk a, s₁) ∧ s₁.Reachable allowed ∧
      s₁.step (.disk second) = (.disk b, s') := by
  suffices taken : ∃ s₁, s.step (.disk first) = (.disk a, s₁) ∧
      s₁.step (.disk second) = (.disk b, s') by
    obtain ⟨s₁, one, two⟩ := taken
    refine ⟨s₁, one, ?_, two⟩
    rw [← show (s.step (.disk first)).2 = s₁ by rw [one]]
    exact h.step trivial
  simp only [Session.step, Session.onDisk] at joined ⊢
  cases found : s.device.disk? with
  | none =>
    rw [found] at joined
    simp only at joined
    split at joined <;> nomatch joined
  | some d =>
    simp only [found, DiskOperation.run_runInTurn, Script.run_bind, Script.run_done] at joined
    cases joined
    refine ⟨_, rfl, ?_⟩
    simp only [Device.disk?_withDisk found, Device.withDisk_withDisk]

/-! ### What a step was -/

/-- An operation of the flash that has given back a value has run on the driver. -/
theorem step_flash_ok {operation : FlashOperation} {v : FlashValue} {s' : Session}
    (h : s.step (.flash operation) = (.flash (.ok v), s')) :
    ∃ driver driver' b', s.device.driver? = some driver ∧
      (operation.run.script driver).run s.bench = ((.ok v, driver'), b') ∧
      s' = ⟨s.compareBuffer, s.device.withDriver driver', b'⟩ := by
  cases found : s.device.driver? with
  | none => simp only [Session.step, found] at h; nomatch h
  | some driver =>
    rw [step_flash_eq found] at h
    rcases run : (operation.run.script driver).run s.bench with ⟨⟨result, driver'⟩, b'⟩
    rw [run] at h
    cases h
    exact ⟨driver, driver', b', rfl, run, rfl⟩

/-- An operation of the disk has run on the disk. -/
theorem onDisk_eq {op : DiskM α} {wrap : Except DiskError α → DiskOutcome} {d : Disk}
    (found : s.device.disk? = some d) :
    s.onDisk (wrap <$> ExceptT.run op) .disk =
      (.disk (wrap ((op.script d).run s.bench).1.1),
        ⟨s.compareBuffer, s.device.withDisk ((op.script d).run s.bench).1.2,
          ((op.script d).run s.bench).2⟩) := by
  have run : (wrap <$> ExceptT.run op : StateT Disk Script DiskOutcome).run d =
      (op.script d).bind fun p => .done (wrap p.1, p.2) := rfl
  simp only [Session.onDisk, found, run, Script.run_bind, Script.run_done]

theorem exists_disk_of_step {operation : DiskOperation} {outcome : DiskOutcome} {s' : Session}
    (h : s.step (.disk operation) = (.disk outcome, s')) : ∃ d, s.device.disk? = some d := by
  simp only [Session.step, Session.onDisk] at h
  cases found : s.device.disk? with
  | none =>
    rw [found] at h
    simp only at h
    split at h <;> nomatch h
  | some d => exact ⟨d, rfl⟩

end Session

end SerialFlash
