import SerialFlash.Proofs.Reachable
import SerialFlash.Proofs.Transitions

/-!
The state machine of a driver in a session. Whatever is done with driver, disk and chip, the
driver comes out of a step as it was, moved by the operation that ran, given up by a disk, or
new. So between two steps it is at rest, and every way from one state to another is one of
the moves of a driver.
-/

namespace SerialFlash

open Procedure

/-! ### The driver of a device -/

namespace Device

variable {device : Device} {d d' : Driver}

theorem driver?_withDriver (found : device.driver? = some d) (d' : Driver) :
    (device.withDriver d').driver? = some d' := by
  cases device with
  | gone => contradiction
  | bare | disk | shared => rfl

theorem withDriver_self (found : device.driver? = some d) : device.withDriver d = device := by
  cases device with
  | gone => contradiction
  | bare | disk | shared => cases found; rfl

theorem driver?_of_disk? {disk : Disk} (found : device.disk? = some disk) :
    device.driver? = some disk.flash := by
  cases device with
  | bare | gone => contradiction
  | disk | shared => cases found; rfl

theorem driver?_share (device : Device) : device.share.driver? = device.driver? := by
  cases device <;> rfl

theorem driver?_unwrap (device : Device) : device.unwrap.driver? = device.driver? := by
  cases device <;> rfl

end Device

/-- An operation of a disk on any bench. -/
theorem DiskOperation.survives_run (operation : DiskOperation) (d : Disk) (b : Bench) :
    d.Survives ((operation.run.run d).run b).1.2 :=
  (ensures_liftM_state operation.run).mp ((operation.always_run d).ensures b)

theorem DiskOperation.survives_runInTurn (first second : DiskOperation) (d : Disk) (b : Bench) :
    d.Survives (((first.runInTurn second).run d).run b).1.2 := by
  rw [run_runInTurn, Script.run_bind, Script.run_bind]
  exact (first.survives_run d b).trans (second.survives_run _ _)

namespace Action

/-- The action runs on the disk. -/
def OnDisk : Action → Prop
  | disk _ | join _ _ => True
  | _ => False

end Action

namespace Session

variable {s : Session} {a : Action} {α : Type}

/-- How the driver in use comes out of a step with that outcome. -/
inductive Drives (a : Action) (outcome : Outcome) : Option Driver → Driver → Prop
  | keep {d} : Drives a outcome (some d) d
  | move {d d' operation r} (action : a = .flash operation) (result : outcome = .flash r)
      (moves : operation.Moves d r d') : Drives a outcome (some d) d'
  | giveUp {d : Driver} (onDisk : a.OnDisk) (ready : d.state = .ready) :
      Drives a outcome (some d) { d with state := .failed }
  | renew {before} {link : Link} {options compareBuffer} (action : a = .rebuild link options) :
      Drives a outcome before (.create options compareBuffer link.needsQuad)

theorem moves_run (operation : FlashOperation) {d : Driver} (rest : d.state.AtRest) (b : Bench) :
    operation.Moves d ((operation.run.script d).run b).1.1
      ((operation.run.script d).run b).1.2 := by
  have moved := (operation.always_run rest).ensures b
  unfold Ensures at moved
  split at moved <;> next run => rwa [run]

/-- What runs on the disk keeps the driver in use, or gives it up. -/
theorem driver_onDisk {op : StateT Disk Script α} (wrap : α → Outcome)
    (survives : ∀ d : Disk, d.Survives ((op.run d).run s.bench).1.2) {d : Driver}
    (found : s.device.driver? = some d) :
    ∃ d', (s.onDisk op wrap).2.device.driver? = some d' ∧
      (d' = d ∨ d.state = .ready ∧ d' = { d with state := .failed }) := by
  simp only [Session.onDisk]
  cases disk : s.device.disk? with
  | none => exact ⟨d, found, .inl rfl⟩
  | some disk' =>
    cases (Device.driver?_of_disk? disk).symm.trans found
    have after := Device.driver?_of_disk?
      (Device.disk?_withDisk disk ((op.run disk').run s.bench).1.2)
    refine ⟨_, after, ?_⟩
    rcases survives disk' with same | ⟨ready, same⟩ <;> rw [same]
    · exact .inl rfl
    · exact .inr ⟨ready, rfl⟩

theorem drives_onDisk {op : StateT Disk Script α} {wrap : α → Outcome} {outcome : Outcome}
    (onDisk : a.OnDisk) (survives : ∀ d : Disk, d.Survives ((op.run d).run s.bench).1.2)
    {d' : Driver} (found : (s.onDisk op wrap).2.device.driver? = some d') :
    Drives a outcome s.device.driver? d' := by
  cases driver : s.device.driver? with
  | none =>
    have none : s.device.disk? = none := by
      cases disk : s.device.disk? with
      | none => rfl
      | some d => rw [Device.driver?_of_disk? disk] at driver; contradiction
    simp only [Session.onDisk, none, driver] at found
    contradiction
  | some d =>
    obtain ⟨d'', after, same⟩ := driver_onDisk wrap survives driver
    cases after.symm.trans found
    rcases same with rfl | ⟨ready, rfl⟩
    · exact .keep
    · exact .giveUp onDisk ready

/-- What a step may do to the driver in use. -/
theorem drives_step (rest : ∀ d, s.device.driver? = some d → d.state.AtRest) {d' : Driver}
    (found : (s.step a).2.device.driver? = some d') :
    Drives a (s.step a).1 s.device.driver? d' := by
  cases a with
  | flash operation =>
    cases driver : s.device.driver? with
    | none =>
      simp only [Session.step, driver] at found
      cases found
    | some d =>
      rw [step_flash_eq driver] at found ⊢
      rw [Device.driver?_withDriver driver] at found
      cases found
      exact .move rfl rfl (moves_run operation (rest d driver) s.bench)
  | disk operation =>
    exact drives_onDisk (a := .disk operation) trivial (fun d => operation.survives_run d _) found
  | join first second =>
    exact drives_onDisk (a := .join first second) trivial
      (fun d => first.survives_runInTurn second d _) found
  | intoDisk format =>
    simp only [Session.step] at found
    split at found
    · next driver device =>
      rw [device]
      split at found
      · next d created =>
        obtain rfl : d = ⟨driver, format⟩ := by
          unfold Disk.create at created
          split at created <;> cases created
          rfl
        cases found
        exact .keep
      · contradiction
    · next device => rw [device] at found; contradiction
    · rw [found]; exact .keep
  | share =>
    rw [← Device.driver?_share, show s.device.share.driver? = some d' from found]
    exact .keep
  | unwrap =>
    rw [← Device.driver?_unwrap, show s.device.unwrap.driver? = some d' from found]
    exact .keep
  | rebuild link options =>
    cases found
    exact .renew rfl
  | request r =>
    obtain ⟨compareBuffer, device, b⟩ := s
    cases device with
    | gone => contradiction
    | bare | disk | shared => cases found; exact .keep
  | configure | frame | spi | wait =>
    have same : s.device.driver? = some d' := found
    rw [same]
    exact .keep

theorem Drives.atRest {outcome : Outcome} {before : Option Driver} {d' : Driver}
    (h : Drives a outcome before d') (rest : ∀ d, before = some d → d.state.AtRest) :
    d'.state.AtRest := by
  cases h with
  | keep => exact rest _ rfl
  | giveUp => trivial
  | renew => trivial
  | move _ _ moves =>
    have start := rest _ rfl
    cases moves with
    | keep | fail | refuse | unheard => exact start
    | unfit =>
      show DriverState.AtRest (if _ then _ else _)
      split <;> trivial
    | _ => trivial

/-- Between two actions the driver is at rest. -/
theorem atRest_run (rest : ∀ d, s.device.driver? = some d → d.state.AtRest)
    (actions : List Action) {d : Driver} (found : (s.run actions).device.driver? = some d) :
    d.state.AtRest :=
  run_preserves (I := fun s => ∀ d, s.device.driver? = some d → d.state.AtRest)
    (fun _ _ _ rest _ found => (drives_step rest found).atRest rest) rest d found

theorem atRest_create (id : Identity) (link : Link) (compareBuffer : CompareBuffer)
    (options : DriverOptions) {d : Driver}
    (found : (create id link compareBuffer options).device.driver? = some d) :
    d.state.AtRest := by
  cases found
  trivial

end Session

/-! ### States -/

/-- The ways from one state to another that an operation with that result may take. -/
structure FlashOperation.Transition (operation : FlashOperation) (state : DriverState)
    (r : Except (DriverError BusError) FlashValue) (state' : DriverState) : Prop where
  atRest : state.AtRest ∧ state'.AtRest
  /-- A timeout gives the chip up. -/
  timeout : ∀ e, r = .error e → e.cause = .timeout → state' = .failed
  /-- Nothing else does. -/
  failed : state ≠ .failed → state' = .failed → ∃ e, r = .error e ∧ e.cause = .timeout
  recovered : state = .failed → state' ≠ .failed → operation = .identify
  woken : state = .notReady → state' ≠ .notReady →
    operation = .identify ∧ (∃ layout, r = .ok (.layout layout)) ∧ state' = .ready ∨
      operation = .identify ∧ r = .error .timeout ∧ state' = .failed ∨
      operation = .releasePowerDown ∧ r = .ok .nothing ∧ state' = .ready
  begun : state ≠ .erasing → state' = .erasing → operation.Begins ∧ r = .ok .nothing
  ended : state = .erasing → state' ≠ .erasing → operation.Asks
  refused : state = .erasing → operation = .identify → r = .error (.busy .erasing)
  asleep : state = .ready → state' = .notReady →
    operation = .powerDown ∧ r = .ok .nothing ∨ operation = .identify ∧ ∃ e, r = .error e
  identified : operation = .identify → (∃ v, r = .ok v) → state' = .ready

theorem FlashOperation.Moves.transition {operation : FlashOperation} {d d' : Driver}
    {r : Except (DriverError BusError) FlashValue} (h : operation.Moves d r d')
    (rest : d.state.AtRest) : operation.Transition d.state r d'.state := by
  cases h with
  | keep commits =>
    have other : operation ≠ .identify := by rintro rfl; exact commits trivial
    constructor <;> simp_all
  | fail other cause => constructor <;> simp_all
  | giveUp other ready cause => constructor <;> simp_all [DriverState.AtRest]
  | begin begins ready =>
    constructor <;> simp_all [DriverState.AtRest]
    rintro rfl
    exact begins
  | finish asks erasing cause =>
    have other : operation ≠ .identify := by rintro rfl; exact asks
    constructor <;> simp_all [DriverState.AtRest]
  | expire erasing => constructor <;> simp_all [DriverState.AtRest, DriverError.cause, Asks]
  | sleep ready => constructor <;> simp_all [DriverState.AtRest]
  | wake asleep identified => constructor <;> simp_all [DriverState.AtRest]
  | refuse erasing => constructor <;> simp_all [DriverError.cause]
  | unheard idle => constructor <;> simp_all [DriverError.cause]
  | unlisted idle unlisted => constructor <;> simp_all [DriverState.AtRest, DriverError.cause]
  | @unfit _ _ _ e idle listed timeout =>
    by_cases cause : e.cause = .timeout
    · obtain rfl := timeout cause
      constructor <;> simp_all [DriverState.AtRest]
    · constructor <;> simp_all [DriverState.AtRest]
  | identified idle listed => constructor <;> simp_all [DriverState.AtRest]

namespace Session

/-- Whatever has been done before, an operation of the driver takes it from state to state only
in the ways of the state machine, and an operation of a disk starts from a ready driver and
leaves it ready or failed, or leaves the state alone. -/
theorem driver_state_machine (id : Identity) (link : Link) (compareBuffer : CompareBuffer)
    (options : DriverOptions) (actions : List Action) {s : Session}
    (reached : s = (create id link compareBuffer options).run actions) {d : Driver}
    (found : s.device.driver? = some d) :
    (∀ operation, ∃ r s' d', s.step (.flash operation) = (.flash r, s') ∧
      s'.device.driver? = some d' ∧ operation.Transition d.state r d'.state) ∧
    ∀ a : Action, a.OnDisk → ∃ d', (s.step a).2.device.driver? = some d' ∧
      (d.state = .ready → d'.state = .ready ∨ d'.state = .failed) ∧
      (d.state ≠ .ready → d'.state = d.state) := by
  have rest : d.state.AtRest := by
    subst reached
    exact atRest_run (fun _ => atRest_create id link compareBuffer options) actions found
  refine ⟨fun operation => ?_, fun a onDisk => ?_⟩
  · exact ⟨_, _, _, step_flash_eq found operation, Device.driver?_withDriver found _,
      (moves_run operation rest s.bench).transition rest⟩
  · have kept : ∃ d', (s.step a).2.device.driver? = some d' ∧
        (d' = d ∨ d.state = .ready ∧ d' = { d with state := .failed }) := by
      cases a with
      | disk operation => exact driver_onDisk _ (fun d => operation.survives_run d _) found
      | join first second =>
        exact driver_onDisk _ (fun d => first.survives_runInTurn second d _) found
      | _ => exact onDisk.elim
    obtain ⟨d', after, same⟩ := kept
    refine ⟨d', after, ?_⟩
    rcases same with rfl | ⟨ready, rfl⟩
    · exact ⟨.inl, fun _ => rfl⟩
    · exact ⟨fun _ => .inr rfl, fun unready => absurd ready unready⟩

/-- While an erase runs on a small device, it cannot be identified anew. -/
theorem identify_refused_while_erasing :
    ∃ r s', ((create ⟨0xEF, 0x40, 0x14⟩ .direct .standard .standard).run
        [.flash .identify, .flash (.eraseSector 0)]).step (.flash .identify) = (.flash r, s') ∧
      r = .error (.busy .erasing) := by
  obtain ⟨d, found, erasing⟩ : ∃ d, ((create ⟨0xEF, 0x40, 0x14⟩ .direct .standard .standard).run
      [.flash .identify, .flash (.eraseSector 0)]).device.driver? = some d ∧
      d.state = .erasing := ⟨_, rfl, rfl⟩
  obtain ⟨r, s', d', step, -, transition⟩ :=
    (driver_state_machine ⟨0xEF, 0x40, 0x14⟩ .direct .standard .standard
      [.flash .identify, .flash (.eraseSector 0)] rfl found).1 .identify
  exact ⟨r, s', step, transition.refused erasing rfl⟩

end Session

end SerialFlash
