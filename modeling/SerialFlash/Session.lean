import SerialFlash.Operation
import SerialFlash.Setting

/-!
A session on one chip. The device in use is a driver, or a disk around it, or a
disk that several tasks share; a disk that could not be made takes its driver
with it, while the bench stays. Actions change the owner, run operations, set the
chip up, or go to the chip past the driver.
-/

namespace SerialFlash

inductive Device where
  | bare (driver : Driver)
  | disk (d : Disk)
  | shared (d : Disk)
  | gone
  deriving DecidableEq

namespace Device

def driver? : Device → Option Driver
  | bare driver => some driver
  | disk d => some d.flash
  | shared d => some d.flash
  | gone => none

/-- The same device around another state of its driver. -/
def withDriver : Device → Driver → Device
  | bare _, driver => bare driver
  | disk d, driver => disk { d with flash := driver }
  | shared d, driver => shared { d with flash := driver }
  | gone, _ => gone

def disk? : Device → Option Disk
  | disk d => some d
  | shared d => some d
  | _ => none

/-- The same device around another state of its disk. -/
def withDisk : Device → Disk → Device
  | disk _, d => disk d
  | shared _, d => shared d
  | device, _ => device

def share : Device → Device
  | disk d => shared d
  | device => device

/-- Takes one layer off. -/
def unwrap : Device → Device
  | shared d => disk d
  | disk d => bare d.flash
  | device => device

end Device

inductive Action where
  | configure (setting : Setting)
  | flash (operation : FlashOperation)
  | disk (operation : DiskOperation)
  /-- Two operations started together on a shared disk. -/
  | join (first second : DiskOperation)
  /-- A request of one's own over the driver's link. -/
  | request (r : Request)
  | frame (f : Frame) (phase : DataPhase)
  | spi (operations : List SpiOperation)
  | wait (nanoseconds : Nat)
  | intoDisk (format : DiskFormat)
  | share
  | unwrap
  /-- A new driver on the same chip, over another link. -/
  | rebuild (link : Link) (options : DriverOptions)
  deriving DecidableEq

inductive Outcome where
  | done
  | flash (result : Except (DriverError BusError) FlashValue)
  | disk (outcome : DiskOutcome)
  | join (first second : DiskOutcome)
  | reply (result : Reply)
  | spi (result : Except BusError (List Bytes))
  | created (result : Except DiskError Unit)
  /-- There is no device any more. -/
  | noDevice
  /-- The device is a driver without a disk. -/
  | noDisk

structure Session where
  compareBuffer : CompareBuffer
  device : Device
  bench : Bench

namespace Session

/-- A factory-fresh chip with a driver that has not touched it. -/
def create (id : Identity) (link : Link) (compareBuffer : CompareBuffer)
    (options : DriverOptions) : Session where
  compareBuffer := compareBuffer
  device := .bare (.create options compareBuffer link.needsQuad)
  bench := .create link id

/-- Runs something on the disk of the device, if it has one. -/
def onDisk {α : Type} (s : Session) (op : StateT Disk Script α) (wrap : α → Outcome) :
    Outcome × Session :=
  let ⟨compareBuffer, device, bench⟩ := s
  match device.disk? with
  | some d =>
      let ((result, d), bench) := (op.run d).run bench
      (wrap result, ⟨compareBuffer, device.withDisk d, bench⟩)
  | none =>
      (if device.driver?.isSome then .noDisk else .noDevice, ⟨compareBuffer, device, bench⟩)

def step (s : Session) : Action → Outcome × Session
  | .configure setting =>
      let ⟨compareBuffer, device, ⟨link, chip, clock, traffic⟩⟩ := s
      (.done, ⟨compareBuffer, device, ⟨link, chip.configure setting, clock, traffic⟩⟩)
  | .flash operation =>
      let ⟨compareBuffer, device, bench⟩ := s
      match device.driver? with
      | some driver =>
          let ((result, driver), bench) := Driver.perform operation.run driver bench
          (.flash result, ⟨compareBuffer, device.withDriver driver, bench⟩)
      | none => (.noDevice, ⟨compareBuffer, device, bench⟩)
  | .disk operation => s.onDisk operation.run .disk
  | .join first second => s.onDisk (first.runInTurn second) fun (a, b) => .join a b
  | .request r =>
      let ⟨compareBuffer, device, bench⟩ := s
      match device with
      | .gone => (.noDevice, ⟨compareBuffer, device, bench⟩)
      | _ =>
          let (reply, bench) := bench.exchange r
          (.reply reply, ⟨compareBuffer, device, bench⟩)
  | .frame f phase =>
      let ⟨compareBuffer, device, bench⟩ := s
      let (reply, bench) := bench.exchangeFrame f phase
      (.reply reply, ⟨compareBuffer, device, bench⟩)
  | .spi operations =>
      let ⟨compareBuffer, device, bench⟩ := s
      let (reply, bench) := bench.exchangeSpi operations
      (.spi reply, ⟨compareBuffer, device, bench⟩)
  | .wait nanoseconds => (.done, { s with bench := s.bench.wait nanoseconds })
  | .intoDisk format =>
      match s.device with
      | .bare driver =>
          match Disk.create driver format with
          | .ok d => (.created (.ok ()), { s with device := .disk d })
          | .error e => (.created (.error e), { s with device := .gone })
      | .gone => (.noDevice, s)
      | _ => (.done, s)
  | .share => (.done, { s with device := s.device.share })
  | .unwrap => (.done, { s with device := s.device.unwrap })
  | .rebuild link options =>
      let driver := Driver.create options s.compareBuffer link.needsQuad
      (.done, { s with device := .bare driver, bench := { s.bench with link } })

/-- The session after a sequence of actions. -/
def run (s : Session) (actions : List Action) : Session :=
  actions.foldl (fun s a => (s.step a).2) s

theorem run_append (s : Session) (actions actions' : List Action) :
    s.run (actions ++ actions') = (s.run actions).run actions' :=
  List.foldl_append

/-- What every action of a sequence preserves, the sequence does. -/
theorem run_preserves {I : Session → Prop} {actions : List Action}
    (step : ∀ s, ∀ a ∈ actions, I s → I (s.step a).2) {s : Session} (h : I s) :
    I (s.run actions) := by
  induction actions generalizing s with
  | nil => exact h
  | cons a rest ih =>
    exact ih (fun s a mem => step s a (List.mem_cons_of_mem _ mem))
      (step s a List.mem_cons_self h)

/-- Forgets the logs of chip and wires. -/
def clearLogs (s : Session) : Session :=
  let ⟨compareBuffer, device, bench⟩ := s
  ⟨compareBuffer, device, bench.clearLogs⟩

end Session

end SerialFlash
