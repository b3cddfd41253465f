import SerialFlash.Disk
import SerialFlash.Driver.Identify
import SerialFlash.Driver.Power
import SerialFlash.Nor

/-!
The operations of driver, NOR interface and disk as data, so that a sequence of
them can be spoken of. Each runs as the operation that it names.
-/

namespace SerialFlash

inductive FlashOperation where
  | identify
  | read (offset length : Nat)
  | program (offset : Nat) (data : Bytes)
  | eraseAll
  | eraseSector (sector : Nat)
  | eraseProgress
  | finishErase
  | verify (sector : Nat)
  | status
  | isProtected
  | uniqueId
  | powerDown
  | releasePowerDown
  | norRead (offset length : Nat)
  | norWrite (offset : Nat) (data : Bytes)
  | norErase (start stop : Nat)
  deriving DecidableEq, Repr

/-- What a driver operation gives back. -/
inductive FlashValue where
  | nothing
  | layout (l : Layout)
  | bytes (data : Bytes)
  | erase (progress : EraseProgress)
  | status (register : StatusRegister)
  | flag (on : Bool)
  | uniqueId (id : UInt64)
  deriving DecidableEq, Repr

namespace FlashOperation

/-- An operation that gives nothing back. -/
def silent (op : FlashM Unit) : FlashM FlashValue :=
  (fun _ => .nothing) <$> op

def run : FlashOperation → FlashM FlashValue
  | identify => .layout <$> Driver.identify
  | read offset length => .bytes <$> Driver.read offset length
  | program offset data => silent (Driver.program offset data)
  | eraseAll => silent Driver.beginEraseAll
  | eraseSector sector => silent (Driver.beginEraseSector sector)
  | eraseProgress => .erase <$> Driver.eraseProgress
  | finishErase => silent Driver.finishErase
  | verify sector => silent (Driver.checkErased sector)
  | status => .status <$> Driver.readStatus1
  | isProtected => .flag <$> Driver.isProtected
  | uniqueId => .uniqueId <$> Driver.uniqueId
  | powerDown => silent Driver.enterPowerDown
  | releasePowerDown => silent Driver.leavePowerDown
  | norRead offset length => .bytes <$> Nor.read offset length
  | norWrite offset data => silent (Nor.write offset data)
  | norErase start stop => silent (Nor.erase start stop)

end FlashOperation

inductive DiskOperation where
  | status
  /-- The flash is identified by its owner, so starting the disk only asks for
  its status. -/
  | startUp
  | geometry
  | read (start length : Nat)
  | write (start : Nat) (data : Bytes)
  | control (command : DiskCommand)
  deriving DecidableEq, Repr

/-- What a disk operation gives back. -/
inductive DiskOutcome where
  | status (flags : DriveFlags)
  | geometry (sectorSize sectorCount : Nat)
  | read (result : Except DiskError (Nat × Bytes))
  | write (result : Except DiskError Nat)
  | control (result : Except DiskError DiskAnswer)

namespace DiskOperation

def run : DiskOperation → StateT Disk Script DiskOutcome
  | status => .status <$> Disk.status
  | startUp => .status <$> Disk.status
  | geometry => do
      let d ← get
      return .geometry d.sectorSize d.sectorCount
  | read start length => .read <$> ExceptT.run (Disk.read start length)
  | write start data => .write <$> ExceptT.run (Disk.write start data)
  | control command => .control <$> ExceptT.run (Disk.control command)

/-- Two operations started together on a shared disk. Each holds the disk to its
end, so they take effect one after the other. -/
def runInTurn (a b : DiskOperation) : StateT Disk Script (DiskOutcome × DiskOutcome) := do
  let first ← a.run
  let second ← b.run
  return (first, second)

end DiskOperation

end SerialFlash
