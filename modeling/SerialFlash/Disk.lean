import SerialFlash.Disk.Format
import SerialFlash.Disk.Status
import SerialFlash.Driver.Erase
import SerialFlash.Driver.Transfer

/-!
A disk of sectors over a flash driver. Writing a sector erases and verifies
every flash sector under it and only then programs it; the next sector is not
touched before. The disk never identifies the chip itself.
-/

namespace SerialFlash

structure Disk where
  flash : Driver
  format : DiskFormat
  deriving DecidableEq

/-- An operation of a disk. -/
abbrev DiskM := Procedure Disk DiskError

/-- Control commands. -/
inductive DiskCommand where
  /-- Nothing is ever cached, so this only asks whether the disk is ready. -/
  | sync
  | sectorCount
  | sectorSize
  /-- The erase block in logical sectors. -/
  | blockSize
  /-- Erases sectors `start` to `stop - 1` without programming them. -/
  | trim (start stop : Nat)
  deriving DecidableEq, Repr

inductive DiskAnswer where
  | done
  | sectorCount (count : Nat)
  | sectorSize (size : Nat)
  | blockSize (size : Nat)
  deriving DecidableEq, Repr

namespace Disk

variable {α : Type}

/-! ### Geometry -/

/-- A disk over a driver, if the sector size fits its erase sectors. -/
def create (flash : Driver) (format : DiskFormat) : Except DiskError Disk :=
  match format.resolve? flash.layout.sectorSize with
  | some _ => .ok ⟨flash, format⟩
  | none => .error .invalidParameter

def sectorSize (d : Disk) : Nat :=
  (d.format.resolve? d.flash.layout.sectorSize).getD d.flash.layout.sectorSize

/-- Whole logical sectors on the device; none before it is identified. -/
def sectorCount (d : Disk) : Nat :=
  d.flash.layout.size / d.sectorSize

/-- Flash erase sectors under one logical sector. -/
def flashSectors (d : Disk) : Nat :=
  d.sectorSize / d.flash.layout.sectorSize

/-- Sectors in a transfer of `length` bytes that starts at a sector. -/
def span? (d : Disk) (start length : Nat) : Option Nat :=
  let size := d.sectorSize
  let count := length / size
  if length % size = 0 ∧ count < Word32.limit then
    match Word32.add? start count with
    | some stop => if stop ≤ d.sectorCount then some count else none
    | none => none
  else
    none

/-- Offset of the first byte of a sector. -/
def offsetOf? (d : Disk) (sector : Nat) : Option Nat :=
  Word32.mul? sector d.sectorSize

/-! ### Steps on the flash -/

/-- Runs an operation of the driver, good or bad. -/
def onFlash (op : FlashM α) : StateT Disk Script (Except (DriverError BusError) α) :=
  fun d => do
    let (result, flash) ← op.script d.flash
    return (result, { d with flash })

theorem script_onFlash {ε α : Type} (op : FlashM α) (d : Disk) :
    Procedure.script (liftM (onFlash op) : Procedure Disk ε _) d =
      (op.script d.flash).bind fun p => .done (.ok p.1, { d with flash := p.2 }) :=
  Script.bind_assoc _ _ _

/-- Erases `count` flash sectors from `sector` on, each to its end. -/
def eraseRun (verify : Bool) : Nat → Nat → FlashM Unit
  | 0, _ => return
  | count + 1, sector => do
      Driver.beginEraseSector sector
      Driver.finishErase
      if verify then
        Driver.checkErased sector
      eraseRun verify count (sector + 1)

/-- Erases the flash sectors under a logical sector and gives back where it
starts. -/
def eraseUnder (perSector sector : Nat) (verify : Bool) : FlashM Nat := do
  match Word32.mul? sector perSector with
  | none => throw .outOfBounds
  | some first =>
      eraseRun verify (Word32.satAdd first perSector - first) first
      Driver.sectorStart first

def replaceSector (perSector sector : Nat) (data : Bytes) : FlashM Unit := do
  let offset ← eraseUnder perSector sector true
  Driver.program offset data

def guardReady : DiskM Unit := do
  unless (← get).flash.state = .ready do
    throw .notReady

def guardSpan (start length : Nat) : DiskM Nat := do
  match (← get).span? start length with
  | some count => return count
  | none => throw .invalidParameter

/-- Reads the protection bits once. -/
def guardWritable : DiskM Unit := do
  match ← onFlash Driver.isProtected with
  | .ok false => return
  | .ok true => throw .writeProtected
  | .error _ => throw (.failed 0)

/-! ### Operations -/

/-- Drive status, without an error of its own: a flash that cannot answer is not
initialised. -/
def status : StateT Disk Script DriveFlags := do
  if (← get).flash.state = .ready then
    match ← onFlash Driver.isProtected with
    | .ok true => return .writeProtected
    | .ok false => return .ready
    | .error _ => return .notInitialised
  else
    return .notInitialised

/-- Reads `count` sectors from `sector` on, after `completed` others. -/
def readFrom (completed : Nat) : Nat → Nat → DiskM Bytes
  | 0, _ => return []
  | count + 1, sector => do
      let d ← get
      match d.offsetOf? sector with
      | none => throw .invalidParameter
      | some offset =>
          match ← onFlash (Driver.read offset d.sectorSize) with
          | .error _ => throw (.failed completed)
          | .ok bytes =>
              let rest ← readFrom (completed + 1) count (sector + 1)
              return bytes ++ rest

/-- Reads whole sectors; gives back their number and their bytes. -/
def read (start length : Nat) : DiskM (Nat × Bytes) := do
  guardReady
  let count ← guardSpan start length
  let bytes ← readFrom 0 count start
  return (count, bytes)

/-- Writes `count` sectors from `sector` on, after `completed` others. -/
def writeFrom (completed : Nat) : Nat → Nat → Bytes → DiskM Unit
  | 0, _, _ => return
  | count + 1, sector, data => do
      let d ← get
      match ← onFlash (replaceSector d.flashSectors sector (data.take d.sectorSize)) with
      | .error _ => throw (.failed completed)
      | .ok () => writeFrom (completed + 1) count (sector + 1) (data.drop d.sectorSize)

/-- Writes whole sectors; gives back their number. -/
def write (start : Nat) (data : Bytes) : DiskM Nat := do
  guardReady
  let count ← guardSpan start data.length
  guardWritable
  writeFrom 0 count start data
  return count

/-- Erases `count` sectors from `sector` on, after `completed` others. -/
def trimFrom (completed : Nat) : Nat → Nat → DiskM Unit
  | 0, _ => return
  | count + 1, sector => do
      let d ← get
      match ← onFlash (eraseUnder d.flashSectors sector false) with
      | .error _ => throw (.failed completed)
      | .ok _ => trimFrom (completed + 1) count (sector + 1)

/-- Erases sectors `start` to `stop - 1`. -/
def trim (start stop : Nat) : DiskM Unit := do
  if stop < start ∨ (← get).sectorCount < stop then
    throw .invalidParameter
  guardWritable
  trimFrom 0 (stop - start) start

/-- Carries out a control command. A logical sector is always whole erase units,
so the block size is one. -/
def control (command : DiskCommand) : DiskM DiskAnswer := do
  guardReady
  match command with
  | .sync => return .done
  | .sectorCount => return .sectorCount (← get).sectorCount
  | .sectorSize => return .sectorSize (← get).sectorSize
  | .blockSize => return .blockSize 1
  | .trim start stop =>
      trim start stop
      return .done

end Disk

end SerialFlash
