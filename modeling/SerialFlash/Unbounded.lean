import SerialFlash.Session

/-!
The operations as they would be if addresses and sector numbers were numbers without a bound: where
the driver refuses or clamps a sum or product that is no 32-bit word, these take it as it is. Every
guard is the plain comparison that it stands for. All else is the driver's own.
-/

namespace SerialFlash.Unbounded

open Driver

/-! ### Driver -/

/-- The run of `length` bytes from `offset` lies inside the device. -/
def covers (l : Layout) (offset length : Nat) : Bool :=
  offset + length ≤ l.size

def read (offset length : Nat) : FlashM Bytes := do
  guardReady
  unless covers (← get).layout offset length do
    throw .outOfBounds
  if length = 0 then
    return []
  setState .reading
  resting (ask (.readArray offset length))

/-- Cuts data at the page boundaries behind an address. -/
def splitPages (address : Nat) (data : Bytes) : List Piece :=
  if data.isEmpty then []
  else
    let piece := data.take (pageRoom address)
    ⟨address, piece⟩ :: splitPages (address + piece.length) (data.drop (pageRoom address))
termination_by data.length
decreasing_by
  have := pageRoom_pos address
  cases data with
  | nil => contradiction
  | cons b bs =>
    rw [List.length_drop, List.length_cons]
    omega

def program (offset : Nat) (data : Bytes) : FlashM Unit := do
  guardReady
  unless covers (← get).layout offset data.length do
    throw .outOfBounds
  setState .programming
  resting (programPieces 0 (splitPages offset data))

/-- Address of a sector of the device. -/
def sectorStart (sector : Nat) : FlashM Nat := do
  let l := (← get).layout
  if l.sectorCount ≤ sector then
    throw .outOfBounds
  return sector * l.sectorSize

def beginEraseSector (sector : Nat) : FlashM Unit := do
  guardReady
  let start ← sectorStart sector
  beginErase (.eraseSector (← get).options.eraseUnit start)

def checkFrom (erased : UInt8) (step : Nat) : Nat → Nat → FlashM Unit
  | 0, _ => return
  | chunks + 1, offset => do
      let reply ← ask (.readArray offset step)
      match reply.findIdx? (· != erased) with
      | some k => throw (.notErased (offset + k))
      | none => checkFrom erased step chunks (offset + step)

def checkRange (start length : Nat) : FlashM Unit := do
  let d ← get
  let step := d.compareBuffer.size
  checkFrom d.layout.erasedValue step ((length + step - 1) / step) start

def checkErased (sector : Nat) : FlashM Unit := do
  guardReady
  let start ← sectorStart sector
  setState .reading
  resting (do checkRange start (← get).layout.sectorSize)

/-! ### NOR interface -/

def eraseFrom : Nat → Nat → FlashM Unit
  | 0, _ => return
  | units + 1, offset => do
      beginErase (.eraseSector .sector4K offset)
      finishErase
      eraseFrom units (offset + Nor.eraseSize)

def norErase (start stop : Nat) : FlashM Unit := do
  if stop < start ∨ (← get).layout.size < stop then
    throw .outOfBounds
  unless start % Nor.eraseSize = 0 ∧ stop % Nor.eraseSize = 0 do
    throw .misaligned
  eraseFrom ((stop - start) / Nor.eraseSize) start

/-! ### Disk -/

def eraseRun (verify : Bool) : Nat → Nat → FlashM Unit
  | 0, _ => return
  | count + 1, sector => do
      beginEraseSector sector
      finishErase
      if verify then
        checkErased sector
      eraseRun verify count (sector + 1)

def eraseUnder (perSector sector : Nat) (verify : Bool) : FlashM Nat := do
  eraseRun verify perSector (sector * perSector)
  sectorStart (sector * perSector)

def replaceSector (perSector sector : Nat) (data : Bytes) : FlashM Unit := do
  let offset ← eraseUnder perSector sector true
  program offset data

/-- Sectors in a transfer of `length` bytes that starts at a sector. -/
def guardSpan (start length : Nat) : DiskM Nat := do
  let d ← get
  unless length % d.sectorSize = 0 ∧ start + length / d.sectorSize ≤ d.sectorCount do
    throw .invalidParameter
  return length / d.sectorSize

def readFrom (completed : Nat) : Nat → Nat → DiskM Bytes
  | 0, _ => return []
  | count + 1, sector => do
      let d ← get
      match ← Disk.onFlash (read (sector * d.sectorSize) d.sectorSize) with
      | .error _ => throw (.failed completed)
      | .ok bytes =>
          let rest ← readFrom (completed + 1) count (sector + 1)
          return bytes ++ rest

def readSectors (start length : Nat) : DiskM (Nat × Bytes) := do
  Disk.guardReady
  let count ← guardSpan start length
  let bytes ← readFrom 0 count start
  return (count, bytes)

def writeFrom (completed : Nat) : Nat → Nat → Bytes → DiskM Unit
  | 0, _, _ => return
  | count + 1, sector, data => do
      let d ← get
      match ← Disk.onFlash (replaceSector d.flashSectors sector (data.take d.sectorSize)) with
      | .error _ => throw (.failed completed)
      | .ok () => writeFrom (completed + 1) count (sector + 1) (data.drop d.sectorSize)

def writeSectors (start : Nat) (data : Bytes) : DiskM Nat := do
  Disk.guardReady
  let count ← guardSpan start data.length
  Disk.guardWritable
  writeFrom 0 count start data
  return count

def trimFrom (completed : Nat) : Nat → Nat → DiskM Unit
  | 0, _ => return
  | count + 1, sector => do
      let d ← get
      match ← Disk.onFlash (eraseUnder d.flashSectors sector false) with
      | .error _ => throw (.failed completed)
      | .ok _ => trimFrom (completed + 1) count (sector + 1)

def trim (start stop : Nat) : DiskM Unit := do
  if stop < start ∨ (← get).sectorCount < stop then
    throw .invalidParameter
  Disk.guardWritable
  trimFrom 0 (stop - start) start

def control (command : DiskCommand) : DiskM DiskAnswer := do
  match command with
  | .trim start stop =>
      Disk.guardReady
      trim start stop
      return .done
  | _ => Disk.control command

/-! ### Operations -/

open FlashOperation in
def flash : FlashOperation → FlashM FlashValue
  | .read offset length | .norRead offset length => .bytes <$> read offset length
  | .program offset data | .norWrite offset data => silent (program offset data)
  | .eraseSector sector => silent (beginEraseSector sector)
  | .verify sector => silent (checkErased sector)
  | .norErase start stop => silent (norErase start stop)
  | operation => operation.run

def disk : DiskOperation → StateT Disk Script DiskOutcome
  | .read start length => .read <$> ExceptT.run (readSectors start length)
  | .write start data => .write <$> ExceptT.run (writeSectors start data)
  | .control command => .control <$> ExceptT.run (control command)
  | operation => operation.run

/-- A step of a session whose driver and disk compute without a bound. -/
def step (s : Session) : Action → Outcome × Session
  | .flash operation =>
      match s.device.driver? with
      | some driver =>
          let ((result, driver), bench) := Driver.perform (flash operation) driver s.bench
          (.flash result, ⟨s.compareBuffer, s.device.withDriver driver, bench⟩)
      | none => (.noDevice, s)
  | .disk operation => s.onDisk (disk operation) .disk
  | .join first second =>
      s.onDisk (do return (← disk first, ← disk second)) fun (a, b) => .join a b
  | a => s.step a

end SerialFlash.Unbounded
