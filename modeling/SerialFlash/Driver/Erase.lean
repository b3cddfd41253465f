import SerialFlash.Driver.Status

/-!
Erasing. Starting an erase returns at once; its end is found by polling, for at
most the configured time. A finished erase can be verified byte by byte.
-/

namespace SerialFlash

/-- Progress of an erase. -/
inductive EraseProgress where
  | done
  /-- Still running; ask again after that many milliseconds. -/
  | running (retryAfter : Nat)
  deriving DecidableEq, Repr

namespace Driver

/-- Enables writing and sends an erase, without waiting for it. -/
def beginErase (i : Instruction) : FlashM Unit := do
  guardReady
  writeEnable
  let _ ← ask i
  setState .erasing

def beginEraseAll : FlashM Unit :=
  beginErase .eraseChip

/-- Address of a sector of the device. -/
def sectorStart (sector : Nat) : FlashM Nat := do
  match (← get).layout.sectorStart? sector with
  | some start => return start
  | none => throw .outOfBounds

def beginEraseSector (sector : Nat) : FlashM Unit := do
  guardReady
  let start ← sectorStart sector
  beginErase (.eraseSector (← get).options.eraseUnit start)

/-- Asks whether the erase that was started has ended. The status is read only
while one is outstanding. -/
def eraseProgress : FlashM EraseProgress := do
  match (← get).state with
  | .erasing =>
      match ← Script.ask .readStatus1 with
      | .error e =>
          setState .ready
          throw (.bus e)
      | .ok reply =>
          if (StatusRegister.ofReply reply).isBusy then
            return .running erasePollHint
          setState .ready
          return .done
  | .notReady => throw (.busy .notReady)
  | .failed => throw (.busy .failed)
  | _ => return .done

/-- Polls until the erase ends, waiting at most `remaining` milliseconds more.
Every wait takes one. -/
def finishWithin : Nat → FlashM Unit
  | 0 => do
      match ← eraseProgress with
      | .done => return
      | .running _ => resting (throw .timeout)
  | remaining + 1 => do
      match ← eraseProgress with
      | .done => return
      | .running retryAfter =>
          Script.sleep (retryAfter * 1000)
          finishWithin remaining

def finishErase : FlashM Unit := do
  finishWithin (← get).options.eraseTimeout

/-- Checks `chunks` runs of `step` bytes from `offset` on, and reports the first
byte that is not erased. -/
def checkFrom (erased : UInt8) (step : Nat) : Nat → Nat → FlashM Unit
  | 0, _ => return
  | chunks + 1, offset => do
      let reply ← ask (.readArray offset step)
      match reply.findIdx? (· != erased) with
      | some k => throw (.notErased (Word32.satAdd offset k))
      | none => checkFrom erased step chunks (Word32.satAdd offset step)

/-- Reads `length` bytes from `start` on in runs of the compare buffer's size. -/
def checkRange (start length : Nat) : FlashM Unit := do
  let d ← get
  let step := d.compareBuffer.size
  let stop := Word32.satAdd start length
  checkFrom d.layout.erasedValue step ((stop - start + step - 1) / step) start

/-- Checks that every byte of a sector is erased. -/
def checkErased (sector : Nat) : FlashM Unit := do
  guardReady
  let start ← sectorStart sector
  setState .reading
  resting (do checkRange start (← get).layout.sectorSize)

end Driver

end SerialFlash
