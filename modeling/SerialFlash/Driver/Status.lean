import SerialFlash.Driver

/-!
Status registers: reading them, and waiting a bounded number of reads for the
chip to become idle.
-/

namespace SerialFlash

/-- The first byte of a reply. -/
def StatusRegister.ofReply (reply : Bytes) : StatusRegister :=
  ⟨reply.headD 0⟩

namespace Driver

/-- Reads status register 1, in any state. -/
def readStatus1 : FlashM StatusRegister :=
  return .ofReply (← ask .readStatus1)

/-- Some block-protect bit is set. Which part of the array is meant depends on
further bits; any of them counts as protected. -/
def isProtected : FlashM Bool :=
  return (← readStatus1).protection != 0

def readStatus2 : FlashM UInt8 :=
  return (← ask .readStatus2).headD 0

def writeEnable : FlashM Unit := do
  let _ ← ask .writeEnable

/-- Reads the status up to `polls` times, with a pause before each if the options say so. -/
def awaitIdleWithin (options : DriverOptions) : Nat → FlashM Unit
  | 0 => throw .timeout
  | polls + 1 => do
      if options.pauses then
        Script.sleep options.pollInterval
      let status ← readStatus1
      if status.isBusy then
        awaitIdleWithin options polls

/-- Waits for the chip after a page program or status write. -/
def awaitIdle : FlashM Unit := do
  let options := (← get).options
  awaitIdleWithin options options.maxPolls

end Driver

end SerialFlash
