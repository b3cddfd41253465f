import SerialFlash.Driver.Status

/-! The unique ID, and deep power-down. -/

namespace SerialFlash.Driver

/-- Reads the unique ID, behind its four dummy bytes. -/
def uniqueId : FlashM UInt64 := do
  guardReady
  return (ofBigEndian ((← ask .readUniqueId).drop 4)).toUInt64

/-- Enters deep power-down, from which only a release wakes the chip. -/
def enterPowerDown : FlashM Unit := do
  guardReady
  let _ ← ask .powerDown
  setState .notReady

/-- The identity is supported and the geometry is known. -/
def isIdentified (d : Driver) : Bool :=
  d.identity.capacity?.isSome && d.layout.sectorCount != 0

/-- Leaves deep power-down. The chip takes three microseconds to wake. -/
def leavePowerDown : FlashM Unit := do
  let d ← get
  unless d.state = .notReady && d.isIdentified do
    throw (.busy d.state)
  let _ ← ask .releasePowerDown
  Script.sleep 3
  setState .ready

end SerialFlash.Driver
