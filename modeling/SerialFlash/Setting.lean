import SerialFlash.Chip

/-!
What can be set on a simulated chip behind the driver's back: timing,
protection, faults and cell contents.
-/

namespace SerialFlash

inductive Setting where
  /-- Busy reads after each page program and status write. -/
  | programBusy (reads : Nat)
  /-- Busy reads after each erase. -/
  | eraseBusy (reads : Nat)
  | stuckBusy (on : Bool)
  /-- The block-protect field, as a number below 8. -/
  | protection (field : UInt8)
  | quadEnabled (on : Bool)
  | statusLocked (on : Bool)
  | uniqueId (id : UInt64)
  | stickCell (cell : StuckCell)
  /-- Fails one transaction with this opcode, after `skip` of them. -/
  | failOpcode (opcode : UInt8) (skip : Nat)
  /-- Fails one transaction, after `skip` of any kind. -/
  | failAny (skip : Nat)
  | store (offset : Nat) (data : Bytes)
  | storeAll (value : UInt8)
  deriving DecidableEq, Repr

def Chip.configure (c : Chip) : Setting → Chip
  | .programBusy reads => { c with programBusy := reads }
  | .eraseBusy reads => { c with eraseBusy := reads }
  | .stuckBusy on => { c with stuckBusy := on }
  | .protection field => { c with protectBits := (field <<< 2) &&& Status1.blockProtect }
  | .quadEnabled on => { c with quadEnabled := on }
  | .statusLocked on => { c with statusLocked := on }
  | .uniqueId id => { c with uniqueId := id }
  | .stickCell cell => { c with stuckCells := c.stuckCells ++ [cell] }
  | .failOpcode opcode skip =>
      { c with faults := { c.faults with onOpcode := some (opcode, skip) } }
  | .failAny skip => { c with faults := { c.faults with onAny := some skip } }
  | .store offset data => { c with memory := c.memory.write offset data }
  | .storeAll value =>
      let size := c.memory.size
      { c with memory := c.memory.fill value 0 size }

end SerialFlash
