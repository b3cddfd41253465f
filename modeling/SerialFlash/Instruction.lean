import SerialFlash.Options
import SerialFlash.Link

/-!
What a driver asks of its chip. An instruction says what is wanted; the request
that spells it out takes its opcode from the link.
-/

namespace SerialFlash

inductive Instruction where
  | writeEnable
  | readStatus1
  | readStatus2
  | writeStatus (first second : UInt8)
  | readId
  | readUniqueId
  | readArray (address length : Nat)
  | programPage (address : Nat) (data : Bytes)
  | eraseSector (unit : EraseUnit) (address : Nat)
  | eraseChip
  | powerDown
  | releasePowerDown
  deriving DecidableEq, Repr

/-- The request that an instruction becomes on a link. The unique ID comes after
four dummy bytes. -/
def Link.request (l : Link) : Instruction → Request
  | .writeEnable => .command .writeEnable
  | .readStatus1 => .receive .readStatus1 1
  | .readStatus2 => .receive .readStatus2 1
  | .writeStatus first second => .send .writeStatus [first, second]
  | .readId => .receive .readId 3
  | .readUniqueId => .receive .readUniqueId 12
  | .readArray address length => .receiveAt l.readOpcode address length
  | .programPage address data => .sendAt l.programOpcode address data
  | .eraseSector unit address => .commandAt unit.opcode address
  | .eraseChip => .command .chipErase
  | .powerDown => .command .powerDown
  | .releasePowerDown => .command .releasePowerDown

end SerialFlash
