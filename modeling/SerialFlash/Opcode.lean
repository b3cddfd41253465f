/-!
The instruction set of the W25Q family. Every part shares these opcodes; a byte
outside the table is no instruction.
-/

namespace SerialFlash

inductive Opcode where
  /-- Sets the write-enable latch; needed before every program, erase and
  status write. -/
  | writeEnable
  | writeDisable
  | readStatus1
  | readStatus2
  | writeStatus
  /-- Programs up to 256 bytes of one page, data on one line. -/
  | pageProgram
  /-- Programs up to 256 bytes of one page, data on four lines. -/
  | quadPageProgram
  | blockErase64K
  | blockErase32K
  | sectorErase4K
  | chipErase
  | eraseSuspend
  | eraseResume
  | powerDown
  | releasePowerDown
  | manufacturerDeviceId
  /-- Reads the 64-bit unique ID behind four dummy bytes. -/
  | readUniqueId
  /-- Reads manufacturer, memory type and capacity code. -/
  | readId
  | read
  | fastRead
  | fastReadDualOutput
  /-- Reads with address and data on two lines. -/
  | fastReadDualIo
  | fastReadQuadOutput
  /-- Reads with address and data on four lines. -/
  | fastReadQuadIo
  deriving DecidableEq, Repr

namespace Opcode

/-- The byte sent on the bus. -/
def byte : Opcode → UInt8
  | writeEnable => 0x06
  | writeDisable => 0x04
  | readStatus1 => 0x05
  | readStatus2 => 0x35
  | writeStatus => 0x01
  | pageProgram => 0x02
  | quadPageProgram => 0x32
  | blockErase64K => 0xD8
  | blockErase32K => 0x52
  | sectorErase4K => 0x20
  | chipErase => 0xC7
  | eraseSuspend => 0x75
  | eraseResume => 0x7A
  | powerDown => 0xB9
  | releasePowerDown => 0xAB
  | manufacturerDeviceId => 0x90
  | readUniqueId => 0x4B
  | readId => 0x9F
  | read => 0x03
  | fastRead => 0x0B
  | fastReadDualOutput => 0x3B
  | fastReadDualIo => 0xBB
  | fastReadQuadOutput => 0x6B
  | fastReadQuadIo => 0xEB

/-- The whole table. -/
def all : List Opcode :=
  [writeEnable, writeDisable, readStatus1, readStatus2, writeStatus, pageProgram,
    quadPageProgram, blockErase64K, blockErase32K, sectorErase4K, chipErase,
    eraseSuspend, eraseResume, powerDown, releasePowerDown, manufacturerDeviceId,
    readUniqueId, readId, read, fastRead, fastReadDualOutput, fastReadDualIo,
    fastReadQuadOutput, fastReadQuadIo]

/-- The instruction that a byte stands for. -/
def ofByte? (b : UInt8) : Option Opcode :=
  all.find? fun o => o.byte == b

theorem mem_all (o : Opcode) : o ∈ all := by
  cases o <;> decide

@[simp] theorem ofByte?_byte (o : Opcode) : ofByte? o.byte = some o := by
  cases o <;> rfl

theorem byte_of_ofByte? {b : UInt8} {o : Opcode} (h : ofByte? b = some o) :
    o.byte = b := by
  simpa using List.find?_some h

theorem byte_injective {o p : Opcode} (h : o.byte = p.byte) : o = p := by
  have := ofByte?_byte o
  rw [h, ofByte?_byte] at this
  exact (Option.some.inj this).symm

end Opcode

end SerialFlash
