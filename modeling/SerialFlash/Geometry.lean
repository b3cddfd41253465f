/-!
Sizes and constants that all parts of the family share.
-/

namespace SerialFlash

/-- A page program never leaves its 256-byte page. -/
def pageSize : Nat := 256

/-- The smallest erasable unit. -/
def sectorSize4K : Nat := 4096

def blockSize32K : Nat := 32768

def blockSize64K : Nat := 65536

/-- What every byte reads back as after an erase. -/
def erasedByte : UInt8 := 0xFF

/-- Recommended wait in milliseconds before an erase is polled again. -/
def erasePollHint : Nat := 1

/-- The mode byte sent after the address of the two- and four-line reads.
Continuous read latches only on `10` in bits 5 and 4, so all ones keep every
read a full command. -/
def readModeByte : UInt8 := 0xFF

theorem pageSize_pos : 0 < pageSize := by decide

end SerialFlash
