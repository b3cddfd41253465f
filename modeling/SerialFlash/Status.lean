/-!
The two status registers. Register 1 shows progress, the write-enable latch and
the protected area; register 2 holds the quad-enable bit.
-/

namespace SerialFlash

namespace Status1

def registerProtect0 : UInt8 := 0x80
def sectorProtect : UInt8 := 0x40
def topBottomProtect : UInt8 := 0x20
def blockProtect2 : UInt8 := 0x10
def blockProtect1 : UInt8 := 0x08
def blockProtect0 : UInt8 := 0x04
/-- The three block-protect bits together. -/
def blockProtect : UInt8 := 0x1C
def writeEnableLatch : UInt8 := 0x02
def busy : UInt8 := 0x01

theorem blockProtect_eq :
    blockProtect = blockProtect2 ||| blockProtect1 ||| blockProtect0 := rfl

end Status1

namespace Status2

def suspended : UInt8 := 0x80
def quadEnable : UInt8 := 0x02
def registerProtect1 : UInt8 := 0x01

end Status2

/-- A value read from status register 1. -/
structure StatusRegister where
  value : UInt8
  deriving DecidableEq, Repr

namespace StatusRegister

/-- An erase, a program or a status write is running. -/
def isBusy (s : StatusRegister) : Bool :=
  s.value &&& Status1.busy != 0

def writeEnabled (s : StatusRegister) : Bool :=
  s.value &&& Status1.writeEnableLatch != 0

/-- The block-protect field, as a number below 8. -/
def protection (s : StatusRegister) : UInt8 :=
  (s.value &&& Status1.blockProtect) >>> 2

end StatusRegister

end SerialFlash
