import SerialFlash.Geometry
import SerialFlash.Word32

/-!
Layout and capabilities of an identified chip. The device is divided into equal
erase sectors; bounds are checked against them before anything is sent.
-/

namespace SerialFlash

/-- A set of capability flags. -/
structure Capabilities where
  bits : UInt8
  deriving DecidableEq, Repr

namespace Capabilities

def empty : Capabilities := ⟨0⟩
/-- Erased cells read as ones. -/
def erasesToOnes : Capabilities := ⟨1⟩
/-- Cells can be programmed again between erases, bits only going to zero. -/
def reprogrammable : Capabilities := ⟨2⟩
def suspendsErase : Capabilities := ⟨4⟩

def union (a b : Capabilities) : Capabilities :=
  ⟨a.bits ||| b.bits⟩

/-- What every part of the family can do. -/
def full : Capabilities :=
  (erasesToOnes.union reprogrammable).union suspendsErase

/-- Every flag of `b` is set in `a`. -/
def contains (a b : Capabilities) : Bool :=
  a.bits &&& b.bits == b.bits

end Capabilities

structure Layout where
  capabilities : Capabilities
  /-- Bytes in a program page. -/
  pageSize : Nat
  /-- Bytes in an erase sector. -/
  sectorSize : Nat
  sectorCount : Nat
  /-- Addressable bytes. -/
  size : Nat
  /-- Where the device starts in the flash address space. -/
  address : Nat
  deriving DecidableEq, Repr

namespace Layout

/-- As many whole sectors as fit the capacity. -/
def tile (capacity sectorSize : Nat) : Layout where
  capabilities := .full
  pageSize := SerialFlash.pageSize
  sectorSize := sectorSize
  sectorCount := capacity / sectorSize
  size := capacity / sectorSize * sectorSize
  address := 0

/-- A device cannot be divided into sectors of no bytes. -/
def tile? (capacity sectorSize : Nat) : Option Layout :=
  if sectorSize = 0 then none else some (tile capacity sectorSize)

/-- What is known of a device before it has been identified. -/
def unknown (sectorSize : Nat) : Layout where
  capabilities := .empty
  pageSize := SerialFlash.pageSize
  sectorSize := sectorSize
  sectorCount := 0
  size := 0
  address := 0

/-- What an erased byte reads as. -/
def erasedValue (l : Layout) : UInt8 :=
  if l.capabilities.contains .erasesToOnes then 0xFF else 0x00

/-- Address of the first byte of a sector. -/
def sectorStart? (l : Layout) (sector : Nat) : Option Nat :=
  if l.sectorCount ≤ sector then none else Word32.mul? sector l.sectorSize

/-- The run of `length` bytes from `offset` lies inside the device. A length
that is no word, or an end past the last word, is outside. -/
def covers (l : Layout) (offset length : Nat) : Bool :=
  length < Word32.limit &&
    match Word32.add? offset length with
    | some stop => stop ≤ l.size
    | none => false

theorem tile_size (capacity sectorSize : Nat) :
    (tile capacity sectorSize).size =
      (tile capacity sectorSize).sectorCount * (tile capacity sectorSize).sectorSize := rfl

@[simp] theorem erasedValue_tile (capacity sectorSize : Nat) :
    (tile capacity sectorSize).erasedValue = 0xFF :=
  if_pos (by decide : Capabilities.full.contains .erasesToOnes = true)

end Layout

end SerialFlash
