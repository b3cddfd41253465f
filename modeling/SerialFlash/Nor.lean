import SerialFlash.Driver.Erase
import SerialFlash.Driver.Transfer

/-!
The generic interface of a NOR array: byte reads, byte writes that only clear
bits, and erases of whole 4 KiB units whatever unit a sector stands for.
-/

namespace SerialFlash.Nor

def readSize : Nat := 1
def writeSize : Nat := 1
def eraseSize : Nat := sectorSize4K

def capacity (d : Driver) : Nat :=
  d.layout.size

def read (offset length : Nat) : FlashM Bytes :=
  Driver.read offset length

def write (offset : Nat) (data : Bytes) : FlashM Unit :=
  Driver.program offset data

/-- Erases `units` units from `offset` on, each to its end. -/
def eraseFrom : Nat → Nat → FlashM Unit
  | 0, _ => return
  | units + 1, offset => do
      Driver.beginErase (.eraseSector .sector4K offset)
      Driver.finishErase
      eraseFrom units (Word32.satAdd offset eraseSize)

/-- Erases `[start, stop)`. Bounds are checked before alignment, and an empty
range is accepted in any state. -/
def erase (start stop : Nat) : FlashM Unit := do
  if stop < start ∨ (← get).layout.size < stop then
    throw .outOfBounds
  unless start % eraseSize = 0 ∧ stop % eraseSize = 0 do
    throw .misaligned
  eraseFrom ((stop - start) / eraseSize) start

end SerialFlash.Nor
