/-!
Sector size of a disk. It is the flash erase sector, or a fixed number of bytes
that is a whole number of them.
-/

namespace SerialFlash

structure DiskFormat where
  /-- Bytes in a logical sector; without it the erase sector is used. -/
  sectorSize : Option Nat
  deriving DecidableEq, Repr

/-- The logical sector size over a flash that erases `flashSector` bytes at a
time. -/
def DiskFormat.resolve? (f : DiskFormat) (flashSector : Nat) : Option Nat :=
  let size := f.sectorSize.getD flashSector
  if size = 0 ∨ flashSector = 0 ∨ size % flashSector ≠ 0 then none else some size

theorem DiskFormat.resolve?_eq_some_iff {f : DiskFormat} {flashSector size : Nat} :
    f.resolve? flashSector = some size ↔
      f.sectorSize.getD flashSector = size ∧ 0 < size ∧ 0 < flashSector ∧ flashSector ∣ size := by
  simp only [resolve?, Nat.dvd_iff_mod_eq_zero]
  grind

end SerialFlash
