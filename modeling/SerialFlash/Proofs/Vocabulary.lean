import SerialFlash.Proofs.Conduct
import SerialFlash.Proofs.Memory
import SerialFlash.Proofs.Tiling

/-!
What a driver says to its chip. All that it addresses lies inside the device: a read is inside
the array, a page program in one page, and an erase covers one of its units. This rests on the
layout alone, so it is so whatever the chip replies, and before the chip has been identified,
when the device has no bytes. Identification has instructions of its own, which no other
operation uses.
-/

namespace SerialFlash

namespace Instruction

/-- All that the instruction addresses lies inside a device of `size` bytes, and it is neither
empty nor across a boundary that the chip would come round at. -/
def Inside (size : Nat) : Instruction → Prop
  | readArray address length => 0 < length ∧ address + length ≤ size
  | programPage address data => Piece.Fits size ⟨address, data⟩
  | eraseSector unit address => unit.size ∣ address ∧ address + unit.size ≤ size
  | _ => True

/-- Not one of the instructions that only an identification uses. -/
def Routine : Instruction → Prop
  | readId | readStatus2 | writeStatus _ _ => False
  | _ => True

variable {i : Instruction} {size : Nat}

/-- Within 24 address bits nothing is lost on the wires. -/
theorem Inside.fits (h : i.Inside size) (bound : size ≤ 16777216) : i.Fits := by
  cases i with
  | readArray address length =>
    obtain ⟨pos, inside⟩ := h
    show address < 16777216
    omega
  | programPage address data =>
    have inside : address + data.length ≤ size := h.bound
    have pos : 0 < data.length := List.length_pos_iff.mpr h.data_ne_nil
    exact ⟨show address < 16777216 by omega, h.data_ne_nil⟩
  | eraseSector unit address =>
    have inside : address + unit.size ≤ size := h.2
    have pos := unit.size_pos
    show address < 16777216
    omega
  | _ => trivial

end Instruction

namespace Layout

/-- The layout is one that a driver with that erase unit may have, identified or not: whole
sectors of the unit, whole 64 KiB blocks, and at most 24 address bits. -/
structure Suits (l : Layout) (unit : EraseUnit) : Prop where
  sectorSize : l.sectorSize = unit.size
  size : l.size = l.sectorCount * unit.size
  blocks : 65536 ∣ l.size
  bound : l.size ≤ 16777216

theorem suits_unknown (unit : EraseUnit) : (unknown unit.size).Suits unit :=
  ⟨rfl, (Nat.zero_mul _).symm, Nat.dvd_zero _, Nat.zero_le _⟩

theorem suits_tile {id : Identity} {capacity : Nat} (listed : id.capacity? = some capacity)
    (unit : EraseUnit) : (tile capacity unit.size).Suits unit := by
  unfold Identity.capacity? at listed
  split at listed
  · obtain ⟨blocks, divides⟩ := Identity.sizeOfCode?_bounds listed
    have whole : (tile capacity unit.size).size = capacity :=
      Nat.div_mul_cancel (Nat.dvd_trans (by cases unit <;> decide) blocks)
    exact ⟨rfl, rfl, whole.symm ▸ blocks, whole.symm ▸ Nat.le_of_dvd (by decide) divides⟩
  · contradiction

namespace Suits

variable {l : Layout} {unit : EraseUnit} {sector start : Nat} (h : l.Suits unit)

include h

theorem size_lt_limit : l.size < Word32.limit :=
  Nat.lt_of_le_of_lt h.bound (by decide)

theorem whole : l.Whole :=
  ⟨by rw [h.sectorSize]; exact h.size, h.size_lt_limit⟩

theorem covers_iff {offset length : Nat} :
    l.covers offset length = true ↔ offset + length ≤ l.size :=
  h.whole.covers_iff

theorem sectorStart?_eq_ite (sector : Nat) :
    l.sectorStart? sector = if sector < l.sectorCount then some (sector * unit.size) else none := by
  rw [h.whole.sectorStart?_eq_ite, h.sectorSize]

theorem sectorStart?_eq (inside : sector < l.sectorCount) :
    l.sectorStart? sector = some (sector * unit.size) := by
  rw [h.sectorStart?_eq_ite, if_pos inside]

/-- A sector of the layout is a unit inside the device. -/
theorem inside_of_sectorStart? (found : l.sectorStart? sector = some start) :
    (Instruction.eraseSector unit start).Inside l.size := by
  obtain ⟨inside, rfl⟩ := h.whole.sectorStart?_eq_some_iff.mp found
  rw [h.sectorSize]
  exact ⟨Nat.dvd_mul_left _ _, h.sectorSize ▸ h.whole.sector_le inside⟩

end Suits

end Layout

end SerialFlash
