import SerialFlash.Layout

/-!
Sectors tile a device. As many whole sectors as the capacity holds lie side by side from address
zero on, up to the size of the device, and what is left over is less than a sector. Neither the size
nor the address of a sector leaves the 32-bit words, whatever the sizes are, so that the bounds
check is the plain comparison that it stands for.
-/

namespace SerialFlash.Layout

/-- The device is whole sectors, and its size is a word. -/
structure Whole (l : Layout) : Prop where
  size : l.size = l.sectorCount * l.sectorSize
  word : l.size < Word32.limit

variable {l : Layout} {sector start offset length address capacity sectorSize : Nat}

theorem whole_tile (word : capacity < Word32.limit) (sectorSize : Nat) :
    (tile capacity sectorSize).Whole :=
  ⟨rfl, Nat.lt_of_le_of_lt (Nat.div_mul_le_self capacity sectorSize) word⟩

/-- What is covered lies inside the device, overflow or not. -/
theorem le_of_covers (covered : l.covers offset length = true) : offset + length ≤ l.size := by
  simp only [covers, Bool.and_eq_true] at covered
  obtain ⟨-, covered⟩ := covered
  split at covered
  · next stop sum =>
    obtain ⟨-, rfl⟩ := Word32.add?_eq_some_iff.mp sum
    exact of_decide_eq_true covered
  · contradiction

namespace Whole

variable (h : l.Whole)

include h

/-- The bounds check knows no overflow. -/
theorem covers_iff : l.covers offset length = true ↔ offset + length ≤ l.size := by
  refine ⟨le_of_covers, fun inside => ?_⟩
  have bound := h.word
  have word : offset + length < Word32.limit := by omega
  have short : length < Word32.limit := by omega
  simp [covers, Word32.add?, word, short, inside]

/-- A sector ends inside the device. -/
theorem sector_le (inside : sector < l.sectorCount) :
    sector * l.sectorSize + l.sectorSize ≤ l.size := by
  rw [h.size, ← Nat.succ_mul]
  exact Nat.mul_le_mul_right _ inside

/-- Every sector of the device has its address. -/
theorem sectorStart?_eq_ite (sector : Nat) :
    l.sectorStart? sector =
      if sector < l.sectorCount then some (sector * l.sectorSize) else none := by
  by_cases inside : sector < l.sectorCount
  · have word : sector * l.sectorSize < Word32.limit :=
      Nat.lt_of_le_of_lt (Nat.le_of_add_right_le (h.sector_le inside)) h.word
    rw [sectorStart?, if_neg (Nat.not_le.mpr inside), if_pos inside, Word32.mul?, if_pos word]
  · rw [sectorStart?, if_pos (Nat.le_of_not_lt inside), if_neg inside]

theorem sectorStart?_eq_some_iff :
    l.sectorStart? sector = some start ↔
      sector < l.sectorCount ∧ start = sector * l.sectorSize := by
  rw [h.sectorStart?_eq_ite]
  split
  · next inside => simp [inside, eq_comm]
  · next outside => simp [outside]

/-- The address lies in its sector and in no other. -/
theorem existsUnique_sector (inside : address < l.size) :
    ∃ sector start, l.sectorStart? sector = some start ∧
      (start ≤ address ∧ address < start + l.sectorSize) ∧
      ∀ other start', l.sectorStart? other = some start' →
        start' ≤ address → address < start' + l.sectorSize → other = sector := by
  have pos : 0 < l.sectorSize := Nat.pos_of_ne_zero fun none => by
    rw [h.size, none, Nat.mul_zero] at inside
    exact Nat.not_lt_zero _ inside
  have counted : address / l.sectorSize < l.sectorCount := by
    rw [Nat.div_lt_iff_lt_mul pos, ← h.size]
    exact inside
  refine ⟨address / l.sectorSize, _, h.sectorStart?_eq_some_iff.mpr ⟨counted, rfl⟩,
    ⟨Nat.div_mul_le_self _ _, Nat.lt_div_mul_add pos⟩,
    fun other start' found from_start before => ?_⟩
  obtain ⟨-, rfl⟩ := h.sectorStart?_eq_some_iff.mp found
  refine Nat.le_antisymm ((Nat.le_div_iff_mul_le pos).mpr from_start) (Nat.le_of_lt_succ ?_)
  rw [Nat.div_lt_iff_lt_mul pos, Nat.succ_mul]
  exact before

end Whole

/-- The layout divides the capacity into sectors of that many bytes. -/
structure Tiles (l : Layout) (capacity sectorSize : Nat) : Prop where
  /-- The product does not leave the words. -/
  size : Word32.mul? l.sectorCount sectorSize = some l.size
  most : l.size ≤ capacity ∧ capacity < l.size + sectorSize
  starts : ∀ sector, l.sectorStart? sector =
    if sector < l.sectorCount then some (sector * sectorSize) else none
  /-- An address lies in one sector, and in no other. -/
  unique : ∀ address < l.size, ∃ sector start, l.sectorStart? sector = some start ∧
    (start ≤ address ∧ address < start + sectorSize) ∧
    ∀ other start', l.sectorStart? other = some start' →
      start' ≤ address → address < start' + sectorSize → other = sector
  inside : ∀ sector start, l.sectorStart? sector = some start → l.covers start sectorSize = true
  covers : ∀ offset length, l.covers offset length = true ↔ offset + length ≤ l.size

/-- A device of any capacity is whole sectors from one end to the other, and each of them can be
addressed. No sum or product on the way leaves the words, so nothing that is inside is refused, and
nothing that is outside is let through. -/
theorem sectors_tile (word : capacity < Word32.limit) (pos : 0 < sectorSize) :
    ∃ l, tile? capacity sectorSize = some l ∧ l.Tiles capacity sectorSize := by
  have whole := whole_tile word sectorSize
  refine ⟨tile capacity sectorSize, if_neg (Nat.ne_of_gt pos), ?_⟩
  exact {
    size := Word32.mul?_eq_some_iff.mpr ⟨whole.word, rfl⟩
    most := ⟨Nat.div_mul_le_self _ _, Nat.lt_div_mul_add pos⟩
    starts := whole.sectorStart?_eq_ite
    unique := fun address inside => whole.existsUnique_sector inside
    inside := fun sector start found => by
      obtain ⟨inside, rfl⟩ := whole.sectorStart?_eq_some_iff.mp found
      exact whole.covers_iff.mpr (whole.sector_le inside)
    covers := fun offset length => whole.covers_iff }

/-- The largest capacity in sectors of ten thousand bytes. There is no room for another sector
behind the last one. -/
theorem sectors_tile_largest : ∃ l, tile? 4294967295 10000 = some l ∧
    l.Tiles 4294967295 10000 ∧ l.size = 4294960000 ∧
    l.sectorStart? 429495 = some 4294950000 ∧ l.sectorStart? 429496 = none ∧
    l.covers 4294950000 10000 = true ∧ l.covers 4294950000 10001 = false := by
  obtain ⟨l, tiled, tiles⟩ :=
    sectors_tile (show 4294967295 < Word32.limit by decide) (show 0 < 10000 by decide)
  cases tiled
  have last : (tile 4294967295 10000).sectorStart? 429495 = some 4294950000 := tiles.starts _
  refine ⟨_, rfl, tiles, rfl, last, tiles.starts _, tiles.inside _ _ last, ?_⟩
  exact Bool.eq_false_iff.mpr fun more => absurd ((tiles.covers _ _).mp more) (by decide)

end SerialFlash.Layout
