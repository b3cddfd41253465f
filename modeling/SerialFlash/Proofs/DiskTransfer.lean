import SerialFlash.Proofs.Erasure
import SerialFlash.Proofs.Reachable

/-!
What the operations of a disk have done when they succeed, and what is left of a sector whose
replacement fails. A sector is erased flash
sector by flash sector and every byte is read back before any is programmed, so a
sector that has been replaced holds its data whatever the chip was doing before. A trim
does not read back, and a read shows what the chip shows.
-/

namespace SerialFlash

open Procedure

namespace Disk

variable {alone : Prop} {unit : EraseUnit} {flash : Driver} {d : Disk} {b : Bench}

/-! ### Flash sectors under a sector -/

theorem flashSectors_le (settled : flash.Settled alone unit b) {perSector sector : Nat}
    (pos : 0 < perSector) (bound : (sector + 1) * (perSector * unit.size) ≤ flash.layout.size) :
    sector * perSector + perSector ≤ flash.layout.sectorCount := by
  have some_bytes : 0 < (sector + 1) * (perSector * unit.size) :=
    Nat.mul_pos (Nat.succ_pos _) (Nat.mul_pos pos unit.size_pos)
  have knows := settled.attuned.knows_of_size_pos (by omega)
  refine Nat.le_of_mul_le_mul_right ?_ unit.size_pos
  calc (sector * perSector + perSector) * unit.size
      = (sector + 1) * (perSector * unit.size) := by rw [← Nat.succ_mul, Nat.mul_assoc]
    _ ≤ b.chip.memory.size := knows.layout_size ▸ bound
    _ = flash.layout.sectorCount * unit.size := by
        rw [← settled.attuned.eraseUnit, knows.sectorCount_mul]

/-- On the device no number of a flash sector is too large. -/
theorem eraseUnder_eq (suits : flash.layout.Suits flash.options.eraseUnit) {perSector sector : Nat}
    (inside : sector * perSector + perSector ≤ flash.layout.sectorCount) (verify : Bool) :
    eraseUnder perSector sector verify = (do
      eraseRun verify perSector (sector * perSector)
      Driver.sectorStart (sector * perSector)) := by
  have sectors : flash.layout.sectorCount ≤ flash.layout.size := by
    rw [suits.size]
    exact Nat.le_mul_of_pos_right _ flash.options.eraseUnit.size_pos
  have word := suits.size_lt_limit
  have first : Word32.mul? sector perSector = some (sector * perSector) :=
    Word32.mul?_eq_some_iff.mpr ⟨by omega, rfl⟩
  have last : Word32.satAdd (sector * perSector) perSector = sector * perSector + perSector :=
    Word32.satAdd_of_lt (by omega)
  simp only [eraseUnder, first, last, Nat.add_sub_cancel_left]

/-- The erase under a sector is a run of erases that stays inside the device. -/
theorem ensures_eraseUnder (settled : flash.Settled alone unit b) {perSector sector : Nat}
    (pos : 0 < perSector) (bound : (sector + 1) * (perSector * unit.size) ≤ flash.layout.size)
    {verify : Bool} {good : Bench → Prop} {bad : DriverError BusError → Driver → Bench → Prop}
    (run : (eraseRun verify perSector (sector * perSector)).Ensures flash b
      (fun _ flash' b' => flash' = flash ∧ good b') bad) :
    (eraseUnder perSector sector verify).Ensures flash b
      (fun offset flash' b' => flash' = flash ∧ offset = sector * (perSector * unit.size) ∧ good b')
      bad := by
  have inside := flashSectors_le settled pos bound
  have some_bytes : 0 < (sector + 1) * (perSector * unit.size) :=
    Nat.mul_pos (Nat.succ_pos _) (Nat.mul_pos pos unit.size_pos)
  have knows := settled.attuned.knows_of_size_pos (by omega)
  have found : flash.layout.sectorStart? (sector * perSector) =
      some (sector * (perSector * unit.size)) := by
    rw [← settled.attuned.eraseUnit, ← Nat.mul_assoc]
    exact knows.sectorStart?_eq_some_iff.mpr ⟨by omega, rfl⟩
  rw [eraseUnder_eq knows.suits inside, Driver.sectorStart]
  simp only [ensures_bind, ensures_get]
  refine run.mono ?_ fun _ _ _ failed => failed
  rintro _ flash b' ⟨rfl, done⟩
  simp only [found, ensures_pure]
  exact ⟨trivial, trivial, done⟩

/-- A sector that has been replaced holds its data, and the chip is idle. -/
theorem ensures_replaceSector (settled : flash.Settled True unit b) {perSector sector : Nat}
    {data : Bytes} (pos : 0 < perSector) (whole : data.length = perSector * unit.size)
    (bound : (sector + 1) * data.length ≤ flash.layout.size) :
    (replaceSector perSector sector data).Ensures flash b
      (fun _ flash' b' => flash' = flash ∧ b'.chip.isBusy = false ∧
        b.chip.memory.StoresTo (sector * data.length) data b'.chip.memory)
      fun _ _ b' => b.chip.memory.PartlyReplaced b.chip.stuckCells unit.size
        (sector * data.length) data b'.chip.memory := by
  have erased := ensures_eraseUnder settled pos (whole ▸ bound)
    (Driver.ensures_eraseRun_verified settled)
  have start : sector * perSector * unit.size = sector * data.length := by
    rw [Nat.mul_assoc, ← whole]
  rw [replaceSector, ensures_bind]
  refine ((Driver.keeps_eraseUnder _ _ _ _ _ settled).and erased).mono ?_ ?_
  · intro offset flash b₁ ended
    obtain ⟨settled₁, rfl, rfl, idle, stored⟩ := ended
    have idle₁ : b₁.chip.isBusy = false := by
      rw [idle]
      simp [Nat.ne_of_gt pos]
    rw [start, ← whole] at stored
    rw [← whole]
    -- every byte under the sector has been read back as erased, so the program stores its data
    refine (Driver.ensures_program settled₁ _ _).mono ?_ ?_
    · intro _ flash b₂ ended
      obtain ⟨-, rfl, -, idle₂, programmed⟩ := ended
      rw [idle₁, if_neg Bool.false_ne_true, if_neg Bool.false_ne_true] at programmed
      exact ⟨rfl, by rw [idle₂, idle₁]; rfl, stored.program programmed⟩
    · rintro _ _ b₂ ⟨k, programmed⟩
      rw [idle₁, if_neg Bool.false_ne_true] at programmed
      have knows := settled₁.attuned.knows_of_size_pos (Nat.lt_of_lt_of_le
        (Nat.mul_pos sector.succ_pos (whole ▸ Nat.mul_pos pos unit.size_pos)) bound)
      have inside : sector * data.length + data.length ≤ b₁.chip.memory.size := by
        rw [← knows.layout_size, ← Nat.succ_mul]
        exact bound
      have pages : pageSize ∣ unit.size := by cases unit <;> decide
      have aligned : pageSize ∣ sector * data.length :=
        Nat.dvd_mul_left_of_dvd (whole ▸ Nat.dvd_mul_left_of_dvd pages perSector) sector
      have front := Memory.programPieces_take_splitPages aligned inside knows.size_lt_limit k
      rw [← programmed] at front
      exact .of_programmed (whole ▸ Nat.dvd_mul_left_of_dvd pages perSector) stored front
  · rintro _ _ b₁ ⟨-, k, le, blanks⟩
    rw [start] at blanks
    exact .inl ⟨k, by rw [whole]; exact Nat.mul_le_mul_right _ le, blanks⟩

/-! ### Geometry of a settled disk -/

/-- The disk is laid out over the sectors of its settled driver. -/
structure Laid (alone : Prop) (unit : EraseUnit) (d : Disk) (b : Bench) : Prop where
  settled : d.flash.Settled alone unit b
  pos : 0 < d.sectorSize
  whole : d.flashSectors * unit.size = d.sectorSize

/-- A format that fits makes logical sectors of whole erase units. -/
theorem whole_of_fits (tiled : d.flash.layout.sectorSize = unit.size)
    (fits : (d.format.resolve? unit.size).isSome) :
    0 < d.sectorSize ∧ d.flashSectors * unit.size = d.sectorSize := by
  obtain ⟨size, resolved⟩ := Option.isSome_iff_exists.mp fits
  obtain ⟨-, pos, -, divides⟩ := DiskFormat.resolve?_eq_some_iff.mp resolved
  have sectorSize : d.sectorSize = size := by
    rw [Disk.sectorSize, tiled, resolved]
    rfl
  refine ⟨by rw [sectorSize]; exact pos, ?_⟩
  rw [flashSectors, tiled, sectorSize]
  exact Nat.div_mul_cancel divides

theorem Settled.laid (h : d.Settled alone b) : ∃ unit, d.Laid alone unit b := by
  obtain ⟨unit, settled, fits⟩ := h
  obtain ⟨pos, whole⟩ := whole_of_fits settled.attuned.sectorSize fits
  exact ⟨unit, settled, pos, whole⟩

namespace Laid

variable (h : d.Laid alone unit b)

include h

theorem flashSectors_pos : 0 < d.flashSectors :=
  Nat.pos_of_mul_pos_right (h.whole ▸ h.pos)

end Laid

/-- A span is a whole number of sectors that lies inside the device. -/
theorem span?_eq_some {start length count : Nat} (h : d.span? start length = some count) :
    count * d.sectorSize = length ∧ start + count ≤ d.sectorCount := by
  simp only [span?] at h
  split at h
  · next whole =>
    split at h
    · next stop sum =>
      obtain ⟨-, rfl⟩ := Word32.add?_eq_some_iff.mp sum
      split at h
      · next inside =>
        cases h
        exact ⟨Nat.div_mul_cancel (Nat.dvd_of_mod_eq_zero whole.1), inside⟩
      · contradiction
    · contradiction
  · contradiction

/-- Sectors that are counted lie inside the device. -/
theorem mul_sectorSize_le {sector : Nat} (h : sector ≤ d.sectorCount) :
    sector * d.sectorSize ≤ d.flash.layout.size :=
  Nat.le_trans (Nat.mul_le_mul_right _ h) (Nat.div_mul_le_self _ _)

theorem sectors_succ_mul (sector count size : Nat) :
    (sector + (count + 1)) * size = (sector + 1) * size + count * size := by
  rw [← Nat.add_mul, Nat.add_assoc, Nat.add_comm 1]

/-! ### Operations on sectors -/

theorem ensures_guardReady : guardReady.Ensures d b
    (fun _ d' b' => d' = d ∧ b' = b ∧ d.flash.state = .ready)
    fun _ _ _ => d.flash.state ≠ .ready := by
  simp only [guardReady, ensures_bind, ensures_get, ensures_ite, ensures_pure, ensures_throw]
  exact ⟨fun ready => ⟨trivial, trivial, ready⟩, fun unready => unready⟩

theorem ensures_guardSpan (start length : Nat) : (guardSpan start length).Ensures d b
    (fun count d' b' => d' = d ∧ b' = b ∧ d.span? start length = some count)
    fun _ _ _ => d.span? start length = none := by
  rw [guardSpan, ensures_bind, ensures_get]
  split
  · next count found => exact ⟨rfl, rfl, found⟩
  · next none => exact none

/-- Reading the protection bits touches no cell, and takes one off the busy time. -/
theorem ensures_guardWritable (laid : d.Laid alone unit b) (ready : d.flash.state = .ready) :
    guardWritable.Ensures d b
      (fun _ d' b' => d' = d ∧ d.Laid alone unit b' ∧ b.chip.Endures b'.chip ∧
        (b.chip.busyFor (b.chip.busyReads - 1)).Alike b'.chip)
      fun _ _ _ => True := by
  have awake := (laid.settled.attuned.awake (by rw [ready]; trivial)).2
  have protection : Driver.isProtected.Ensures d.flash b
      (fun _ flash' b' => flash' = d.flash ∧
        (b.chip.busyFor (b.chip.busyReads - 1)).Alike b'.chip) fun _ _ _ => True := by
    rw [Driver.isProtected, ensures_bind]
    exact (Driver.ensures_readStatus1_awake awake).mono (fun _ _ _ h => h.2) fun _ _ _ _ => trivial
  rw [guardWritable, ensures_bind, Driver.ensures_onFlash]
  refine ((((Driver.settled_lasts alone unit).isProtected d.flash b laid.settled).and
    (ensures_endures _)).and protection).mono ?_ fun _ _ _ _ => trivial
  intro isProtected flash b' ended
  obtain ⟨⟨settled, -, endures⟩, rfl, chip⟩ := ended
  cases isProtected with
  | false => exact ⟨rfl, ⟨settled, laid.pos, laid.whole⟩, endures, chip⟩
  | true => trivial

/-- Sectors that have been written hold their data. -/
theorem ensures_writeFrom (laid : d.Laid True unit b) {completed count sector : Nat} {data : Bytes}
    (length : data.length = count * d.sectorSize)
    (bound : (sector + count) * d.sectorSize ≤ d.flash.layout.size) :
    (writeFrom completed count sector data).Ensures d b
      (fun _ d' b' => d' = d ∧ b'.chip.isBusy = (b.chip.isBusy && count == 0) ∧
        b.chip.memory.StoresTo (sector * d.sectorSize) data b'.chip.memory)
      fun _ _ _ => True := by
  induction count generalizing completed sector data b with
  | zero =>
    obtain rfl : data = [] := List.length_eq_zero_iff.mp (by simpa using length)
    exact ⟨rfl, by simp, .nil _ _⟩
  | succ count ih =>
    have split := sectors_succ_mul sector count d.sectorSize
    rw [split] at bound
    rw [Nat.succ_mul] at length
    have taken : (data.take d.sectorSize).length = d.sectorSize := by
      rw [List.length_take]
      omega
    have inside : (sector + 1) * (data.take d.sectorSize).length ≤ d.flash.layout.size := by
      rw [taken]
      omega
    have replaced := ensures_replaceSector laid.settled laid.flashSectors_pos
      (taken.trans laid.whole.symm) inside
    rw [writeFrom, ensures_bind, ensures_get, ensures_bind, Driver.ensures_onFlash]
    refine ((Driver.keeps_replaceSector _ _ _ _ _ laid.settled).and replaced).mono ?_
      fun _ _ _ _ => trivial
    intro _ flash b₁ ended
    obtain ⟨settled₁, rfl, idle₁, first⟩ := ended
    refine (ih ⟨settled₁, laid.pos, laid.whole⟩ ?_ ?_).mono ?_ fun _ _ _ _ => trivial
    · rw [List.length_drop]
      omega
    · rw [Nat.add_assoc, Nat.add_comm 1, split]
      exact bound
    · intro _ d' b' ended
      obtain ⟨rfl, idle, rest⟩ := ended
      refine ⟨rfl, by simp [idle, idle₁], ?_⟩
      rw [taken] at first
      rw [Nat.succ_mul] at rest
      have both := first.append (by rwa [taken])
      rwa [List.take_append_drop] at both

/-- A write that succeeds has stored its data. The chip is idle behind it, or as busy behind a
write of nothing as the protection check has left it. -/
theorem ensures_write_busy (laid : d.Laid True unit b) (start : Nat) (data : Bytes) :
    (write start data).Ensures d b
      (fun n d' b' => d.flash.state = .ready ∧ d' = d ∧ d.span? start data.length = some n ∧
        b.chip.memory.StoresTo (start * d.sectorSize) data b'.chip.memory ∧
        b'.chip.isBusy = ((b.chip.busyFor (b.chip.busyReads - 1)).isBusy && n == 0))
      fun _ _ _ => True := by
  rw [write, ensures_bind]
  refine ensures_guardReady.mono ?_ fun _ _ _ _ => trivial
  intro _ d b ended
  obtain ⟨rfl, rfl, ready⟩ := ended
  rw [ensures_bind]
  refine (ensures_guardSpan start data.length).mono ?_ fun _ _ _ _ => trivial
  intro count d b ended
  obtain ⟨rfl, rfl, span⟩ := ended
  obtain ⟨length, inside⟩ := span?_eq_some span
  rw [ensures_bind]
  refine (ensures_guardWritable laid ready).mono ?_ fun _ _ _ _ => trivial
  intro _ d b₁ ended
  obtain ⟨rfl, laid₁, -, chip⟩ := ended
  rw [ensures_bind]
  refine (ensures_writeFrom laid₁ length.symm (mul_sectorSize_le inside)).mono ?_
    fun _ _ _ _ => trivial
  intro _ d b₂ ended
  obtain ⟨rfl, busy, stored⟩ := ended
  refine ⟨ready, rfl, span, ?_, by rw [busy, chip.isBusy]⟩
  rwa [chip.memory] at stored

/-- A successful write is real: the data is stored, and nothing else has changed. -/
theorem ensures_write (laid : d.Laid True unit b) (start : Nat) (data : Bytes) :
    (write start data).Ensures d b
      (fun n d' b' => d.flash.state = .ready ∧ d' = d ∧ d.span? start data.length = some n ∧
        b.chip.memory.StoresTo (start * d.sectorSize) data b'.chip.memory ∧
        (b'.chip.isBusy = true → data = []))
      fun _ _ _ => True := by
  refine (ensures_write_busy laid start data).mono ?_ fun _ _ _ _ => trivial
  intro n d' b' ended
  obtain ⟨ready, same, span, stored, idle⟩ := ended
  refine ⟨ready, same, span, stored, fun busy => ?_⟩
  -- only a write of nothing can leave the chip as busy as it was
  rw [idle] at busy
  have none : n = 0 := by simpa using (Bool.and_eq_true_iff.mp busy).2
  exact List.length_eq_zero_iff.mp (by rw [← (span?_eq_some span).1, none, Nat.zero_mul])

/-- A read shows what the chip shows. With a ready driver and sectors inside the device
only an armed fault can stop it. -/
theorem ensures_readFrom (laid : d.Laid True unit b) (ready : d.flash.state = .ready)
    {completed count sector : Nat}
    (bound : (sector + count) * d.sectorSize ≤ d.flash.layout.size) :
    (readFrom completed count sector).Ensures d b
      (fun bytes d' b' => d' = d ∧ b'.chip.memory = b.chip.memory ∧
        bytes = b.chip.shown (sector * d.sectorSize) (count * d.sectorSize))
      fun e _ _ => b.chip.faults ≠ .none ∧ ∃ completed, e = .failed completed := by
  induction count generalizing completed sector b with
  | zero => exact ⟨rfl, rfl, by simp⟩
  | succ count ih =>
    have knows := laid.settled.attuned.knows (by rw [ready]; trivial)
    have word := knows.size_lt_limit
    have split : (sector + (count + 1)) * d.sectorSize =
        sector * d.sectorSize + d.sectorSize + count * d.sectorSize := by
      rw [← Nat.succ_mul, ← Nat.add_mul, Nat.succ_add, ← Nat.add_succ]
    rw [split, knows.layout_size] at bound
    have offset : d.offsetOf? sector = some (sector * d.sectorSize) :=
      Word32.mul?_eq_some_iff.mpr ⟨by omega, rfl⟩
    have shown := ((Driver.keeps_read (sector * d.sectorSize) d.sectorSize d.flash b
      laid.settled).and (ensures_endures _)).and
      (Driver.ensures_read laid.settled (sector * d.sectorSize) d.sectorSize)
    simp only [readFrom, ensures_bind, ensures_get, offset, Driver.ensures_onFlash]
    apply shown.mono
    · intro bytes _ b₁ ended
      obtain ⟨⟨settled₁, -, endures⟩, -, rfl, -, rfl, memory, busy⟩ := ended
      refine (ih ⟨settled₁, laid.pos, laid.whole⟩ ?_).mono ?_ ?_
      · rw [Nat.succ_add, ← Nat.add_succ, split, knows.layout_size]
        exact bound
      · intro rest d' b₂ ended
        obtain ⟨rfl, memory₂, rfl⟩ := ended
        refine ⟨rfl, memory₂.trans memory, ?_⟩
        rw [Nat.succ_mul count, Nat.add_comm (count * _), Chip.shown_add, ← Nat.succ_mul]
        congr 1
        simp only [Chip.shown, memory, busy]
      · rintro e _ _ ⟨faults, failed⟩
        exact ⟨fun none => faults (endures.noFaults none), failed⟩
    · rintro e _ b₁ ⟨-, faults⟩
      exact ⟨faults ready (by omega), completed, rfl⟩

theorem ensures_read (laid : d.Laid True unit b) (start length : Nat) :
    (read start length).Ensures d b
      (fun (n, bytes) d' b' => d.flash.state = .ready ∧ d' = d ∧
        d.span? start length = some n ∧ b'.chip.memory = b.chip.memory ∧
        bytes = b.chip.shown (start * d.sectorSize) length)
      fun e _ _ => d.flash.state = .ready → ∀ n, d.span? start length = some n →
        b.chip.faults ≠ .none ∧ ∃ completed, e = .failed completed := by
  rw [read, ensures_bind]
  refine ensures_guardReady.mono ?_ fun _ _ _ unready ready => absurd ready unready
  intro _ d b ended
  obtain ⟨rfl, rfl, ready⟩ := ended
  rw [ensures_bind]
  refine (ensures_guardSpan start length).mono ?_ fun _ _ _ none _ n found => ?_
  · intro count d b ended
    obtain ⟨rfl, rfl, span⟩ := ended
    obtain ⟨whole, inside⟩ := span?_eq_some span
    rw [ensures_bind]
    refine (ensures_readFrom laid ready (mul_sectorSize_le inside)).mono ?_
      fun _ _ _ failed _ _ _ => failed
    intro bytes d' b' ended
    obtain ⟨rfl, memory, rfl⟩ := ended
    exact ⟨ready, rfl, span, memory, by rw [whole]⟩
  · rw [none] at found
    contradiction

/-- A trim erases its sectors, except that a chip still busy behind the protection check
has lost the first flash sector. One that fails has erased the sectors that its error counts, and
so many flash sectors of the next. -/
theorem ensures_trimFrom (laid : d.Laid alone unit b) (completed : Nat) {count sector : Nat}
    (bound : (sector + count) * d.sectorSize ≤ d.flash.layout.size) :
    (trimFrom completed count sector).Ensures d b
      (fun _ d' b' => d' = d ∧ b.chip.memory.ErasesTo b.chip.stuckCells
        (if b.chip.isBusy then sector * d.sectorSize + unit.size else sector * d.sectorSize)
        ((sector + count) * d.sectorSize) b'.chip.memory)
      fun e _ b' => ∃ k n, e = .failed (completed + k) ∧ k < count ∧ n ≤ d.flashSectors ∧
        b.chip.memory.ErasesTo b.chip.stuckCells
          (if b.chip.isBusy then sector * d.sectorSize + unit.size else sector * d.sectorSize)
          ((sector + k) * d.sectorSize + n * unit.size) b'.chip.memory := by
  induction count generalizing completed sector b with
  | zero =>
    refine ⟨rfl, .empty _ _ ?_⟩
    split <;> simp
  | succ count ih =>
    have split := sectors_succ_mul sector count d.sectorSize
    rw [split] at bound
    have erased := ensures_eraseUnder laid.settled laid.flashSectors_pos
      (by rw [laid.whole]; omega)
      (Driver.ensures_eraseRun laid.settled d.flashSectors (sector * d.flashSectors))
    have first_start : sector * d.flashSectors * unit.size = sector * d.sectorSize := by
      rw [Nat.mul_assoc, laid.whole]
    rw [trimFrom, ensures_bind, ensures_get, ensures_bind, Driver.ensures_onFlash]
    refine (((Driver.keeps_eraseUnder _ _ _ _ _ laid.settled).and (ensures_endures _)).and
      erased).mono ?_ ?_
    · intro _ flash b₁ ended
      obtain ⟨⟨settled₁, -, endures⟩, rfl, -, idle₁, first⟩ := ended
      -- a sector has at least one flash sector, and the wait behind it leaves the chip idle
      have idle : b₁.chip.isBusy = false := by
        rw [idle₁]
        simp [Nat.ne_of_gt laid.flashSectors_pos]
      have unit_le : unit.size ≤ d.sectorSize := by
        rw [← laid.whole]
        exact Nat.le_mul_of_pos_left _ laid.flashSectors_pos
      rw [Nat.add_mul, first_start, laid.whole, ← Nat.succ_mul] at first
      have cons {stop : Nat} {m : Memory} (le : (sector + 1) * d.sectorSize ≤ stop)
          (rest : b₁.chip.memory.ErasesTo b₁.chip.stuckCells
            (if b₁.chip.isBusy then (sector + 1) * d.sectorSize + unit.size
              else (sector + 1) * d.sectorSize) stop m) :
          b.chip.memory.ErasesTo b.chip.stuckCells
            (if b.chip.isBusy then sector * d.sectorSize + unit.size
              else sector * d.sectorSize) stop m := by
        rw [idle, if_neg Bool.false_ne_true, endures.stuckCells] at rest
        refine first.append rest ?_ le
        rw [Nat.succ_mul]
        split <;> omega
      refine (ih ⟨settled₁, laid.pos, laid.whole⟩ _ ?_).mono ?_ ?_
      · rw [Nat.add_assoc, Nat.add_comm 1, split]
        exact bound
      · rintro _ d b' ⟨rfl, rest⟩
        rw [Nat.add_assoc, Nat.add_comm 1] at rest
        exact ⟨rfl, cons (by rw [split]; omega) rest⟩
      · rintro e _ b' ⟨k, n, rfl, lt, le, rest⟩
        rw [Nat.add_assoc sector, Nat.add_comm 1 k] at rest
        refine ⟨k + 1, n, by rw [Nat.add_assoc, Nat.add_comm 1], Nat.succ_lt_succ lt, le,
          cons ?_ rest⟩
        rw [sectors_succ_mul sector k]
        omega
    · rintro _ flash b₁ ⟨-, n, le, first⟩
      rw [Nat.add_mul, first_start] at first
      exact ⟨0, n, rfl, count.succ_pos, le, first⟩

theorem ensures_trim (laid : d.Laid alone unit b) (ready : d.flash.state = .ready)
    (free : b.chip.stuckBusy = false) (start stop : Nat) :
    (trim start stop).Ensures d b
      (fun _ d' b' => d' = d ∧ start ≤ stop ∧ stop ≤ d.sectorCount ∧
        b.chip.memory.ErasesTo b.chip.stuckCells
          (if 1 < b.chip.busyReads then start * d.sectorSize + unit.size else start * d.sectorSize)
          (stop * d.sectorSize) b'.chip.memory)
      fun _ _ _ => True := by
  simp only [trim, ensures_bind, ensures_get, ensures_ite, ensures_throw]
  refine ⟨fun _ => trivial, fun range => ?_⟩
  obtain ⟨le, inside⟩ : start ≤ stop ∧ stop ≤ d.sectorCount := by omega
  refine (ensures_guardWritable laid ready).mono ?_ fun _ _ _ _ => trivial
  intro _ d b₁ ended
  obtain ⟨rfl, laid₁, endures, chip⟩ := ended
  have bound := mul_sectorSize_le inside
  refine (ensures_trimFrom laid₁ 0 (by rwa [Nat.add_sub_cancel' le])).mono ?_ fun _ _ _ _ => trivial
  rintro _ d b₂ ⟨rfl, erased⟩
  refine ⟨rfl, le, inside, ?_⟩
  have busy : b₁.chip.isBusy = decide (1 < b.chip.busyReads) := by
    rw [chip.isBusy, Chip.isBusy_busyFor free]
    exact decide_eq_decide.mpr Nat.lt_sub_iff_add_lt
  have memory : b₁.chip.memory = b.chip.memory := chip.memory
  rw [busy, memory, endures.stuckCells, Nat.add_sub_cancel' le] at erased
  simpa using erased

theorem ensures_control_trim (laid : d.Laid alone unit b) (free : b.chip.stuckBusy = false)
    (start stop : Nat) :
    (control (.trim start stop)).Ensures d b
      (fun _ d' b' => d' = d ∧ start ≤ stop ∧ stop ≤ d.sectorCount ∧
        b.chip.memory.ErasesTo b.chip.stuckCells
          (if 1 < b.chip.busyReads then start * d.sectorSize + unit.size else start * d.sectorSize)
          (stop * d.sectorSize) b'.chip.memory)
      fun _ _ _ => True := by
  rw [control, ensures_bind]
  refine ensures_guardReady.mono ?_ fun _ _ _ _ => trivial
  intro _ d b ended
  obtain ⟨rfl, rfl, ready⟩ := ended
  simp only [ensures_bind, ensures_pure]
  exact ensures_trim laid ready free start stop

end Disk

end SerialFlash
