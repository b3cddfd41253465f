import SerialFlash.Proofs.Transfer

/-!
What erases have done when they succeed, and how far a verified run of them has come that
fails. An erase that was told to a busy chip is lost,
and nobody is told: the wait behind it ends when the chip has finished what it did
before. A verified erase is not lost silently, because every byte of the sector is read
back from a chip that has been found idle.
-/

namespace SerialFlash

/-- The unit that an instruction erases on a chip of a capacity, by its size and an address in
it. -/
def Instruction.erasedUnit? (capacity : Nat) : Instruction → Option (Nat × Nat)
  | eraseSector unit address => some (unit.size, address)
  | eraseChip => some (capacity, 0)
  | _ => none

theorem Instruction.gentle_of_erasedUnit? {i : Instruction} {capacity size address : Nat}
    (erases : i.erasedUnit? capacity = some (size, address)) : i.Gentle := by
  cases i <;> trivial

/-- An erase that comes to an awake chip behind a write enable is lost if the chip is busy. -/
theorem Chip.enabled_erase {c : Chip} {l : Link} (awake : c.poweredDown = false) {i : Instruction}
    {size address : Nat} (erases : i.erasedUnit? c.memory.size = some (size, address)) :
    (c.enabled.obey l i).2 = if c.isBusy then c else c.eraseUnit size address := by
  have taken : (c.enabled.obey l i).2 = if c.enabled.responsive && c.enabled.writeEnabled then
      c.enabled.eraseUnit size address else c.enabled := by
    cases i with
    | eraseSector unit address =>
      cases erases
      rw [obey_eraseSector]
    | eraseChip =>
      cases erases
      rw [obey_eraseChip, memory_enabled]
    | _ => contradiction
  rw [taken, enabled]
  cases busy : c.isBusy with
  | true => simp [responsive_of_awake awake, busy]
  | false =>
    have idle : ({ c with writeEnabled := true } : Chip).responsive = true := by
      rw [← Bool.not_false, ← busy]
      exact responsive_of_awake awake
    simp [idle, eraseUnit]

namespace Driver

open Procedure

variable {alone : Prop} {unit : EraseUnit} {d : Driver} {b : Bench}

/-! ### Waiting for the end -/

/-- While an erase is outstanding, only a chip found idle counts as done. -/
theorem ensures_eraseProgress (erasing : d.state = .erasing) :
    eraseProgress.Ensures d b
      (fun progress d' b' =>
        match progress with
        | .done => d' = { d with state := .ready } ∧ b.Idles b'
        | .running _ => d' = d ∧ b'.link = b.link ∧ ∃ reads, (b.chip.busyFor reads).Alike b'.chip)
      fun _ _ _ => True := by
  simp only [eraseProgress, ensures_bind, ensures_get, erasing]
  refine ensures_liftM_readStatus1 (fun _ _ _ _ => trivial) (fun reply reads b' set link chip => ?_)
    fun reply b' idles => ?_
  · simp only [set, if_true, ensures_pure]
    exact ⟨trivial, link, reads, chip⟩
  · simp only [ensures_ite, ensures_pure, ensures_bind, ensures_setState]
    exact ⟨fun _ => ⟨trivial, idles.link, 0, idles.chip⟩, fun _ => ⟨trivial, idles⟩⟩

theorem ensures_finishWithin (erasing : d.state = .erasing) (remaining : Nat) :
    (finishWithin remaining).Ensures d b
      (fun _ d' b' => d' = { d with state := .ready } ∧ b.Idles b') fun _ _ _ => True := by
  induction remaining generalizing b with
  | zero =>
    rw [finishWithin, ensures_bind]
    refine (ensures_eraseProgress erasing).mono (fun progress d' b' h => ?_) fun _ _ _ _ => trivial
    cases progress with
    | done => exact h
    | running _ => trivial
  | succ remaining ih =>
    rw [finishWithin, ensures_bind]
    refine (ensures_eraseProgress erasing).mono (fun progress d' b' h => ?_) fun _ _ _ _ => trivial
    cases progress with
    | done => exact h
    | running retryAfter =>
      obtain ⟨rfl, link, reads, polled⟩ := h
      simp only [ensures_bind, ensures_sleep]
      exact ih.mono (fun _ _ _ h => ⟨h.1, h.2.of_poll link polled⟩) fun _ _ _ _ => trivial

theorem ensures_finishErase (erasing : d.state = .erasing) :
    finishErase.Ensures d b
      (fun _ d' b' => d' = { d with state := .ready } ∧ b.Idles b') fun _ _ _ => True := by
  rw [finishErase, ensures_bind, ensures_get]
  exact ensures_finishWithin erasing _

/-! ### One erase -/

section

variable {i : Instruction} {size address : Nat} (settled : d.Settled alone unit b) (fits : i.Fits)
  (erases : i.erasedUnit? b.chip.memory.size = some (size, address))

include settled fits erases

theorem ensures_beginErase :
    (beginErase i).Ensures d b
      (fun _ d' b' => d.state = .ready ∧ d' = { d with state := .erasing } ∧
        b'.chip.memory = if b.chip.isBusy then b.chip.memory
          else b.chip.memory.erase size address b.chip.stuckCells)
      fun _ _ b' => b'.chip.memory = b.chip.memory := by
  simp only [beginErase, ensures_bind, ensures_guardReady, ensures_setState]
  refine ⟨fun ready => ?_, fun _ => trivial⟩
  have awake := (settled.attuned.awake (by rw [ready]; trivial)).2
  refine ensures_enabled fits awake (fun _ _ _ memory => memory) fun reply b' link chip => ?_
  rw [Chip.enabled_erase awake erases] at chip
  refine ⟨ready, rfl, ?_⟩
  rw [chip.memory]
  split <;> rfl

/-- The rule for an erase from its start to its end. -/
theorem ensures_eraseToEnd {good : Unit → Driver → Bench → Prop}
    {bad : DriverError BusError → Driver → Bench → Prop}
    (refused : ∀ e d' b', b'.chip.memory = b.chip.memory → bad e d' b')
    (failed : ∀ e d' b', d.state = .ready → b'.chip.memory = (if b.chip.isBusy then b.chip.memory
      else b.chip.memory.erase size address b.chip.stuckCells) → bad e d' b')
    (done : ∀ b', d.state = .ready → d.Settled alone unit b' → b.chip.Endures b'.chip →
      b'.chip.isBusy = false → b'.chip.memory = (if b.chip.isBusy then b.chip.memory
        else b.chip.memory.erase size address b.chip.stuckCells) → good () d b') :
    (beginErase i).Ensures d b (fun _ d b => finishErase.Ensures d b good bad) bad := by
  have begun := ((keeps_beginErase (Instruction.gentle_of_erasedUnit? erases) d b settled).and
    (ensures_endures _)).and (ensures_beginErase settled fits erases)
  refine begun.mono ?_ fun e d' b' ended => refused e d' b' ended.2
  intro _ _ b₁ ended
  obtain ⟨⟨settled₁, -, endures₁⟩, ready, rfl, memory⟩ := ended
  -- the wait ends on an idle chip, whether or not it has taken the erase
  have finished := (((keeps_finishErase _ b₁ settled₁).and (ensures_endures _)).and
    (ensures_finishErase rfl)).and ((always_finishErase_of_erasing rfl).ensures_undisturbed
      fun _ => Instruction.Looks.passive)
  refine finished.mono ?_ fun e d' b' ended => failed e d' b' ready (ended.2.memory.trans memory)
  intro _ d₂ b₂ ended
  obtain ⟨⟨⟨settled₂, -, endures₂⟩, same, idles⟩, -⟩ := ended
  obtain rfl : d₂ = d := by rw [same, ← ready]
  exact done b₂ ready settled₂ (endures₁.trans endures₂) idles.isBusy (idles.memory.trans memory)

end

theorem ensures_sectorStart {sector : Nat} :
    (sectorStart sector).Ensures d b
      (fun start d' b' => d.layout.sectorStart? sector = some start ∧ d' = d ∧ b' = b)
      fun _ _ b' => d.layout.sectorStart? sector = none ∧ b' = b := by
  rw [sectorStart, ensures_bind, ensures_get]
  split
  · next start found => exact ⟨found, rfl, rfl⟩
  · next none => exact ⟨none, rfl⟩

/-- The same for a sector of the device. -/
theorem ensures_eraseSector (settled : d.Settled alone unit b) {sector : Nat}
    {good : Unit → Driver → Bench → Prop} {bad : DriverError BusError → Driver → Bench → Prop}
    (refused : ∀ e d' b', b'.chip.memory = b.chip.memory → bad e d' b')
    (failed : ∀ e d' b', d.state = .ready → sector < d.layout.sectorCount →
      b'.chip.memory = (if b.chip.isBusy then b.chip.memory
        else b.chip.memory.erase unit.size (sector * unit.size) b.chip.stuckCells) →
      bad e d' b')
    (done : ∀ b', d.state = .ready → sector < d.layout.sectorCount → d.Settled alone unit b' →
      b.chip.Endures b'.chip → b'.chip.isBusy = false →
      b'.chip.memory = (if b.chip.isBusy then b.chip.memory
        else b.chip.memory.erase unit.size (sector * unit.size) b.chip.stuckCells) →
      good () d b') :
    (beginEraseSector sector).Ensures d b
      (fun _ d b => finishErase.Ensures d b good bad) bad := by
  simp only [beginEraseSector, ensures_bind, ensures_guardReady, ensures_get]
  refine ⟨fun ready => ?_, fun _ => refused _ _ _ rfl⟩
  have knows := settled.attuned.knows (by rw [ready]; trivial)
  refine ensures_sectorStart.mono ?_ fun e d' b' ended => refused e d' b' (by rw [ended.2])
  intro start d b ended
  obtain ⟨found, rfl, rfl⟩ := ended
  obtain ⟨inside, rfl⟩ := knows.sectorStart?_eq_some_iff.mp found
  rw [settled.attuned.eraseUnit]
  refine ensures_eraseToEnd settled (i := .eraseSector unit _) ?_ rfl refused
    (fun e d' b' ready => failed e d' b' ready inside)
    fun b' ready settled endures => done b' ready inside settled endures
  exact Nat.lt_of_lt_of_le (settled.attuned.sector_lt knows inside) knows.size_bounds.2.2

/-! ### Runs of erases -/

/-- A run of 4 KiB erases: a chip that was busy has lost the first of them. -/
theorem ensures_eraseFrom (settled : d.Settled alone unit b) {units offset : Nat}
    (aligned : sectorSize4K ∣ offset) (bound : offset + units * sectorSize4K ≤ d.layout.size) :
    (Nor.eraseFrom units offset).Ensures d b
      (fun _ d' b' => d' = d ∧
        b.chip.memory.ErasesTo b.chip.stuckCells
          (if b.chip.isBusy then offset + sectorSize4K else offset)
          (offset + units * sectorSize4K) b'.chip.memory)
      fun _ _ _ => True := by
  induction units generalizing offset b with
  | zero =>
    refine ⟨rfl, .empty _ _ ?_⟩
    split <;> omega
  | succ units ih =>
    have stop : offset + (units + 1) * sectorSize4K =
        offset + sectorSize4K + units * sectorSize4K := by
      rw [Nat.add_mul, Nat.one_mul, Nat.add_comm (units * sectorSize4K), Nat.add_assoc]
    rw [stop] at bound ⊢
    have knows := settled.attuned.knows_of_size_pos (by unfold sectorSize4K at bound; omega)
    have word := knows.size_lt_limit
    have reach := knows.size_bounds.2.2
    rw [knows.layout_size] at bound
    have inside : offset < b.chip.memory.size := by unfold sectorSize4K at bound; omega
    have next : Word32.satAdd offset Nor.eraseSize = offset + sectorSize4K :=
      Word32.satAdd_of_lt (by show offset + sectorSize4K < _; omega)
    simp only [Nor.eraseFrom, ensures_bind, next]
    -- only the first erase of the run can meet a busy chip
    have fits : (Instruction.eraseSector .sector4K offset).Fits := by
      show offset < 16777216
      omega
    refine ensures_eraseToEnd settled fits rfl (fun _ _ _ _ => trivial)
      (fun _ _ _ _ _ => trivial) fun b₁ _ settled₁ endures idle memory => ?_
    have aligned₁ : sectorSize4K ∣ offset + sectorSize4K := Nat.dvd_add aligned (Nat.dvd_refl _)
    have rest := ih settled₁ aligned₁ (by rw [knows.layout_size]; omega)
    refine rest.mono ?_ fun _ _ _ _ => trivial
    rintro _ d' b' ⟨same, erased⟩
    refine ⟨same, ?_⟩
    rw [idle, if_neg Bool.false_ne_true, endures.stuckCells] at erased
    exact .cons (knows.unit_dvd .sector4K) aligned inside memory erased (Nat.le_add_right _ _)

theorem ensures_norErase (settled : d.Settled alone unit b) (start stop : Nat) :
    (Nor.erase start stop).Ensures d b
      (fun _ d' b' => d' = d ∧ start ≤ stop ∧ stop ≤ d.layout.size ∧
        b.chip.memory.ErasesTo b.chip.stuckCells
          (if b.chip.isBusy then start + sectorSize4K else start) stop b'.chip.memory)
      fun _ _ _ => True := by
  simp only [Nor.erase, ensures_bind, ensures_get, ensures_ite, ensures_throw]
  refine ⟨fun _ => trivial, fun range => ⟨fun aligned => ?_, fun _ => trivial⟩⟩
  obtain ⟨first, last⟩ := aligned
  have units : start + (stop - start) / Nor.eraseSize * sectorSize4K = stop := by
    simp only [Nor.eraseSize, sectorSize4K] at first last ⊢
    omega
  have bound : start + (stop - start) / Nor.eraseSize * sectorSize4K ≤ d.layout.size := by
    rw [units]
    omega
  have erased := ensures_eraseFrom settled (Nat.dvd_of_mod_eq_zero first) bound
  rw [units] at erased
  exact erased.mono (fun _ _ _ h => ⟨h.1, by omega, by omega, h.2⟩) fun _ _ _ _ => trivial

/-- The same for sectors of the device that are not verified. A run that fails has erased the first
so many of them. -/
theorem ensures_eraseRun (settled : d.Settled alone unit b) (count sector : Nat) :
    (Disk.eraseRun false count sector).Ensures d b
      (fun _ d' b' => d' = d ∧ b'.chip.isBusy = (b.chip.isBusy && count == 0) ∧
        b.chip.memory.ErasesTo b.chip.stuckCells
          (if b.chip.isBusy then sector * unit.size + unit.size else sector * unit.size)
          ((sector + count) * unit.size) b'.chip.memory)
      fun _ _ b' => ∃ n ≤ count, b.chip.memory.ErasesTo b.chip.stuckCells
        (if b.chip.isBusy then sector * unit.size + unit.size else sector * unit.size)
        ((sector + n) * unit.size) b'.chip.memory := by
  induction count generalizing sector b with
  | zero =>
    refine ⟨rfl, by simp, .empty _ _ ?_⟩
    split <;> simp
  | succ count ih =>
    -- the first erase may have been lost, and behind it the run goes on
    have cons {b₁ : Bench} {m : Memory} {n : Nat} (ready : d.state = .ready)
        (inside : sector < d.layout.sectorCount)
        (memory : b₁.chip.memory = if b.chip.isBusy then b.chip.memory
          else b.chip.memory.erase unit.size (sector * unit.size) b.chip.stuckCells)
        (rest : b₁.chip.memory.ErasesTo b.chip.stuckCells ((sector + 1) * unit.size)
          ((sector + 1 + n) * unit.size) m) :
        b.chip.memory.ErasesTo b.chip.stuckCells
          (if b.chip.isBusy then sector * unit.size + unit.size else sector * unit.size)
          ((sector + (n + 1)) * unit.size) m := by
      have knows := settled.attuned.knows (by rw [ready]; trivial)
      rw [Nat.succ_mul, Nat.add_assoc, Nat.add_comm 1] at rest
      refine .cons (knows.unit_dvd unit) (Nat.dvd_mul_left _ _)
        (settled.attuned.sector_lt knows inside) memory rest ?_
      rw [← Nat.succ_mul]
      exact Nat.mul_le_mul_right _ (by omega)
    simp only [Disk.eraseRun, ensures_bind]
    refine ensures_eraseSector settled (fun _ _ _ same => ?_)
      (fun _ _ _ ready inside memory => ?_) fun b₁ ready inside settled₁ endures idle memory => ?_
    · refine ⟨0, Nat.zero_le _, same ▸ .empty _ _ ?_⟩
      split <;> simp
    · exact ⟨1, Nat.le_add_left _ _, cons ready inside memory (.empty _ _ (Nat.le_refl _))⟩
    rw [if_neg Bool.false_ne_true]
    have start : (if b₁.chip.isBusy then (sector + 1) * unit.size + unit.size
        else (sector + 1) * unit.size) = (sector + 1) * unit.size := by
      rw [idle, if_neg Bool.false_ne_true]
    refine (ih settled₁ _).mono ?_ ?_
    · intro _ d' b' ended
      obtain ⟨same, idle', erased⟩ := ended
      rw [start, endures.stuckCells] at erased
      exact ⟨same, by simp [idle', idle], cons ready inside memory erased⟩
    · rintro _ _ b' ⟨n, le, erased⟩
      rw [start, endures.stuckCells] at erased
      exact ⟨n + 1, Nat.succ_le_succ le, cons ready inside memory erased⟩

/-! ### Verified erases -/

/-- A check that succeeds has seen every byte erased. -/
theorem ensures_checkFrom (held : d.Held True unit b) (idle : b.chip.isBusy = false)
    {step chunks offset : Nat} (pos : 0 < step)
    (bound : offset + chunks * step ≤ b.chip.memory.size) :
    (checkFrom erasedByte step chunks offset).Ensures d b
      (fun _ d' b' => d' = d ∧ b'.chip.isBusy = false ∧ b'.chip.memory = b.chip.memory ∧
        b.chip.memory.slice offset (chunks * step) = List.replicate (chunks * step) erasedByte)
      fun _ _ _ => True := by
  induction chunks generalizing d b offset with
  | zero => exact ⟨rfl, idle, rfl, by simp⟩
  | succ chunks ih =>
    have knows := held.attuned.knows held.active
    have word := knows.size_lt_limit
    rw [Nat.succ_mul] at bound ⊢
    have next : Word32.satAdd offset step = offset + step :=
      Word32.satAdd_of_lt (by omega)
    rw [checkFrom, ensures_bind]
    refine (((held_lasts True unit).ask (i := .readArray offset step) trivial d b held).and
      (ensures_readArray held (by omega) pos)).mono ?_ fun _ _ _ _ => trivial
    intro reply d₁ b₁ ended
    obtain ⟨held₁, rfl, rfl, memory₁, idle₁⟩ := ended
    rw [Chip.shown_of_idle idle]
    rw [idle] at idle₁
    split
    · trivial
    · next clean =>
      rw [next]
      refine (ih held₁ idle₁ (by rw [memory₁]; omega)).mono ?_ fun _ _ _ _ => trivial
      intro _ d₂ b₂ ended
      obtain ⟨rfl, idle₂, memory₂, rest⟩ := ended
      refine ⟨rfl, idle₂, memory₂.trans memory₁, ?_⟩
      -- no byte of an idle chip's answer differs from an erased one
      have chunk : b.chip.memory.slice offset step = List.replicate step erasedByte := by
        refine List.eq_replicate_iff.mpr ⟨Memory.length_slice _ _ _, fun byte mem => ?_⟩
        simpa using List.findIdx?_eq_none_iff.mp clean byte mem
      rw [memory₁] at rest
      rw [Nat.add_comm (chunks * step), Memory.slice_add, chunk, rest,
        List.replicate_append_replicate]

/-- A range that is a whole number of compare buffers is checked to its end and no
further. -/
theorem script_checkRange (erased : d.layout.erasedValue = erasedByte) {start chunks : Nat}
    (word : start + chunks * d.compareBuffer.size < Word32.limit) :
    (checkRange start (chunks * d.compareBuffer.size)).script d =
      (checkFrom erasedByte d.compareBuffer.size chunks start).script d := by
  have pos := d.compareBuffer.size_pos
  have stop : Word32.satAdd start (chunks * d.compareBuffer.size) =
      start + chunks * d.compareBuffer.size :=
    Word32.satAdd_of_lt word
  have count : (chunks * d.compareBuffer.size + d.compareBuffer.size - 1) / d.compareBuffer.size =
      chunks := by
    rw [Nat.add_sub_assoc pos, Nat.add_comm, Nat.add_mul_div_right _ _ pos,
      Nat.div_eq_of_lt (by omega), Nat.zero_add]
  simp only [checkRange, script_bind, script_get, Script.done_bind, follow_ok, stop,
    Nat.add_sub_cancel_left, count, erased]

theorem Knows.erasedValue (knows : d.Knows True b) : d.layout.erasedValue = erasedByte := by
  rw [knows.layout, Layout.erasedValue_tile]
  rfl

theorem ensures_checkRange_iff (knows : d.Knows True b) {start chunks : Nat}
    {good : Unit → Driver → Bench → Prop} {bad : DriverError BusError → Driver → Bench → Prop}
    (bound : start + chunks * d.compareBuffer.size ≤ b.chip.memory.size) :
    (checkRange start (chunks * d.compareBuffer.size)).Ensures d b good bad ↔
      (checkFrom erasedByte d.compareBuffer.size chunks start).Ensures d b good bad := by
  unfold Ensures
  rw [script_checkRange knows.erasedValue (Nat.lt_of_le_of_lt bound knows.size_lt_limit)]

/-- A sector is a whole number of compare buffers. -/
theorem exists_chunks (d : Driver) (unit : EraseUnit) :
    ∃ chunks, chunks * d.compareBuffer.size = unit.size :=
  ⟨unit.size / d.compareBuffer.size,
    Nat.div_mul_cancel (Nat.dvd_trans d.compareBuffer.size_dvd (by cases unit <;> decide))⟩

theorem ensures_checkErased (settled : d.Settled True unit b) (idle : b.chip.isBusy = false)
    (sector : Nat) :
    (checkErased sector).Ensures d b
      (fun _ d' b' => d' = d ∧ b'.chip.isBusy = false ∧ b'.chip.memory = b.chip.memory ∧
        b.chip.memory.slice (sector * unit.size) unit.size = List.replicate unit.size erasedByte)
      fun _ _ _ => True := by
  unfold checkErased
  simp only [ensures_bind, ensures_guardReady, ensures_setState, ensures_resting, ensures_get]
  refine ⟨fun ready => ?_, fun _ => trivial⟩
  refine ensures_sectorStart.mono ?_ fun _ _ _ _ => trivial
  intro start d b ended
  obtain ⟨found, rfl, rfl⟩ := ended
  have held := settled.held (by rw [ready]; trivial)
  have knows := held.attuned.knows held.active
  obtain ⟨inside, rfl⟩ := knows.sectorStart?_eq_some_iff.mp found
  rw [settled.attuned.sectorSize, settled.attuned.eraseUnit]
  have bound := settled.attuned.sector_le knows inside
  have reading := held.setState .reading trivial
  obtain ⟨chunks, whole⟩ := d.exists_chunks unit
  rw [← whole] at bound
  rw [← whole]
  refine ((ensures_checkRange_iff (reading.attuned.knows reading.active) bound).mpr
    (ensures_checkFrom reading idle d.compareBuffer.size_pos bound)).mono ?_ fun _ _ _ _ => trivial
  intro _ _ b' ended
  obtain ⟨rfl, idle', memory, clean⟩ := ended
  exact ⟨by rw [← ready], idle', memory, clean⟩

/-- A run of verified erases leaves its sectors erased, whatever the chip was doing. One that
fails has cleared the first so many. -/
theorem ensures_eraseRun_verified (settled : d.Settled True unit b) {count sector : Nat} :
    (Disk.eraseRun true count sector).Ensures d b
      (fun _ d' b' => d' = d ∧ b'.chip.isBusy = (b.chip.isBusy && count == 0) ∧
        b.chip.memory.StoresTo (sector * unit.size) (List.replicate (count * unit.size) erasedByte)
          b'.chip.memory)
      fun _ _ b' => ∃ k ≤ count, b.chip.memory.BlanksTo b.chip.stuckCells (sector * unit.size)
        (k * unit.size) b'.chip.memory := by
  induction count generalizing sector b with
  | zero => exact ⟨rfl, by simp, by simpa using .nil _ _⟩
  | succ count ih =>
    -- a sector that fails may have taken its erase, or lost it
    have failing {b' : Bench} (ready : d.state = .ready) (inside : sector < d.layout.sectorCount)
        (memory : b'.chip.memory = if b.chip.isBusy then b.chip.memory
          else b.chip.memory.erase unit.size (sector * unit.size) b.chip.stuckCells) :
        ∃ k ≤ count + 1, b.chip.memory.BlanksTo b.chip.stuckCells (sector * unit.size)
          (k * unit.size) b'.chip.memory := by
      have knows := settled.attuned.knows (by rw [ready]; trivial)
      have blanks := Memory.BlanksTo.of_erase (knows.unit_dvd unit) (Nat.dvd_mul_left _ _)
        (settled.attuned.sector_lt knows inside) memory
      cases busy : b.chip.isBusy with
      | true => exact ⟨0, Nat.zero_le _, by simpa [busy] using blanks⟩
      | false => exact ⟨1, Nat.le_add_left _ _, by simpa [busy] using blanks⟩
    simp only [Disk.eraseRun, ensures_bind, if_true]
    refine ensures_eraseSector settled (fun _ _ _ same => ?_)
      (fun _ _ _ ready inside memory => failing ready inside memory)
      fun b₁ ready inside settled₁ endures idle memory => ?_
    · exact ⟨0, Nat.zero_le _, by simpa using .of_eq b.chip.stuckCells _ same⟩
    have knows := settled.attuned.knows (by rw [ready]; trivial)
    refine (((keeps_checkErased sector d b₁ settled₁).and (ensures_endures _)).and
      ((ensures_checkErased settled₁ idle sector).and
        ((settles_checkErased sector).ensures_undisturbed fun _ =>
          Instruction.Looks.passive))).mono ?_
            fun _ _ _ ended => failing ready inside (ended.2.2.memory.trans memory)
    intro _ _ b₂ ended
    obtain ⟨⟨settled₂, -, endures₂⟩, ⟨rfl, idle₂, memory₂, clean⟩, -⟩ := ended
    have first : b.chip.memory.StoresTo (sector * unit.size)
        (List.replicate unit.size erasedByte) b₁.chip.memory :=
      .of_erase (knows.unit_dvd unit) (Nat.dvd_mul_left _ _)
        (settled.attuned.sector_lt knows inside) memory clean
    have after : (sector + 1) * unit.size = sector * unit.size + unit.size := Nat.succ_mul _ _
    refine (ih settled₂).mono ?_ ?_
    · intro _ d' b' ended
      obtain ⟨same, idle', rest⟩ := ended
      refine ⟨same, by simp [idle', idle₂], ?_⟩
      rw [memory₂, after] at rest
      have both := first.append (by rwa [List.length_replicate])
      rwa [List.replicate_append_replicate, Nat.add_comm, ← Nat.succ_mul] at both
    · rintro _ _ b' ⟨k, le, rest⟩
      refine ⟨k + 1, Nat.succ_le_succ le, ?_⟩
      rw [memory₂, after, (endures.trans endures₂).stuckCells] at rest
      rw [Nat.succ_mul, Nat.add_comm]
      exact (first.blanksTo _).append rest

end Driver

end SerialFlash
