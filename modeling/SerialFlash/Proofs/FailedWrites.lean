import SerialFlash.Proofs.DiskTransfer
import SerialFlash.Proofs.StateMachine

/-!
What a disk write leaves behind when it fails. The sectors that its error counts are written,
the one behind them is partly cleared or partly written, and no other byte has changed. The
write gave up on one operation of the flash: the look at the protection bits, or the
replacement of the sector behind the counted ones. How that operation ended decides what
becomes of the driver, which is ready again unless the chip was not done in time.
-/

namespace SerialFlash

open Procedure

/-! ### Cells -/

/-- A write of sectors has failed behind `completed` of them. -/
structure Memory.CutShort (m : Memory) (stuck : List StuckCell)
    (flashSector sectorSize start completed : Nat) (data : Bytes) (m' : Memory) : Prop where
  size : m'.size = m.size
  stored : m'.slice (start * sectorSize) (completed * sectorSize) =
    data.take (completed * sectorSize)
  outside : ∀ i, ¬ (start * sectorSize ≤ i ∧ i < (start + completed + 1) * sectorSize) →
    m'.byteAt i = m.byteAt i
  /-- Flash sectors at the front of the next sector are cleared and the rest is as before, or
  pages at its front hold the new data and the rest is cleared. -/
  next : (∃ k, k * flashSector ≤ sectorSize ∧
      ∀ i, (start + completed) * sectorSize ≤ i → i < (start + completed + 1) * sectorSize →
        if i < (start + completed) * sectorSize + k * flashSector then
          m'.byteAt i = erasedByte ∨ ∃ c ∈ stuck, c.offset = i ∧ c.value = m'.byteAt i
        else m'.byteAt i = m.byteAt i) ∨
    ∃ k, k * pageSize ≤ sectorSize ∧ m'.slice ((start + completed) * sectorSize) sectorSize =
      ((data.drop (completed * sectorSize)).take (k * pageSize)) ++
        List.replicate (sectorSize - k * pageSize) erasedByte

namespace Memory

variable {m m₁ m' : Memory} {stuck : List StuckCell} {flashSector size start completed : Nat}
  {data : Bytes}

/-- Nothing has been written, and nothing has been lost. -/
theorem CutShort.of_eq (same : m' = m) : m.CutShort stuck flashSector size start 0 data m' := by
  subst same
  refine ⟨rfl, by simp, fun _ _ => rfl, .inl ⟨0, by simp, fun i _ _ => ?_⟩⟩
  rw [if_neg (by omega)]

/-- Behind the sectors that are written, the next is partly replaced. -/
theorem CutShort.of_parts (length : (data.take (completed * size)).length = completed * size)
    (part : ((data.drop (completed * size)).take size).length = size)
    (stored : m.StoresTo (start * size) (data.take (completed * size)) m₁)
    (partly : m₁.PartlyReplaced stuck flashSector ((start + completed) * size)
      ((data.drop (completed * size)).take size) m') :
    m.CutShort stuck flashSector size start completed data m' := by
  have middle : (start + completed) * size = start * size + completed * size :=
    Nat.add_mul _ _ _
  have stop : (start + completed + 1) * size = (start + completed) * size + size :=
    Nat.succ_mul _ _
  obtain ⟨same, around⟩ := partly.elsewhere
  rw [part] at around
  refine ⟨same.trans stored.1, ?_, fun i away => ?_, ?_⟩
  · have written := stored.slice_eq
    rw [length] at written
    rw [slice_congr fun i _ lt => around i (by omega), written]
  · rw [around i (by omega), stored.2, length, if_neg (by omega)]
  · rcases partly with ⟨k, le, -, cells⟩ | ⟨k, le, pages⟩ <;> rw [part] at le
    · refine .inl ⟨k, le, fun i from_start before_stop => ?_⟩
      have cell := cells i
      split at cell
      · next cleared => rwa [if_pos cleared.2]
      · next old => rw [if_neg (by omega), cell, stored.2, length, if_neg (by omega)]
    · refine .inr ⟨k, le, ?_⟩
      rw [part, List.take_take, Nat.min_eq_left le] at pages
      have full : ((data.drop (completed * size)).take (k * pageSize) ++
          List.replicate (size - k * pageSize) erasedByte).length = size := by
        rw [List.length_take] at part
        rw [List.length_append, List.length_take, List.length_replicate]
        omega
      have cells := pages.slice_eq
      rwa [full] at cells

end Memory

/-! ### The operation that failed -/

namespace Disk

variable {d : Disk} {b : Bench}

/-- The operation of the flash that a write of `count` sectors gives up on, behind `completed`
sectors, and how it ends: with the error `e`, and flash and bench as given. -/
inductive GivesUp (d : Disk) (b : Bench) (start count : Nat) (data : Bytes) :
    Nat → DriverError BusError → Driver → Bench → Prop
  | protection {e flash b'}
      (unread : (Driver.isProtected.script d.flash).run b = ((.error e, flash), b')) :
      GivesUp d b start count data 0 e flash b'
  | sector {completed b₀ b₁ e flash b'} (lt : completed < count)
      (writable : (guardWritable.script d).run b = ((.ok (), d), b₀))
      (before : ((writeFrom 0 completed start (data.take (completed * d.sectorSize))).script d).run
        b₀ = ((.ok (), d), b₁))
      (failed : ((replaceSector d.flashSectors (start + completed)
        ((data.drop (completed * d.sectorSize)).take d.sectorSize)).script d.flash).run b₁ =
          ((.error e, flash), b')) :
      GivesUp d b start count data completed e flash b'

theorem run_onFlash {α ε : Type} {op : FlashM α} {result : Except (DriverError BusError) α}
    {flash : Driver} {b' : Bench}
    (run : (op.script d.flash).run b = ((result, flash), b')) :
    ((liftM (onFlash op) : Procedure Disk ε _).script d).run b =
      ((.ok result, { d with flash }), b') := by
  have script : (liftM (onFlash op) : Procedure Disk ε _).script d =
      ((op.script d.flash).bind fun p => .done (p.1, { d with flash := p.2 })).bind
        fun p => .done (.ok p.1, p.2) := rfl
  rw [script, Script.run_bind, Script.run_bind, run]
  rfl

/-- Behind a sector that could be replaced a write is that of the others. -/
theorem run_writeFrom_succ {completed count sector : Nat} {data : Bytes} {b₁ : Bench}
    (replaced : ((replaceSector d.flashSectors sector (data.take d.sectorSize)).script d.flash).run
      b = ((.ok (), d.flash), b₁)) :
    ((writeFrom completed (count + 1) sector data).script d).run b =
      ((writeFrom (completed + 1) count (sector + 1) (data.drop d.sectorSize)).script d).run
        b₁ := by
  rw [writeFrom, script_bind, script_get, Script.bind, follow_ok, script_bind, Script.run_bind,
    run_onFlash replaced, follow_ok]

/-- Sectors are written one by one, and the first that fails is the last that is touched. -/
theorem ensures_writeFrom_failed (completed count sector : Nat) (data : Bytes) :
    (writeFrom completed count sector data).Ensures d b (fun _ _ _ => True) fun e d' b' =>
      ∃ k cause flash b₁, e = .failed (completed + k) ∧ k < count ∧ d' = { d with flash } ∧
        ((writeFrom completed k sector (data.take (k * d.sectorSize))).script d).run b =
          ((.ok (), d), b₁) ∧
        ((replaceSector d.flashSectors (sector + k)
          ((data.drop (k * d.sectorSize)).take d.sectorSize)).script d.flash).run b₁ =
            ((.error cause, flash), b') := by
  induction count generalizing completed sector data b with
  | zero => trivial
  | succ count ih =>
    rw [writeFrom, ensures_bind, ensures_get, ensures_bind, Driver.ensures_onFlash]
    refine ((ensures_run _ _ _).and ((Driver.settles_replaceSector _ _ _).ensures b)).mono ?_ ?_
    · intro _ flash b₁ ended
      obtain ⟨replaced, rfl⟩ := ended
      refine (ih (completed + 1) (sector + 1) (data.drop d.sectorSize)).mono (fun _ _ _ => id) ?_
      rintro _ _ b' ⟨k, cause, flash, b₂, rfl, lt, rfl, before, failed⟩
      refine ⟨k + 1, cause, flash, b₂, ?_, Nat.succ_lt_succ lt, rfl, ?_, ?_⟩
      · rw [Nat.add_assoc, Nat.add_comm 1]
      · rw [← Nat.min_eq_left (Nat.le_mul_of_pos_left d.sectorSize k.succ_pos),
          ← List.take_take] at replaced
        rw [run_writeFrom_succ replaced, ← before, List.drop_take, Nat.succ_mul, Nat.add_sub_cancel]
      · rwa [Nat.succ_mul, Nat.add_comm (k * _), ← List.drop_drop, ← Nat.add_assoc,
          Nat.add_right_comm]
    · rintro cause flash b' ⟨failed, -⟩
      refine ⟨0, cause, flash, b, rfl, count.succ_pos, rfl, rfl, ?_⟩
      rwa [Nat.zero_mul, List.drop_zero]

theorem ensures_guardWritable_failed : guardWritable.Ensures d b
    (fun _ d' b' => d' = d ∧ (guardWritable.script d).run b = ((.ok (), d), b'))
    fun e d' b' => ∀ completed, e = .failed completed → completed = 0 ∧ ∃ cause flash,
      (Driver.isProtected.script d.flash).run b = ((.error cause, flash), b') ∧
        d' = { d with flash } := by
  have ran : guardWritable.Ensures d b
      (fun _ d' b' => d' = d ∧ (guardWritable.script d).run b = ((.ok (), d), b'))
      fun _ _ _ => True := by
    refine ((ensures_run _ _ _).and (settles_guardWritable.ensures b)).mono ?_
      fun _ _ _ _ => trivial
    rintro _ _ b' ⟨run, rfl⟩
    exact ⟨rfl, run⟩
  have failed : guardWritable.Ensures d b (fun _ _ _ => True)
      fun e d' b' => ∀ completed, e = .failed completed → completed = 0 ∧ ∃ cause flash,
        (Driver.isProtected.script d.flash).run b = ((.error cause, flash), b') ∧
          d' = { d with flash } := by
    rw [guardWritable, ensures_bind, Driver.ensures_onFlash]
    refine (ensures_run _ _ _).mono (fun isProtected _ _ _ => ?_) fun cause flash _ run => ?_
    · cases isProtected with
      | false => trivial
      | true => simp
    · rintro _ ⟨⟩
      exact ⟨rfl, cause, flash, run, rfl⟩
  exact (ran.and failed).mono (fun _ _ _ => And.left) fun _ _ _ => And.right

/-- A write that fails in the flash has given up on one of its operations. -/
theorem ensures_write_failed (start : Nat) (data : Bytes) :
    (write start data).Ensures d b (fun _ _ _ => True) fun e d' b' =>
      ∀ completed, e = .failed completed → ∃ count cause flash,
        d.flash.state = .ready ∧ d.span? start data.length = some count ∧
        GivesUp d b start count data completed cause flash b' ∧ d' = { d with flash } := by
  simp only [write, guardReady, guardSpan, ensures_bind, ensures_get, ensures_ite, ensures_pure,
    ensures_throw]
  refine ⟨fun ready => ?_, fun _ => by simp⟩
  split
  · next count span =>
    simp only [ensures_pure]
    refine ensures_guardWritable_failed.mono ?_ ?_
    · rintro _ _ b₀ ⟨rfl, writable⟩
      refine (ensures_writeFrom_failed 0 count start data).mono (fun _ _ _ => id) ?_
      rintro _ d' b' ⟨completed, cause, flash, b₁, rfl, lt, rfl, before, failed⟩
      rintro _ ⟨⟩
      rw [Nat.zero_add]
      exact ⟨count, cause, flash, ready, span, .sector lt writable before failed, rfl⟩
    · rintro _ _ b' failed completed same
      obtain ⟨rfl, cause, flash, unread, rfl⟩ := failed completed same
      exact ⟨count, cause, flash, ready, span, .protection unread, rfl⟩
  · simp

namespace GivesUp

variable {start count completed : Nat} {data : Bytes} {e : DriverError BusError} {flash : Driver}
  {b' : Bench}

theorem failsTo (h : GivesUp d b start count data completed e flash b') :
    d.flash.FailsTo e flash := by
  cases h with
  | protection unread => exact (Driver.settles_isProtected.ensures b).of_failed unread
  | sector _ _ _ failed => exact ((Driver.settles_replaceSector _ _ _).ensures _).of_failed failed

theorem completed_lt (h : GivesUp d b start count data completed e flash b') :
    completed < count ∨ completed = 0 ∧ ∃ error, (b.send .readStatus1).1 = .error error := by
  cases h with
  | protection unread =>
    have asked : Driver.isProtected.Ensures d.flash b (fun _ _ _ => True)
        fun _ _ _ => ∃ error, (b.send .readStatus1).1 = .error error := by
      simp only [Driver.isProtected, Driver.readStatus1, ensures_bind, Driver.ensures_ask_iff]
      split
      · trivial
      · next error unheard => exact ⟨error, unheard⟩
    exact .inr ⟨rfl, asked.of_failed unread⟩
  | sector lt _ _ _ => exact .inl lt

/-- On a disk whose driver is attuned to the chip, the counted sectors are written, and nothing
behind the next one is touched. -/
theorem cutShort (h : GivesUp d b start count data completed e flash b')
    (settled : d.Settled True b) (ready : d.flash.state = .ready)
    (span : d.span? start data.length = some count) :
    b.chip.memory.CutShort b.chip.stuckCells d.flash.options.eraseUnit.size d.sectorSize start
      completed data b'.chip.memory := by
  obtain ⟨whole, inside⟩ := span?_eq_some span
  cases h with
  | protection unread =>
    have same := (Driver.settles_isProtected.ensures_undisturbed fun _ =>
      Instruction.Looks.passive).of_failed unread
    exact .of_eq same.memory
  | sector lt writable before failed =>
    obtain ⟨unit, laid⟩ := settled.laid
    obtain ⟨-, laid₀, endures₀, chip⟩ := (ensures_guardWritable laid ready).of_run writable
    have settled₀ := (keeps_guardWritable d b settled).of_run writable
    have settled₁ := (keeps_writeFrom _ _ _ _ d _ settled₀).of_run before
    have endures₁ := ((ensures_endures (writeFrom _ _ _ _)).of_run before).2
    have room : completed * d.sectorSize + d.sectorSize ≤ data.length := by
      rw [← whole, ← Nat.succ_mul]
      exact Nat.mul_le_mul_right _ lt
    have length : (data.take (completed * d.sectorSize)).length = completed * d.sectorSize :=
      List.length_take_of_le (by omega)
    have part : ((data.drop (completed * d.sectorSize)).take d.sectorSize).length = d.sectorSize :=
      List.length_take_of_le (by rw [List.length_drop]; omega)
    obtain ⟨-, -, stored⟩ := (ensures_writeFrom laid₀ length
      (mul_sectorSize_le (by omega))).of_run before
    -- the driver still knows its erase unit, so the sector is laid out as before
    obtain ⟨unit₁, laid₁⟩ := settled₁.laid
    have bound : (start + completed + 1) *
        ((data.drop (completed * d.sectorSize)).take d.sectorSize).length ≤
          d.flash.layout.size := by
      rw [part]
      exact mul_sectorSize_le (by omega)
    have partly := (ensures_replaceSector laid₁.settled laid₁.flashSectors_pos
      (part.trans laid₁.whole.symm) bound).of_failed failed
    rw [part, ← laid₁.settled.attuned.eraseUnit, endures₁.stuckCells, endures₀.stuckCells] at partly
    rw [show _ = b.chip.memory from chip.memory] at stored
    exact .of_parts length part stored partly

end GivesUp

end Disk

/-- A failure leaves a ready driver ready, or gives the chip up if it was not done in time. -/
theorem Driver.FailsTo.state {d d' : Driver} {e : DriverError BusError} (h : d.FailsTo e d')
    (ready : d.state = .ready) :
    (d'.state = .ready ∨ d'.state = .failed) ∧ (d'.state = .failed ↔ e.cause = .timeout) := by
  unfold FailsTo at h
  split at h
  · next timeout => simp [h.2, timeout]
  · next cause => simp [h, ready, cause]

namespace Session

variable {s s' : Session} {start completed : Nat} {data : Bytes}

/-- A disk write that fails in the flash behind a number of sectors has written these, has cut
short the next one, and has changed no other byte. Its driver is ready, or failed if the operation
of the flash that it gave up on was not done in time. -/
theorem disk_write_cut_short (reachable : s.Reachable Setting.LeavesQuad)
    (failed : s.step (.disk (.write start data)) =
      (.disk (.write (.error (.failed completed))), s')) :
    ∃ d count e flash, s.device.disk? = some d ∧
      s'.device.disk? = some { d with flash } ∧
      d.span? start data.length = some count ∧
      (completed < count ∨ completed = 0 ∧ ∃ error, (s.bench.send .readStatus1).1 = .error error) ∧
      s.bench.chip.memory.CutShort s.bench.chip.stuckCells d.flash.options.eraseUnit.size
        d.sectorSize start completed data s'.bench.chip.memory ∧
      d.GivesUp s.bench start count data completed e flash s'.bench ∧
      (flash.state = .ready ∨ flash.state = .failed) ∧
      (flash.state = .failed ↔ e.cause = .timeout) := by
  have settled : s.Settled True := reachable.settled fun _ _ leaves => leaves
  obtain ⟨d, found⟩ := exists_disk_of_step failed
  rw [Session.step, DiskOperation.run, onDisk_eq found] at failed
  rcases run : ((Disk.write start data).script d).run s.bench with ⟨⟨result, d'⟩, b'⟩
  rw [run] at failed
  cases failed
  obtain ⟨count, e, flash, ready, span, gaveUp, rfl⟩ :=
    (Disk.ensures_write_failed start data).of_failed run completed rfl
  obtain ⟨rest, timeout⟩ := gaveUp.failsTo.state ready
  exact ⟨d, count, e, flash, found, Device.disk?_withDisk found _, span, gaveUp.completed_lt,
    gaveUp.cutShort (settled.device.disk found).1 ready span, gaveUp, rest, timeout⟩

/-- The driver asks only once whether an erase has ended. -/
def impatient : DriverOptions :=
  { DriverOptions.standard with eraseTimeout := 0 }

/-- A disk of a small device with such a driver. -/
def impatientDisk : Session :=
  (create ⟨0xEF, 0x40, 0x14⟩ .direct .standard impatient).run [.flash .identify, .intoDisk ⟨none⟩]

theorem reachable_impatientDisk {allowed : Setting → Prop} : impatientDisk.Reachable allowed :=
  ⟨⟨0xEF, 0x40, 0x14⟩, .direct, .standard, impatient, [.flash .identify, .intoDisk ⟨none⟩],
    by simp [Action.Through], rfl⟩

/-- A write of one sector gives up on its first erase. -/
theorem write_impatientDisk {data : Bytes} (length : data.length = 4096) : ∃ s',
    impatientDisk.step (.disk (.write 0 data)) = (.disk (.write (.error (.failed 0))), s') := by
  obtain ⟨d, found⟩ : ∃ d, impatientDisk.device.disk? = some d := ⟨_, rfl⟩
  rw [Session.step, DiskOperation.run, onDisk_eq found, Disk.write, length]
  cases found
  exact ⟨_, rfl⟩

/-- Zeros for the first sector of that disk are not written, and nothing behind it changes. -/
theorem disk_write_cut_short_by_erase : ∃ s',
    impatientDisk.step (.disk (.write 0 (List.replicate 4096 0))) =
      (.disk (.write (.error (.failed 0))), s') ∧
    ∀ i, 4096 ≤ i → s'.bench.chip.memory.byteAt i = impatientDisk.bench.chip.memory.byteAt i := by
  obtain ⟨s', failed⟩ := write_impatientDisk
    (show (List.replicate 4096 (0 : UInt8)).length = 4096 from List.length_replicate)
  obtain ⟨d, found, size⟩ : ∃ d, impatientDisk.device.disk? = some d ∧ d.sectorSize = 4096 :=
    ⟨_, rfl, rfl⟩
  obtain ⟨d', _, _, _, found', -, -, -, cut, -⟩ :=
    disk_write_cut_short reachable_impatientDisk failed
  cases found.symm.trans found'
  refine ⟨s', failed, fun i le => cut.outside i fun inside => ?_⟩
  rw [size] at inside
  omega

end Session

end SerialFlash
