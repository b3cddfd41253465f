import SerialFlash.Proofs.DiskTransfer
import SerialFlash.Proofs.EraseReports

/-!
What a successful program, erase or trim has done. A busy chip ignores a write enable
and the command behind it without an error, and the wait that follows ends well once
the chip is idle, whatever it was busy with. So a ready driver on a busy chip loses the
first thing that it sends: one page of a program, one unit of an erase. A trim reads the
protection bits first, which takes one off the busy time, so there it needs one more.
Everything behind that takes effect.
-/

namespace SerialFlash

open Procedure

namespace Chip

/-- Bytes that a program at an offset loses on a busy chip: the rest of its first page. -/
def lostPage (c : Chip) (offset : Nat) : Nat :=
  if c.isBusy then pageRoom offset else 0

/-- Bytes that an erase loses on a chip that is busy for more than `reads` status reads: its
first unit. -/
def lostUnit (c : Chip) (reads unit : Nat) : Nat :=
  if reads < c.busyReads then unit else 0

theorem lostUnit_of_free {c : Chip} (free : c.stuckBusy = false) (unit : Nat) :
    c.lostUnit 0 unit = if c.isBusy then unit else 0 := by
  simp [lostUnit, isBusy, free]

end Chip

namespace Session

variable {s s' : Session}

theorem program_effect (settled : s.Settled True) {operation : FlashOperation} {offset : Nat}
    {data : Bytes} (same : operation = .program offset data ∨ operation = .norWrite offset data)
    (step : s.step (.flash operation) = (.flash (.ok .nothing), s')) :
    s.bench.chip.memory.ProgramsTo (offset + s.bench.chip.lostPage offset)
      (data.drop (s.bench.chip.lostPage offset)) s'.bench.chip.memory := by
  obtain ⟨driver, driver', b', found, run, rfl⟩ := step_flash_ok step
  obtain ⟨unit, settled, -⟩ := settled.device.driver found
  have run : ((Driver.program offset data).script driver).run s.bench =
      ((.ok (), driver'), b') := by
    rcases same with rfl | rfl <;> exact (run_of_map run).choose_spec.2
  obtain ⟨-, -, -, -, programmed⟩ := (Driver.ensures_program settled offset data).of_run run
  unfold Chip.lostPage
  cases busy : s.bench.chip.isBusy <;> simpa [busy] using programmed

theorem norErase_effect (settled : s.Settled True) (free : s.bench.chip.stuckBusy = false)
    {start stop : Nat}
    (step : s.step (.flash (.norErase start stop)) = (.flash (.ok .nothing), s')) :
    s.bench.chip.memory.ErasesTo s.bench.chip.stuckCells
      (start + s.bench.chip.lostUnit 0 sectorSize4K) stop s'.bench.chip.memory := by
  obtain ⟨driver, driver', b', found, run, rfl⟩ := step_flash_ok step
  obtain ⟨unit, settled, -⟩ := settled.device.driver found
  obtain ⟨_, -, run⟩ := run_of_map run
  obtain ⟨-, -, -, erased⟩ := (Driver.ensures_norErase settled start stop).of_run run
  rw [Chip.lostUnit_of_free free]
  cases busy : s.bench.chip.isBusy <;> simpa [busy] using erased

theorem trim_effect (settled : s.Settled True) (free : s.bench.chip.stuckBusy = false)
    {start stop : Nat} {d : Disk} (found : s.device.disk? = some d)
    (step : s.step (.disk (.control (.trim start stop))) = (.disk (.control (.ok .done)), s')) :
    s.bench.chip.memory.ErasesTo s.bench.chip.stuckCells
      (start * d.sectorSize + s.bench.chip.lostUnit 1 d.flash.options.eraseUnit.size)
      (stop * d.sectorSize) s'.bench.chip.memory := by
  obtain ⟨unit, laid⟩ := (settled.device.disk found).1.laid
  rw [Session.step, DiskOperation.run, onDisk_eq found] at step
  rcases run : ((Disk.control (.trim start stop)).script d).run s.bench with ⟨⟨result, d'⟩, b'⟩
  rw [run] at step
  cases step
  obtain ⟨-, -, -, erased⟩ := (Disk.ensures_control_trim laid free start stop).of_run run
  -- the protection check has taken one read off the busy time already
  rw [laid.settled.attuned.eraseUnit, Chip.lostUnit]
  split <;> next busy => simpa [busy] using erased

/-- A program, an erase or a trim that succeeds has taken effect but for what the chip lost,
so it has taken effect as a whole exactly if the lost part would have changed nothing. -/
theorem success_takes_effect_iff
    (reachable : s.Reachable fun setting => setting.LeavesQuad ∧ setting.LeavesBusy) :
    (∀ operation offset data,
      operation = FlashOperation.program offset data ∨
        operation = FlashOperation.norWrite offset data →
      s.step (.flash operation) = (.flash (.ok .nothing), s') →
        s.bench.chip.memory.ProgramsTo (offset + s.bench.chip.lostPage offset)
          (data.drop (s.bench.chip.lostPage offset)) s'.bench.chip.memory ∧
        (s.bench.chip.memory.ProgramsTo offset data s'.bench.chip.memory ↔
          s.bench.chip.memory.ProgramsTo offset (data.take (s.bench.chip.lostPage offset))
            s.bench.chip.memory)) ∧
    (∀ start stop,
      s.step (.flash (.norErase start stop)) = (.flash (.ok .nothing), s') →
        s.bench.chip.memory.ErasesTo s.bench.chip.stuckCells
          (start + s.bench.chip.lostUnit 0 sectorSize4K) stop s'.bench.chip.memory ∧
        (s.bench.chip.memory.ErasesTo s.bench.chip.stuckCells start stop s'.bench.chip.memory ↔
          s.bench.chip.memory.ErasesTo s.bench.chip.stuckCells start
            (min (start + s.bench.chip.lostUnit 0 sectorSize4K) stop) s.bench.chip.memory)) ∧
    ∀ d start stop, s.device.disk? = some d →
      s.step (.disk (.control (.trim start stop))) = (.disk (.control (.ok .done)), s') →
        s.bench.chip.memory.ErasesTo s.bench.chip.stuckCells
          (start * d.sectorSize + s.bench.chip.lostUnit 1 d.flash.options.eraseUnit.size)
          (stop * d.sectorSize) s'.bench.chip.memory ∧
        (s.bench.chip.memory.ErasesTo s.bench.chip.stuckCells (start * d.sectorSize)
            (stop * d.sectorSize) s'.bench.chip.memory ↔
          s.bench.chip.memory.ErasesTo s.bench.chip.stuckCells (start * d.sectorSize)
            (min (start * d.sectorSize + s.bench.chip.lostUnit 1 d.flash.options.eraseUnit.size)
              (stop * d.sectorSize)) s.bench.chip.memory) := by
  have settled : s.Settled True := reachable.settled fun _ _ leaves => leaves.1
  have free := reachable.free fun _ leaves => leaves.2
  refine ⟨fun _ _ _ same step => ?_, fun _ _ step => ?_, fun _ _ _ found step => ?_⟩
  · have effect := program_effect settled same step
    exact ⟨effect, effect.iff_of_drop⟩
  · have effect := norErase_effect settled free step
    exact ⟨effect, effect.iff_of_lost⟩
  · have effect := trim_effect settled free found step
    exact ⟨effect, effect.iff_of_lost⟩

/-- An erase and a trim behind a lost erase. -/
theorem effects_of_lostErase :
    (∃ s', (lostErase 1 [.intoDisk ⟨none⟩]).step (.flash (.norErase 0 8192)) =
        (.flash (.ok .nothing), s') ∧
      (lostErase 1 [.intoDisk ⟨none⟩]).bench.chip.memory.ErasesTo [] 4096 8192
        s'.bench.chip.memory) ∧
    ∃ s', (lostErase 1 [.intoDisk ⟨none⟩]).step (.disk (.control (.trim 0 2))) =
        (.disk (.control (.ok .done)), s') ∧
      (lostErase 1 [.intoDisk ⟨none⟩]).bench.chip.memory.ErasesTo [] 4096 8192
        s'.bench.chip.memory := by
  have reachable : (lostErase 1 [.intoDisk ⟨none⟩]).Reachable
      fun setting => setting.LeavesQuad ∧ setting.LeavesBusy :=
    reachable_lostErase ⟨trivial, trivial⟩ (by simp [Action.Through])
  obtain ⟨s₁, step⟩ : ∃ s', (lostErase 1 [.intoDisk ⟨none⟩]).step (.flash (.norErase 0 8192)) =
    (.flash (.ok .nothing), s') := ⟨_, rfl⟩
  obtain ⟨s₂, step'⟩ : ∃ s', (lostErase 1 [.intoDisk ⟨none⟩]).step (.disk (.control (.trim 0 2))) =
    (.disk (.control (.ok .done)), s') := ⟨_, rfl⟩
  exact ⟨⟨s₁, step, ((success_takes_effect_iff reachable).2.1 0 8192 step).1⟩,
    ⟨s₂, step', ((success_takes_effect_iff reachable).2.2 _ 0 2 rfl step').1⟩⟩

/-- With a zero stored, the erase succeeds and the zero stays. -/
theorem erase_leaves_zero :
    (lostErase 1 [.configure (.store 0 [0])]).Reachable
        (fun setting => setting.LeavesQuad ∧ setting.LeavesBusy) ∧
      (lostErase 1 [.configure (.store 0 [0])]).bench.chip.stuckCells = [] ∧
      ((lostErase 1 [.configure (.store 0 [0])]).step (.flash (.norErase 0 4096))).1 =
        .flash (.ok .nothing) ∧
      ((lostErase 1 [.configure (.store 0 [0])]).step
        (.flash (.norErase 0 4096))).2.bench.chip.memory.byteAt 0 = 0 := by
  have reachable : (lostErase 1 [.configure (.store 0 [0])]).Reachable
      fun setting => setting.LeavesQuad ∧ setting.LeavesBusy :=
    reachable_lostErase ⟨trivial, trivial⟩
      (by simp [Action.Through, Setting.LeavesQuad, Setting.LeavesBusy])
  obtain ⟨s', step⟩ : ∃ s', (lostErase 1 [.configure (.store 0 [0])]).step
    (.flash (.norErase 0 4096)) = (.flash (.ok .nothing), s') := ⟨_, rfl⟩
  have effect := norErase_effect (reachable.settled fun _ _ leaves => leaves.1)
    (reachable.free fun _ leaves => leaves.2) step
  refine ⟨reachable, rfl, by rw [step], ?_⟩
  rw [step, effect.2, if_neg (by decide), chip_lostErase_configure]
  simp [Chip.configure, Memory.byteAt_write, size_lostErase]

end Session

end SerialFlash
