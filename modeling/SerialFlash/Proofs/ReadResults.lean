import SerialFlash.Proofs.DiskTransfer
import SerialFlash.Proofs.EraseReports

/-!
What a successful read gives back. The layout is right, the chip is awake and its array
reads work, so an idle chip gives what is stored. A busy one gives ones and no error,
and a ready driver does not know that it is busy. So a successful read gives what is
stored unless the chip is busy and something else than ones is stored. A read of whole sectors of a
ready disk does succeed, if no fault is armed.
-/

namespace SerialFlash

open Procedure

/-- The chip is busy, and shows ones in the place of something else. -/
def Chip.Hides (c : Chip) (offset length : Nat) : Prop :=
  c.isBusy = true ∧ c.memory.slice offset length ≠ List.replicate length 0xFF

theorem Chip.shown_eq_slice_iff (c : Chip) (offset length : Nat) :
    c.shown offset length = c.memory.slice offset length ↔ ¬ c.Hides offset length := by
  unfold Hides
  cases busy : c.isBusy with
  | true => simp [shown, busy, eq_comm]
  | false => simp [shown_of_idle busy]

namespace Session

variable {s s' : Session} {start length n : Nat}

/-- A disk read of a settled session gives what the chip shows, unless an armed fault
stops it. -/
theorem disk_read_of_settled (settled : s.Settled True) {d : Disk}
    (found : s.device.disk? = some d) (ready : d.flash.state = .ready)
    (span : d.span? start length = some n) :
    (s.step (.disk (.read start length))).1 =
        .disk (.read (.ok (n, s.bench.chip.shown (start * d.sectorSize) length))) ∨
      s.bench.chip.faults ≠ .none ∧ ∃ completed,
        (s.step (.disk (.read start length))).1 = .disk (.read (.error (.failed completed))) := by
  obtain ⟨unit, laid⟩ := (settled.device.disk found).1.laid
  have read := Disk.ensures_read laid start length
  rw [Session.step, DiskOperation.run, onDisk_eq found]
  unfold Ensures at read
  split at read
  · next answer _ _ run =>
    obtain ⟨count, bytes⟩ := answer
    obtain ⟨-, -, span', -, rfl⟩ := read
    cases span.symm.trans span'
    exact .inl (by rw [run])
  · next run =>
    obtain ⟨faults, completed, rfl⟩ := read ready n span
    exact .inr ⟨faults, completed, by rw [run]⟩

/-- A disk read of whole sectors succeeds on a ready driver, if no fault is armed. -/
theorem disk_read_succeeds (settled : s.Settled True) {d : Disk}
    (found : s.device.disk? = some d) (ready : d.flash.state = .ready)
    (noFaults : s.bench.chip.faults = .none) (span : d.span? start length = some n) :
    ∃ bytes s', s.step (.disk (.read start length)) = (.disk (.read (.ok (n, bytes))), s') := by
  rcases disk_read_of_settled settled found ready span with given | ⟨faults, -⟩
  · exact ⟨_, _, Prod.ext given rfl⟩
  · exact absurd noFaults faults

/-- A successful read of the flash or of the disk gives what the chip shows of the range. That
is what is stored, unless the chip hides it. -/
theorem read_gives_stored_iff (reachable : s.Reachable Setting.LeavesQuad) :
    (∀ operation offset length bytes,
      operation = FlashOperation.read offset length ∨
        operation = FlashOperation.norRead offset length →
      s.step (.flash operation) = (.flash (.ok (.bytes bytes)), s') →
        bytes = s.bench.chip.shown offset length ∧
        (bytes = s.bench.chip.memory.slice offset length ↔ ¬ s.bench.chip.Hides offset length)) ∧
    ∀ d start length n bytes, s.device.disk? = some d →
      s.step (.disk (.read start length)) = (.disk (.read (.ok (n, bytes))), s') →
        n * d.sectorSize = length ∧
        bytes = s.bench.chip.shown (start * d.sectorSize) length ∧
        (bytes = s.bench.chip.memory.slice (start * d.sectorSize) length ↔
          ¬ s.bench.chip.Hides (start * d.sectorSize) length) := by
  have settled : s.Settled True := reachable.settled fun _ _ leaves => leaves
  constructor
  · intro operation offset length bytes same step
    obtain ⟨driver, driver', b', found, run, -⟩ := step_flash_ok step
    obtain ⟨unit, settled, -⟩ := settled.device.driver found
    have run : ((Driver.read offset length).script driver).run s.bench =
        ((.ok bytes, driver'), b') := by
      rcases same with rfl | rfl <;>
        obtain ⟨_, same, run⟩ := run_of_map run <;> cases same <;> exact run
    obtain ⟨-, -, -, rfl, -⟩ := (Driver.ensures_read settled offset length).of_run run
    exact ⟨rfl, s.bench.chip.shown_eq_slice_iff offset length⟩
  · intro d start length n bytes found step
    obtain ⟨unit, laid⟩ := (settled.device.disk found).1.laid
    rw [Session.step, DiskOperation.run, onDisk_eq found] at step
    rcases run : ((Disk.read start length).script d).run s.bench with ⟨⟨result, d'⟩, b'⟩
    rw [run] at step
    cases step
    obtain ⟨-, -, span, -, rfl⟩ := (Disk.ensures_read laid start length).of_run run
    exact ⟨(Disk.span?_eq_some span).1, rfl, s.bench.chip.shown_eq_slice_iff _ _⟩

/-- The reads of a disk whose driver has lost an erase. -/
theorem reads_of_lostErase :
    (∃ bytes s', (lostErase 1 [.intoDisk ⟨none⟩]).step (.flash (.read 0 1)) =
        (.flash (.ok (.bytes bytes)), s') ∧
      bytes = (lostErase 1 [.intoDisk ⟨none⟩]).bench.chip.shown 0 1) ∧
    ∃ bytes s', (lostErase 1 [.intoDisk ⟨none⟩]).step (.disk (.read 0 4096)) =
        (.disk (.read (.ok (1, bytes))), s') ∧
      bytes = (lostErase 1 [.intoDisk ⟨none⟩]).bench.chip.shown 0 4096 := by
  have reachable : (lostErase 1 [.intoDisk ⟨none⟩]).Reachable Setting.LeavesQuad :=
    reachable_lostErase trivial (by simp [Action.Through])
  constructor
  · obtain ⟨bytes, s₁, step⟩ : ∃ bytes s', (lostErase 1 [.intoDisk ⟨none⟩]).step
        (.flash (.read 0 1)) = (.flash (.ok (.bytes bytes)), s') := ⟨_, _, rfl⟩
    exact ⟨bytes, s₁, step, ((read_gives_stored_iff reachable).1 _ 0 1 bytes (.inl rfl) step).1⟩
  · have settled : (lostErase 1 [.intoDisk ⟨none⟩]).Settled True :=
      reachable.settled fun _ _ leaves => leaves
    have noFaults : (lostErase 1 [.intoDisk ⟨none⟩]).bench.chip.faults = .none := rfl
    obtain ⟨d, found, ready, span⟩ : ∃ d, (lostErase 1 [.intoDisk ⟨none⟩]).device.disk? = some d ∧
        d.flash.state = .ready ∧ d.span? 0 4096 = some 1 := ⟨_, rfl, rfl, rfl⟩
    obtain ⟨sector, s₂, step⟩ := disk_read_succeeds settled found ready noFaults span
    have shown := ((read_gives_stored_iff reachable).2 d 0 4096 1 sector found step).2.1
    rw [Nat.zero_mul] at shown
    exact ⟨sector, s₂, step, shown⟩

/-- With a zero stored, the read succeeds and gives ones. -/
theorem read_hides_zero :
    (lostErase 1 [.configure (.store 0 [0])]).Reachable Setting.LeavesQuad ∧
      ((lostErase 1 [.configure (.store 0 [0])]).step (.flash (.read 0 1))).1 =
        .flash (.ok (.bytes [0xFF])) ∧
      (lostErase 1 [.configure (.store 0 [0])]).bench.chip.memory.slice 0 1 = [0] := by
  have reachable : (lostErase 1 [.configure (.store 0 [0])]).Reachable Setting.LeavesQuad :=
    reachable_lostErase trivial (by simp [Action.Through, Setting.LeavesQuad])
  refine ⟨reachable, rfl, ?_⟩
  rw [chip_lostErase_configure]
  simp [Memory.slice, Chip.configure, Memory.byteAt_write, size_lostErase]

end Session

end SerialFlash
