import SerialFlash.Proofs.Promptness
import SerialFlash.Proofs.ReadResults

/-!
A successful disk write is real. Whatever has happened before, on whatever link and
with whatever settings, a write that gives back a number of sectors has stored its
data and touched nothing else, and the same sectors read back as written. That holds
for a chip that was busy, or stuck busy for a while, or left with its latch set: the
erase may be lost there, but the check behind it cannot be. A write that is started
together with another operation on a shared disk is one of these writes too
(`Reachable.join`).

The settings exclude the quad-enable bit alone. With it cleared behind its back a driver
on four lines would check and program nothing.
-/

namespace SerialFlash

namespace Session

open Procedure

variable {s s' : Session} {start n : Nat} {data : Bytes}

/-- What a chip shows of stored data is the data, unless it is busy. -/
theorem shown_of_storesTo {m : Memory} {c : Chip} {offset : Nat}
    (stored : m.StoresTo offset data c.memory) (idle : c.isBusy = true → data = []) :
    c.shown offset data.length = data := by
  cases busy : c.isBusy with
  | true =>
    rw [idle busy]
    exact c.shown_zero offset
  | false => rw [Chip.shown_of_idle busy, stored.slice_eq]

/-- A disk write succeeds on a ready driver with an idle chip, if the chip is prompt and
nothing is protected. -/
theorem disk_write_succeeds (settled : s.Settled True) {d : Disk}
    (found : s.device.disk? = some d) (ready : d.flash.state = .ready)
    (idle : s.bench.chip.isBusy = false) (prompt : s.bench.chip.Prompt d.flash.options)
    (unprotected : s.bench.chip.protectBits = 0) (span : d.span? start data.length = some n) :
    ∃ s', s.step (.disk (.write start data)) = (.disk (.write (.ok n)), s') := by
  obtain ⟨unit, laid⟩ := (settled.device.disk found).1.laid
  obtain ⟨count, d', b', run⟩ :=
    (Disk.write_succeeds laid ready idle prompt unprotected span).exists_run
  obtain ⟨-, -, span', -⟩ := (Disk.ensures_write laid start data).of_run run
  cases span.symm.trans span'
  rw [Session.step, DiskOperation.run, onDisk_eq found, run]
  exact ⟨_, rfl⟩

/-- A disk write that succeeds has stored its data and changed no other byte. The disk is
ready as before, and reads the data back. -/
theorem disk_write_stores (reachable : s.Reachable Setting.LeavesQuad)
    (written : s.step (.disk (.write start data)) = (.disk (.write (.ok n)), s')) :
    ∃ d, s.device.disk? = some d ∧ s'.device = s.device ∧ d.flash.state = .ready ∧
      n = data.length / d.sectorSize ∧ d.sectorSize ∣ data.length ∧
      start * d.sectorSize + data.length ≤ s.bench.chip.memory.size ∧
      s.bench.chip.memory.StoresTo (start * d.sectorSize) data s'.bench.chip.memory ∧
      ((s'.step (.disk (.read start data.length))).1 = .disk (.read (.ok (n, data))) ∨
        s'.bench.chip.faults ≠ .none ∧ ∃ completed,
          (s'.step (.disk (.read start data.length))).1 =
            .disk (.read (.error (.failed completed)))) := by
  have settled : s.Settled True := reachable.settled fun _ _ leaves => leaves
  have settled' : s'.Settled True := by
    have after := reachable.step (a := .disk (.write start data)) trivial
    rw [written] at after
    exact after.settled fun _ _ leaves => leaves
  obtain ⟨d, found⟩ := exists_disk_of_step written
  obtain ⟨unit, laid⟩ := (settled.device.disk found).1.laid
  rw [Session.step, DiskOperation.run, onDisk_eq found] at written
  rcases run : ((Disk.write start data).script d).run s.bench with ⟨⟨result, d'⟩, b'⟩
  rw [run] at written
  cases written
  obtain ⟨ready, rfl, span, stored, idle⟩ := (Disk.ensures_write laid start data).of_run run
  obtain ⟨whole, inside⟩ := Disk.span?_eq_some span
  have knows := laid.settled.attuned.knows (by rw [ready]; trivial)
  refine ⟨d', found, Device.withDisk_self found, ready, ?_, ?_, ?_, stored, ?_⟩
  · rw [← whole, Nat.mul_div_cancel _ laid.pos]
  · exact ⟨n, by rw [← whole, Nat.mul_comm]⟩
  · rw [← knows.layout_size, ← whole, ← Nat.add_mul]
    exact Disk.mul_sectorSize_le inside
  · have found' : (s.device.withDisk d').disk? = some d' := by
      rw [Device.withDisk_self found, found]
    have read := disk_read_of_settled settled' found' ready span
    rwa [shown_of_storesTo stored idle] at read

/-- A disk of a small device that several tasks share, with its flash identified. -/
def freshDisk : Session :=
  (create ⟨0xEF, 0x40, 0x14⟩ .direct .standard .standard).run
    [.flash .identify, .intoDisk ⟨none⟩, .share]

theorem reachable_freshDisk {allowed : Setting → Prop} : freshDisk.Reachable allowed :=
  ⟨⟨0xEF, 0x40, 0x14⟩, .direct, .standard, .standard,
    [.flash .identify, .intoDisk ⟨none⟩, .share], by simp [Action.Through], rfl⟩

/-- Zeros written to the first two sectors of a fresh disk are stored. -/
theorem disk_write_stores_zeros :
    ∃ s', freshDisk.step (.disk (.write 0 (List.replicate 8192 0))) =
        (.disk (.write (.ok 2)), s') ∧
      freshDisk.bench.chip.memory.StoresTo 0 (List.replicate 8192 0) s'.bench.chip.memory := by
  have reachable : freshDisk.Reachable Setting.LeavesQuad := reachable_freshDisk
  have settled : freshDisk.Settled True := reachable.settled fun _ _ leaves => leaves
  have prompt : freshDisk.bench.chip.Prompt .standard :=
    ⟨rfl, rfl, rfl, rfl, by decide, by decide⟩
  obtain ⟨d, found, ready, options, span⟩ : ∃ d, freshDisk.device.disk? = some d ∧
      d.flash.state = .ready ∧ d.flash.options = .standard ∧ d.span? 0 8192 = some 2 :=
    ⟨_, rfl, rfl, rfl, rfl⟩
  obtain ⟨s', written⟩ := disk_write_succeeds settled found ready rfl (options ▸ prompt) rfl
    (show d.span? 0 (List.replicate 8192 (0 : UInt8)).length = some 2 by
      rw [List.length_replicate]; exact span)
  obtain ⟨_, _, -, -, -, -, -, stored, -⟩ := disk_write_stores reachable written
  rw [Nat.zero_mul] at stored
  exact ⟨s', written, stored⟩

end Session

end SerialFlash
