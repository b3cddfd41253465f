import SerialFlash.Proofs.WriteOrder

/-!
What a trim does. The sectors of its half-open run are erased flash sector by flash sector, and
nothing else goes out but write enables and looks at the status. A trim that fails has erased the
sectors that its error counts, and of the next one a number of whole flash sectors at its front: the
flash sector that it gave up on may have been erased or not. Every byte behind these is as before.
-/

namespace SerialFlash

open Procedure

/-! ### What goes out -/

/-- Erases so many flash sectors from one on. -/
def Driver.erasures (d : Driver) (first count : Nat) : List Instruction :=
  (List.range count).map fun k =>
    .eraseSector d.options.eraseUnit ((first + k) * d.options.eraseUnit.size)

namespace Driver

variable {l : Link} {d : Driver}

theorem erasures_succ (d : Driver) (first count : Nat) :
    d.erasures first (count + 1) =
      .eraseSector d.options.eraseUnit (first * d.options.eraseUnit.size) ::
        d.erasures (first + 1) count := by
  rw [erasures, List.range_succ_eq_map, List.map_cons, List.map_map]
  simp only [erasures, Function.comp_def, Nat.add_zero, Nat.succ_eq_add_one, Nat.add_assoc,
    Nat.add_comm 1]

theorem erasures_add (d : Driver) (first m n : Nat) :
    d.erasures first (m + n) = d.erasures first m ++ d.erasures (first + m) n := by
  simp only [erasures, List.range_add, List.map_append, List.map_map, Function.comp_def,
    Nat.add_assoc]

theorem works_of_mem_erasures {first count : Nat} {i : Instruction}
    (mem : i ∈ d.erasures first count) : i.Works := by
  obtain ⟨k, -, rfl⟩ := List.mem_map.mp mem
  trivial

/-- Flash sectors are erased one after the other, without being read back. -/
theorem does_eraseRun_only (suits : d.layout.Suits d.options.eraseUnit) (ready : d.state = .ready)
    {count sector : Nat} (inside : sector + count ≤ d.layout.sectorCount) :
    (Disk.eraseRun false count sector).Does l d.options d (d.erasures sector count) () := by
  induction count generalizing sector with
  | zero => exact .pure ()
  | succ count ih =>
    have here : sector < d.layout.sectorCount := by omega
    have erased := (does_eraseToEnd (l := l) suits ready here).bind
      (f := fun _ => Disk.eraseRun false count (sector + 1)) (ih (by omega))
    rwa [bind_assoc, List.singleton_append, ← d.erasures_succ] at erased

end Driver

namespace Disk.Tiled

variable {l : Link} {d : Disk} (tiled : d.Tiled)

include tiled

/-- Logical sectors are erased one after the other. -/
theorem does_trimFrom (completed : Nat) {count sector : Nat}
    (inside : sector + count ≤ d.sectorCount) :
    (trimFrom completed count sector).Does l d.flash.options d
      (d.flash.erasures (sector * d.flashSectors) (count * d.flashSectors)) () := by
  induction count generalizing completed sector with
  | zero =>
    rw [Nat.zero_mul]
    exact .pure ()
  | succ count ih =>
    have bound := tiled.flashSectors_le (show sector < d.sectorCount by omega)
    have erased := Driver.does_eraseUnder tiled.suits tiled.flashSectors_pos bound
      (Driver.does_eraseRun_only (l := l) tiled.suits tiled.ready (by rwa [← Nat.succ_mul]))
    have onwards := ih (completed + 1) (show sector + 1 + count ≤ d.sectorCount by omega)
    rw [Nat.succ_mul count, Nat.add_comm (count * _), Driver.erasures_add, ← Nat.succ_mul]
    intro todo
    rw [trimFrom, tracks_bind, tracks_get]
    exact does_onFlash_bind erased onwards (fun e => ⟨_, rfl⟩) todo

/-- A trim of sectors of the disk erases the flash sectors under them. -/
theorem does_trim {start stop : Nat} (le : start ≤ stop) (inside : stop ≤ d.sectorCount) :
    (control (.trim start stop)).Does l d.flash.options d
      (d.flash.erasures (start * d.flashSectors) ((stop - start) * d.flashSectors)) .done := by
  have erased := (tiled.does_trimFrom (l := l) 0
    (show start + (stop - start) ≤ d.sectorCount by omega)).bind
      (f := fun _ => Pure.pure DiskAnswer.done) (.pure _)
  rw [List.append_nil] at erased
  intro todo
  unfold Tracks
  rw [control, script_guardReady_bind, if_pos tiled.ready, script_trim_bind, if_neg (by omega)]
  exact does_guardWritable_bind (f := fun _ => do
    trimFrom 0 (stop - start) start
    return DiskAnswer.done) erased todo

end Disk.Tiled

/-! ### What is left -/

namespace Disk

variable {alone : Prop} {unit : EraseUnit} {d : Disk} {b : Bench}

/-- Only a look that is not heard keeps an unprotected chip from being written. -/
theorem ensures_guardWritable_unheard (awake : b.chip.poweredDown = false)
    (unprotected : b.chip.protectBits = 0) :
    guardWritable.Ensures d b (fun _ _ _ => True) fun e _ b' =>
      e = .failed 0 ∧ (∃ error, b.poll 0 = .error error) ∧
        b'.chip.memory = b.chip.memory := by
  simp only [guardWritable, Driver.isProtected, Driver.readStatus1, ensures_bind,
    Driver.ensures_onFlash, Driver.ensures_ask_iff]
  rcases b.send_cases (i := .readStatus1) trivial with ⟨-, unheard, alike⟩ | ⟨answer, -⟩
  · rw [unheard]
    exact ⟨rfl, ⟨_, unheard⟩, alike.memory⟩
  · rw [Chip.obey_readStatus1, if_neg (by simp [awake])] at answer
    have clear : (StatusRegister.ofReply [b.chip.status1]).protection = 0 :=
      Chip.protection_status1 unprotected
    rw [answer]
    simp only [ensures_pure, clear]
    trivial

/-- A trim on an idle chip that is not protected erases its sectors. One that fails has erased the
sectors that its error counts, and so many flash sectors of the next. -/
theorem ensures_trim_clear (laid : d.Laid alone unit b) (ready : d.flash.state = .ready)
    (idle : b.chip.isBusy = false) (unprotected : b.chip.protectBits = 0) {start stop : Nat}
    (le : start ≤ stop) (inside : stop ≤ d.sectorCount) :
    (control (.trim start stop)).Ensures d b
      (fun answer _ b' => answer = .done ∧ b.chip.memory.ErasesTo b.chip.stuckCells
        (start * d.sectorSize) (stop * d.sectorSize) b'.chip.memory)
      fun e _ b' => ∃ completed n, e = .failed completed ∧
        (completed < stop - start ∨ completed = 0 ∧ n = 0 ∧ ∃ error, b.poll 0 = .error error) ∧
        n ≤ d.flashSectors ∧ b.chip.memory.ErasesTo b.chip.stuckCells (start * d.sectorSize)
          ((start + completed) * d.sectorSize + n * unit.size) b'.chip.memory := by
  have awake := (laid.settled.attuned.awake (by rw [ready]; trivial)).2
  simp only [control, guardReady, trim, ensures_bind, ensures_get, ensures_ite, ensures_pure,
    ensures_throw]
  refine ⟨fun _ => ⟨fun outside => by omega, fun _ => ?_⟩, fun unready => absurd ready unready⟩
  refine ((ensures_guardWritable laid ready).and
    (ensures_guardWritable_unheard awake unprotected)).mono ?_ ?_
  · rintro _ d b₁ ⟨⟨rfl, laid₁, endures, chip⟩, -⟩
    have idle₁ : b₁.chip.isBusy = false := by
      obtain ⟨free, done⟩ := Chip.isBusy_eq_false_iff.mp idle
      rw [chip.isBusy, Chip.isBusy_busyFor free, done]
      rfl
    have memory : b₁.chip.memory = b.chip.memory := chip.memory
    have bound : (start + (stop - start)) * d.sectorSize ≤ d.flash.layout.size := by
      rw [Nat.add_sub_cancel' le]
      exact mul_sectorSize_le inside
    have trimmed := ensures_trimFrom laid₁ 0 bound
    rw [idle₁, memory, endures.stuckCells, Nat.add_sub_cancel' le] at trimmed
    refine trimmed.mono (fun _ _ _ ended => ⟨trivial, ended.2⟩) ?_
    rintro _ _ b' ⟨completed, n, rfl, lt, le, erased⟩
    rw [Nat.zero_add]
    exact ⟨completed, n, rfl, .inl lt, le, erased⟩
  · rintro _ _ b' ⟨-, rfl, unheard, memory⟩
    refine ⟨0, 0, rfl, .inr ⟨rfl, rfl, unheard⟩, Nat.zero_le _, ?_⟩
    rw [memory]
    exact .empty _ _ (by simp)

end Disk

namespace Session

variable {s : Session} {d : Disk} {start stop : Nat}

/-- What a trim of the sectors from `start` to `stop` has done when it is over. -/
structure Trims (s : Session) (d : Disk) (start stop : Nat)
    (result : Except DiskError DiskAnswer) (s' : Session) : Prop where
  /-- The cells of the run are erased, and no other cell has changed. -/
  done : ∀ answer, result = .ok answer → answer = .done ∧
    s.bench.chip.memory.ErasesTo s.bench.chip.stuckCells (start * d.sectorSize)
      (stop * d.sectorSize) s'.bench.chip.memory
  /-- The counted sectors and whole flash sectors at the front of the next one are erased, and no
  other cell has changed. -/
  failed : ∀ e, result = .error e → ∃ completed n, e = .failed completed ∧
    (completed < stop - start ∨
      completed = 0 ∧ n = 0 ∧ ∃ error, s.bench.poll 0 = .error error) ∧
    n ≤ d.flashSectors ∧
    s.bench.chip.memory.ErasesTo s.bench.chip.stuckCells (start * d.sectorSize)
      ((start + completed) * d.sectorSize + n * d.flash.options.eraseUnit.size)
      s'.bench.chip.memory
  /-- Besides write enables and looks at the status only erases of the flash sectors under the run
  go out, in their order, and all of them if the trim succeeds. -/
  sent : workRequests (s.diskEvents (.control (.trim start stop))) <+:
    (d.flash.erasures (start * d.flashSectors) ((stop - start) * d.flashSectors)).map
      s.bench.link.request
  whole : ∀ answer, result = .ok answer →
    workRequests (s.diskEvents (.control (.trim start stop))) =
      (d.flash.erasures (start * d.flashSectors) ((stop - start) * d.flashSectors)).map
        s.bench.link.request
  /-- So the chip logs no program and no read of the array. -/
  logged : ∃ log, s'.bench.chip.opcodeLog.toList = s.bench.chip.opcodeLog.toList ++ log ∧
    ∀ opcode ∈ log, opcode = Opcode.readStatus1.byte ∨ opcode = Opcode.writeEnable.byte ∨
      opcode = d.flash.options.eraseUnit.opcode.byte

/-- An opcode that does not work on the array is one of the other two. -/
theorem opcode_of_not_works {opcode : UInt8} (idle : opcodeWorks opcode = false) :
    opcode = Opcode.readStatus1.byte ∨ opcode = Opcode.writeEnable.byte := by
  simp only [opcodeWorks, Bool.and_eq_false_iff, bne_eq_false_iff_eq] at idle
  exact idle.symm

/-- If only instructions of one opcode have worked on the array, the chip logs no other. -/
theorem opcode_of_mem_log {l : Link} {worker opcode : UInt8} {done : List Instruction}
    {log : List UInt8} (alike : ∀ i ∈ done, (l.request i).opcode = worker)
    (worked : log.filter opcodeWorks = (done.map l.request).map Request.opcode)
    (mem : opcode ∈ log) : opcode = Opcode.readStatus1.byte ∨ opcode = Opcode.writeEnable.byte ∨
      opcode = worker := by
  cases works : opcodeWorks opcode with
  | false => exact (opcode_of_not_works works).imp_right .inl
  | true =>
    have one := List.mem_filter.mpr ⟨mem, works⟩
    rw [worked, List.map_map] at one
    obtain ⟨i, among, rfl⟩ := List.mem_map.mp one
    exact .inr (.inr (alike i among))

/-- In every state that any actions lead to, with any faults armed and any cells stuck: a trim on an
idle chip that is awake and not protected erases exactly its half-open run of sectors, or fails and
has erased what its error counts and whole flash sectors behind it. -/
theorem disk_trim_exact (reached : s.Reached) (found : s.device.disk? = some d)
    (ready : d.flash.state = .ready) (awake : s.bench.chip.poweredDown = false)
    (idle : s.bench.chip.isBusy = false) (unprotected : s.bench.chip.protectBits = 0)
    (le : start ≤ stop) (inside : stop ≤ d.sectorCount) : ∃ result s',
      s.step (.disk (.control (.trim start stop))) = (.disk (.control result), s') ∧
      s.Trims d start stop result s' := by
  have tiled := reached.tiled found ready
  have settled : d.flash.Settled False d.flash.options.eraseUnit s.bench :=
    reached.settled (Device.driver?_of_disk? found) (fun _ => awake) False.elim
  have ended := Disk.ensures_trim_clear ⟨settled, tiled.pos, tiled.whole⟩ ready idle unprotected
    le inside
  obtain ⟨result, s', k', step, followed, done⟩ :=
    follow_does found (show DiskOperation.run (.control (.trim start stop)) = _ from rfl)
      (tiled.does_trim le inside)
  obtain ⟨front, split, sent, -⟩ :=
    Agenda.follow_front (fun i mem => Driver.works_of_mem_erasures mem) followed
  simp only at split
  have run := step
  rw [Session.step, DiskOperation.run, onDisk_eq found] at run
  rcases ran : ((Disk.control (.trim start stop)).script d).run s.bench with ⟨⟨result', d'⟩, b'⟩
  rw [ran] at run
  cases run
  refine ⟨_, _, step, ?_⟩
  exact {
    done := fun answer ok => by
      subst ok
      exact ended.of_run ran
    failed := fun e error => by
      subst error
      exact ended.of_failed ran
    sent := by
      rw [sent, split, List.map_append]
      exact List.prefix_append _ _
    whole := fun answer ok => by
      obtain ⟨-, rfl⟩ := done answer ok
      rw [sent, split, List.append_nil]
    logged := by
      obtain ⟨log, logged, worked⟩ := s.exists_log (.control (.trim start stop))
      rw [step] at logged
      refine ⟨log, logged, fun opcode => opcode_of_mem_log (fun i mem => ?_) (sent ▸ worked)⟩
      have planned : i ∈ front ++ k'.todo := List.mem_append_left _ mem
      rw [← split] at planned
      obtain ⟨k, -, rfl⟩ := List.mem_map.mp planned
      rfl }

/-- A disk of two flash sectors to a sector, all of whose cells are cleared and one is stuck at two
values. The fourth erase from here on fails. -/
def cutTrim : Session :=
  (create ⟨0xEF, 0x40, 0x14⟩ .direct .standard .standard).run
    [.flash .identify, .intoDisk ⟨some 8192⟩, .configure (.storeAll 0),
      .configure (.stickCell ⟨20000, 0x11⟩), .configure (.stickCell ⟨20000, 0x33⟩),
      .configure (.failOpcode 0x20 3)]

/-- Of the three sectors of a trim one is erased, but for the stuck cell, and no more than the next
is touched. -/
theorem trim_cut_by_fault : ∃ s',
    cutTrim.step (.disk (.control (.trim 2 5))) = (.disk (.control (.error (.failed 1))), s') ∧
    (∀ i, 16384 ≤ i → i < 24576 →
      s'.bench.chip.memory.byteAt i = if i = 20000 then 0x33 else 0xFF) ∧
    ∀ i, i < 16384 ∨ 32768 ≤ i →
      s'.bench.chip.memory.byteAt i = cutTrim.bench.chip.memory.byteAt i := by
  obtain ⟨d, found, ready, size, perSector, count, unit, stuck⟩ : ∃ d,
      cutTrim.device.disk? = some d ∧ d.flash.state = .ready ∧ d.sectorSize = 8192 ∧
      d.flashSectors = 2 ∧ d.sectorCount = 128 ∧ d.flash.options.eraseUnit.size = 4096 ∧
      cutTrim.bench.chip.stuckCells = [⟨20000, 0x11⟩, ⟨20000, 0x33⟩] :=
    ⟨_, rfl, rfl, rfl, rfl, rfl, rfl, rfl⟩
  have reached : cutTrim.Reached := ⟨_, _, _, _, _, rfl⟩
  obtain ⟨s', failed⟩ : ∃ s', cutTrim.step (.disk (.control (.trim 2 5))) =
    (.disk (.control (.error (.failed 1))), s') := ⟨_, rfl⟩
  obtain ⟨_, _, step, trims⟩ := disk_trim_exact reached found ready rfl rfl rfl
    (show 2 ≤ 5 by decide) (by omega)
  cases failed.symm.trans step
  obtain ⟨completed, n, same, -, le, -, cells⟩ := trims.failed _ rfl
  cases same
  rw [perSector] at le
  rw [stuck, size, unit] at cells
  refine ⟨s', failed, fun i from_start before_stop => ?_, fun i outside => ?_⟩
  · rw [cells, if_pos (by omega)]
    simp only [Memory.afterErase, List.foldl_cons, List.foldl_nil, eq_comm]
    split <;> rfl
  · rw [cells, if_neg (by omega)]

end Session

end SerialFlash
