import SerialFlash.Proofs.Initialised
import SerialFlash.Proofs.StoredWrites
import SerialFlash.SectorArray

/-!
Without faults a disk is an array of sectors. The disk is in order if its driver is ready and
attuned, its chip idle and prompt, and nothing protected; then every operation gives the answer
of the array that the memory holds, leaves in the memory what the array has become, and leaves
the disk in order. A call is one operation or two, and a sequence of calls one after the other,
so the same is so of them. A disk whose chip has just been identified is in order if nothing is
wrong with the chip.
-/

namespace SerialFlash

open Procedure

/-! ### Contents -/

/-- A byte of a sector lies in a run of sectors if the sector does. -/
theorem sector_range_iff {size k i : Nat} (h : i < size) (start stop : Nat) :
    start * size ≤ k * size + i ∧ k * size + i < stop * size ↔ start ≤ k ∧ k < stop := by
  have pos : 0 < size := by omega
  have sector : (k * size + i) / size = k := by
    rw [Nat.add_comm, Nat.add_mul_div_right _ _ pos, Nat.div_eq_of_lt h, Nat.zero_add]
  rw [← Nat.le_div_iff_mul_le pos, ← Nat.div_lt_iff_lt_mul pos, sector]

namespace Memory

variable {m m' : Memory} {count size start stop n : Nat} {data : Bytes}

theorem sectors_eq_replace {new : Nat → Vector UInt8 size}
    (cells : ∀ k (i : Fin size), m'.byteAt (k * size + i) =
      if start ≤ k ∧ k < stop then (new k)[i] else m.byteAt (k * size + i)) :
    m'.sectors count size = (m.sectors count size).replace start stop new := by
  unfold sectors SectorArray.replace
  congr 1
  refine Vector.ext fun k hk => Vector.ext fun i hi => ?_
  have cell := cells k ⟨i, hi⟩
  simp only [Vector.getElem_mapIdx, Vector.getElem_ofFn]
  split at cell <;> next range => simpa [range] using cell

theorem StoresTo.sectors (stored : m.StoresTo (start * size) data m')
    (whole : n * size = data.length) :
    m'.sectors count size = (m.sectors count size).store start n data := by
  refine sectors_eq_replace fun k i => ?_
  rw [stored.2, ← whole, ← Nat.add_mul]
  simp only [sector_range_iff i.isLt]
  split
  · next range =>
    have offset : k * size + i - start * size = (k - start) * size + i := by
      rw [Nat.sub_mul, Nat.sub_add_comm (Nat.mul_le_mul_right _ range.1)]
    simp [offset]
  · rfl

theorem ErasesTo.sectors (erased : m.ErasesTo [] (start * size) (stop * size) m') :
    m'.sectors count size = (m.sectors count size).erase start stop := by
  refine sectors_eq_replace fun k i => ?_
  rw [erased.2]
  simp only [sector_range_iff i.isLt]
  split
  · simp [afterErase]
  · rfl

theorem toList_sector {k : Nat} (h : k < count) :
    (m.sectors count size).sectors[k].toList = m.slice (k * size) size :=
  List.ext_getElem (by simp) fun i _ _ => by simp [sectors, slice]

theorem bytes_sectors (inside : start + n ≤ count) :
    (m.sectors count size).bytes start n = m.slice (start * size) (n * size) := by
  induction n with
  | zero => simp [SectorArray.bytes]
  | succ n ih =>
    have length : (((m.sectors count size).sectors.toList).drop start).length = count - start := by
      simp
    have last : (m.sectors count size).sectors[start + n].toList =
        m.slice ((start + n) * size) size := toList_sector (by omega)
    rw [SectorArray.bytes] at ih ⊢
    rw [List.take_succ_eq_append_getElem (by omega), List.flatMap_append, ih (by omega),
      Nat.succ_mul, slice_add, ← Nat.add_mul]
    simp [last]

end Memory

/-! ### Operations -/

namespace Disk

variable {α : Type} {d : Disk} {b b' : Bench}

/-- Nothing is in the way of the disk: its driver is ready, nothing is protected, and the chip is
idle and prompt. -/
structure InOrder (d : Disk) (b : Bench) : Prop where
  settled : d.Settled True b
  ready : d.flash.state = .ready
  idle : b.chip.isBusy = false
  prompt : b.chip.Prompt d.flash.options
  unprotected : b.chip.protectBits = 0

/-- The sectors of a disk. -/
def sectors (d : Disk) (m : Memory) : SectorArray d.sectorCount d.sectorSize :=
  m.sectors d.sectorCount d.sectorSize

/-- Behind an operation the chip is idle, the disk holds the array, and the cells behind its
sectors are as before. -/
structure Holds (d : Disk) (b : Bench) (a : SectorArray d.sectorCount d.sectorSize) (b' : Bench) :
    Prop where
  idle : b'.chip.isBusy = false
  contents : d.sectors b'.chip.memory = a
  behind : ∀ i, d.sectorCount * d.sectorSize ≤ i →
    b'.chip.memory.byteAt i = b.chip.memory.byteAt i

/-- The operation gives the answer of an array, and leaves the disk with its contents. -/
def Answers (op : DiskM α) (d : Disk) (b : Bench)
    (answer : Except DiskError α × SectorArray d.sectorCount d.sectorSize) : Prop :=
  op.Ensures d b (fun v d' b' => d' = d ∧ answer.1 = .ok v ∧ d.Holds b answer.2 b')
    fun e d' b' => d' = d ∧ answer.1 = .error e ∧ d.Holds b answer.2 b'

namespace InOrder

variable (h : d.InOrder b)

include h

theorem knows : d.flash.Knows True b := by
  obtain ⟨unit, settled, -⟩ := h.settled
  exact settled.attuned.knows (by rw [h.ready]; trivial)

theorem awake : b.chip.poweredDown = false := by
  obtain ⟨unit, settled, -⟩ := h.settled
  exact (settled.attuned.awake (by rw [h.ready]; trivial)).2

/-- An array of the size of a chip is within reach of 32 bits. -/
theorem span?_eq (start length : Nat) :
    d.span? start length = SectorArray.span? d.sectorCount d.sectorSize start length := by
  have word : d.sectorCount < Word32.limit :=
    Nat.lt_of_le_of_lt (Nat.div_le_self _ _) (h.knows.layout_size ▸ h.knows.size_lt_limit)
  rw [span?, SectorArray.span?, Word32.add?]
  grind

theorem holds_self : d.Holds b (d.sectors b.chip.memory) b :=
  ⟨h.idle, rfl, fun _ _ => rfl⟩

theorem holds_undisturbed (same : b.chip.Undisturbed b'.chip) :
    d.Holds b (d.sectors b.chip.memory) b' :=
  ⟨same.idle h.idle, by rw [same.memory], fun _ _ => by rw [same.memory]⟩

theorem answers_read (start length : Nat) :
    Answers (read start length) d b
      ((d.sectors b.chip.memory).read start length, d.sectors b.chip.memory) := by
  obtain ⟨unit, laid⟩ := h.settled.laid
  rw [SectorArray.read, ← h.span?_eq]
  cases span : d.span? start length with
  | none =>
    simp only [Answers, read, guardReady, guardSpan, ensures_bind, ensures_get, ensures_ite,
      ensures_pure, ensures_throw, span]
    exact ⟨fun _ => ⟨trivial, trivial, h.holds_self⟩, fun unready => absurd h.ready unready⟩
  | some n =>
    refine ((ensures_read laid start length).and ((settles_read start length).ensures_undisturbed
      fun _ => Instruction.Looks.passive)).mono ?_ ?_
    · rintro ⟨count, bytes⟩ d' b' ⟨⟨-, rfl, span', -, shown⟩, same⟩
      cases span.symm.trans span'
      obtain ⟨whole, inside⟩ := span?_eq_some span
      have bytes_eq : bytes = (d'.sectors b.chip.memory).bytes start n := by
        rw [shown, Chip.shown_of_idle h.idle, ← whole, sectors, Memory.bytes_sectors inside]
      exact ⟨rfl, by rw [bytes_eq], h.holds_undisturbed same⟩
    · rintro e d' b' ⟨failed, -⟩
      exact absurd h.prompt.noFaults (failed h.ready n span).1

theorem answers_write (start : Nat) (data : Bytes) :
    Answers (write start data) d b ((d.sectors b.chip.memory).write start data) := by
  obtain ⟨unit, laid⟩ := h.settled.laid
  rw [SectorArray.write, ← h.span?_eq]
  cases span : d.span? start data.length with
  | none =>
    simp only [Answers, write, guardReady, guardSpan, ensures_bind, ensures_get, ensures_ite,
      ensures_pure, ensures_throw, span]
    exact ⟨fun _ => ⟨trivial, trivial, h.holds_self⟩, fun unready => absurd h.ready unready⟩
  | some n =>
    refine ((write_succeeds laid h.ready h.idle h.prompt h.unprotected span).ensures
      (ensures_write_busy laid start data)).mono ?_ fun _ _ _ => False.elim
    rintro count d' b' ⟨-, rfl, span', stored, busy⟩
    cases span.symm.trans span'
    obtain ⟨whole, inside⟩ := span?_eq_some span
    refine ⟨rfl, rfl, ?_, stored.sectors whole, fun i behind => ?_⟩
    · obtain ⟨free, done⟩ := Chip.isBusy_eq_false_iff.mp h.idle
      rw [busy, Chip.isBusy_busyFor free, done]
      rfl
    · have stop : (start + n) * d'.sectorSize ≤ d'.sectorCount * d'.sectorSize :=
        Nat.mul_le_mul_right _ inside
      rw [Nat.add_mul, whole] at stop
      rw [stored.2, if_neg (by omega)]

theorem answers_control (command : DiskCommand) :
    Answers (control command) d b ((d.sectors b.chip.memory).control command) := by
  cases command with
  | sync | sectorCount | sectorSize | blockSize =>
    simp only [Answers, control, guardReady, ensures_bind, ensures_get, ensures_ite, ensures_pure,
      ensures_throw]
    exact ⟨fun _ => ⟨trivial, rfl, h.holds_self⟩, fun unready => absurd h.ready unready⟩
  | trim start stop =>
    obtain ⟨unit, laid⟩ := h.settled.laid
    rw [SectorArray.control]
    by_cases range : start ≤ stop ∧ stop ≤ d.sectorCount
    · have erased := (ensures_trim laid h.ready h.prompt.free start stop).and
        (ensures_trim_prompt laid h.ready h.idle h.prompt h.unprotected range.1 range.2)
      rw [if_pos range]
      simp only [Answers, control, guardReady, ensures_bind, ensures_get, ensures_ite, ensures_pure,
        ensures_throw]
      refine ⟨fun _ => erased.mono ?_ fun _ _ _ ended => ended.2.elim,
        fun unready => absurd h.ready unready⟩
      rintro _ d' b' ⟨⟨rfl, -, inside, erased⟩, idle⟩
      rw [h.prompt.stuckCells, (Chip.isBusy_eq_false_iff.mp h.idle).2, if_neg (by omega)] at erased
      refine ⟨rfl, trivial, idle, erased.sectors, fun i behind => ?_⟩
      have inside := Nat.mul_le_mul_right d'.sectorSize inside
      rw [erased.2, if_neg (by omega)]
    · rw [if_neg range]
      simp only [Answers, control, trim, guardReady, ensures_bind, ensures_get, ensures_ite,
        ensures_pure, ensures_throw]
      exact ⟨fun _ => ⟨fun _ => ⟨trivial, trivial, h.holds_self⟩, fun _ => by omega⟩,
        fun unready => absurd h.ready unready⟩

theorem status_ready :
    (liftM status : DiskM DriveFlags).Ensures d b
      (fun flags d' b' => d' = d ∧ flags = .ready ∧ d.Holds b (d.sectors b.chip.memory) b')
      fun _ _ _ => False := by
  have settles : Driver.Settles Driver.isProtected Instruction.Looks d.flash :=
    Driver.settles_isProtected
  have clear := (isProtected_clear h.awake h.prompt.noFaults h.unprotected).and
    ((settles.ensures b).and (settles.ensures_undisturbed fun _ => Instruction.Looks.passive))
  rw [status, ensures_liftM_bind, ensures_liftM_state]
  show Ensures (liftM (if d.flash.state = .ready then _ else _)) d b _ _
  rw [if_pos h.ready, ensures_liftM_bind, Driver.ensures_onFlash]
  refine clear.mono ?_ fun _ _ _ ended => ended.1.elim
  rintro _ _ b' ⟨rfl, rfl, same⟩
  exact ⟨rfl, rfl, h.holds_undisturbed same⟩

/-- An operation answers as the array does. -/
theorem ensures_serve (operation : DiskOperation) :
    (liftM operation.run : DiskM DiskOutcome).Ensures d b
      (fun outcome d' b' => d' = d ∧ outcome = ((d.sectors b.chip.memory).serve operation).1 ∧
        d.Holds b ((d.sectors b.chip.memory).serve operation).2 b')
      fun _ _ _ => False := by
  have wrapped {α : Type} {op : DiskM α}
      {answer : Except DiskError α × SectorArray d.sectorCount d.sectorSize}
      (wrap : Except DiskError α → DiskOutcome) (answers : Answers op d b answer) :
      (liftM (wrap <$> ExceptT.run op) : DiskM DiskOutcome).Ensures d b
        (fun outcome d' b' => d' = d ∧ outcome = wrap answer.1 ∧ d.Holds b answer.2 b')
        fun _ _ _ => False := by
    rw [ensures_liftM_run]
    refine Ensures.mono answers ?_ ?_
    · rintro v d' b' ⟨same, given, holds⟩
      exact ⟨same, by rw [given], holds⟩
    · rintro e d' b' ⟨same, given, holds⟩
      exact ⟨same, by rw [given], holds⟩
  cases operation with
  | status | startUp =>
    rw [DiskOperation.run, map_eq_pure_bind, ensures_liftM_bind]
    refine h.status_ready.mono ?_ fun _ _ _ => id
    rintro _ d' b' ⟨rfl, rfl, holds⟩
    exact ⟨rfl, rfl, holds⟩
  | geometry => exact ⟨rfl, rfl, h.holds_self⟩
  | read start length => exact wrapped .read (h.answers_read start length)
  | write start data => exact wrapped .write (h.answers_write start data)
  | control command => exact wrapped .control (h.answers_control command)

/-- The disk is in order behind every operation that leaves the chip idle. -/
theorem ensures_inOrder (operation : DiskOperation) :
    (liftM operation.run : DiskM DiskOutcome).Ensures d b
      (fun _ d' b' => d' = d → b'.chip.isBusy = false → d.InOrder b') fun _ _ _ => True := by
  refine (((operation.keeps_run d b h.settled).and (ensures_endures _)).and
    ((operation.always_run d).ensures_protectBits fun _ => id)).mono ?_ fun _ _ _ _ => trivial
  rintro _ _ b' ⟨⟨settled, -, endures⟩, protectBits⟩ rfl idle
  exact ⟨settled, h.ready, idle, h.prompt.later endures, protectBits.trans h.unprotected⟩

/-- So the operation is one of the array, and the next one will be too. -/
theorem exists_run (operation : DiskOperation) : ∃ b',
    (operation.run.run d).run b =
      ((((d.sectors b.chip.memory).serve operation).1, d), b') ∧
    d.Holds b ((d.sectors b.chip.memory).serve operation).2 b' ∧ d.InOrder b' := by
  have ended := (ensures_liftM_state operation.run).mp
    ((h.ensures_serve operation).and (h.ensures_inOrder operation))
  rcases run : (operation.run.run d).run b with ⟨⟨outcome, d'⟩, b'⟩
  rw [run] at ended
  obtain ⟨⟨same, given, holds⟩, inOrder⟩ := ended
  exact ⟨b', by rw [show outcome = _ from given, show d' = d from same], holds,
    inOrder same holds.idle⟩

end InOrder

end Disk

/-! ### Calls -/

theorem Disk.Holds.trans {d : Disk} {b b₁ b₂ : Bench}
    {a a' : SectorArray d.sectorCount d.sectorSize} (h : d.Holds b a b₁) (h' : d.Holds b₁ a' b₂) :
    d.Holds b a' b₂ :=
  ⟨h'.idle, h'.contents, fun i behind => (h'.behind i behind).trans (h.behind i behind)⟩

namespace Session

variable {s : Session} {d : Disk}

/-- A call is answered as by the array, and leaves the disk in order. -/
theorem exists_step_call (found : s.device.disk? = some d) (h : d.InOrder s.bench)
    (call : DiskCall) : ∃ b',
    s.step call.action = (((d.sectors s.bench.chip.memory).step call).1,
      ⟨s.compareBuffer, s.device, b'⟩) ∧
    d.Holds s.bench ((d.sectors s.bench.chip.memory).step call).2 b' ∧ d.InOrder b' := by
  have same := Device.withDisk_self found
  cases call with
  | alone operation =>
    obtain ⟨b₁, run, holds, inOrder⟩ := h.exists_run operation
    refine ⟨b₁, ?_, holds, inOrder⟩
    simp only [DiskCall.action, Session.step, Session.onDisk, found, run, same]
    rfl
  | together first second =>
    obtain ⟨b₁, run₁, holds₁, inOrder₁⟩ := h.exists_run first
    obtain ⟨b₂, run₂, holds₂, inOrder₂⟩ := inOrder₁.exists_run second
    rw [holds₁.contents] at run₂ holds₂
    refine ⟨b₂, ?_, holds₁.trans holds₂, inOrder₂⟩
    simp only [DiskCall.action, Session.step, Session.onDisk, found, DiskOperation.run_runInTurn,
      Script.run_bind, run₁, run₂, Script.run_done, same]
    rfl

theorem exists_run_calls (found : s.device.disk? = some d) (h : d.InOrder s.bench)
    (calls : List DiskCall) : ∃ b',
    s.run (calls.map DiskCall.action) = ⟨s.compareBuffer, s.device, b'⟩ ∧
    d.Holds s.bench ((d.sectors s.bench.chip.memory).run calls) b' ∧ d.InOrder b' := by
  induction calls generalizing s with
  | nil => exact ⟨s.bench, rfl, h.holds_self, h⟩
  | cons call calls ih =>
    obtain ⟨b₁, step, holds₁, inOrder₁⟩ := exists_step_call found h call
    obtain ⟨b₂, run, holds₂, inOrder₂⟩ := ih (s := ⟨s.compareBuffer, s.device, b₁⟩) found inOrder₁
    rw [holds₁.contents] at holds₂
    refine ⟨b₂, ?_, holds₁.trans holds₂, inOrder₂⟩
    show (s.step call.action).2.run _ = _
    rw [step]
    exact run

/-- Without faults a disk is an array of sectors. Once its chip has been identified, whatever had
been done before, and set up so that nothing is wrong with it, every call in every sequence is
answered as by the array, whose contents are those of the chip after every call. The sectors are
the whole ones that fit on the chip, and the cells behind them never change. -/
theorem disk_is_sector_array (id : Identity) (link : Link) (compareBuffer : CompareBuffer)
    (options : DriverOptions) (actions : List Action) {v : FlashValue} {s₁ : Session}
    (identified : ((create id link compareBuffer options).run actions).step (.flash .identify) =
      (.flash (.ok v), s₁))
    {setUp : List Action} (setsUp : ∀ a ∈ setUp, a.SetsUp) {s : Session} (set : s = s₁.run setUp)
    {d : Disk} (found : s.device.disk? = some d) (noFaults : s.bench.chip.faults = .none)
    (free : s.bench.chip.stuckBusy = false) (unstuck : s.bench.chip.stuckCells = [])
    (unprotected : s.bench.chip.protectBits = 0)
    (programs : s.bench.chip.programBusy < d.flash.options.maxPolls)
    (erases : s.bench.chip.eraseBusy ≤ d.flash.options.eraseTimeout) (calls : List DiskCall) :
    d.sectorCount = s.bench.chip.memory.size / d.sectorSize ∧
    (∀ call, ((s.run (calls.map DiskCall.action)).step call.action).1 =
      (((d.sectors s.bench.chip.memory).run calls).step call).1) ∧
    d.sectors (s.run (calls.map DiskCall.action)).bench.chip.memory =
      (d.sectors s.bench.chip.memory).run calls ∧
    (∀ i, d.sectorCount * d.sectorSize ≤ i →
      (s.run (calls.map DiskCall.action)).bench.chip.memory.byteAt i =
        s.bench.chip.memory.byteAt i) ∧
    (s.run (calls.map DiskCall.action)).device = s.device := by
  have initialised : s.Initialised := by
    obtain ⟨recognised, fitted⟩ := recognised_fitted_run
      ⟨recognised_create id link compareBuffer options,
        fitted_create id link compareBuffer options⟩ actions
    rw [set]
    exact (initialised_of_identified recognised fitted identified).run setsUp
  have placed : s.bench.chip.Placed := by
    rw [Chip.Placed, unprotected]
    rfl
  have inOrder : d.InOrder s.bench :=
    { settled := (initialised.settled.device.disk found).1
      ready := initialised.ready _ (Device.driver?_of_disk? found)
      idle := Chip.isBusy_eq_false_iff.mpr ⟨free, initialised.done⟩
      prompt := ⟨noFaults, free, unstuck, placed, programs, erases⟩
      unprotected }
  obtain ⟨b', run, holds, inOrder'⟩ := exists_run_calls found inOrder calls
  rw [run]
  refine ⟨by rw [Disk.sectorCount, inOrder.knows.layout_size], fun call => ?_, holds.contents,
    holds.behind, rfl⟩
  obtain ⟨b'', step, -⟩ :=
    exists_step_call (s := ⟨s.compareBuffer, s.device, b'⟩) found inOrder' call
  rw [step, ← holds.contents]

/-- Zeros for the first sector of a fresh disk are stored there. Its 256 sectors can be counted,
while a trim with its ends the wrong way round is refused. -/
theorem fresh_disk_is_sector_array : ∃ d, freshDisk.device.disk? = some d ∧
    ((freshDisk.run [.disk (.write 0 (List.replicate 4096 0))]).step
      (.join (.control .sectorCount) (.control (.trim 2 1)))).1 =
      .join (.control (.ok (.sectorCount 256))) (.control (.error .invalidParameter)) ∧
    d.sectors (freshDisk.run [.disk (.write 0 (List.replicate 4096 0))]).bench.chip.memory =
      (d.sectors freshDisk.bench.chip.memory).store 0 1 (List.replicate 4096 0) := by
  obtain ⟨v, s₁, identified, set⟩ : ∃ v s₁,
      ((create ⟨0xEF, 0x40, 0x14⟩ .direct .standard .standard).run []).step (.flash .identify) =
        (.flash (.ok v), s₁) ∧ freshDisk = s₁.run [.intoDisk ⟨none⟩, .share] := ⟨_, _, rfl, rfl⟩
  obtain ⟨d, found, options, count, size⟩ : ∃ d, freshDisk.device.disk? = some d ∧
      d.flash.options = .standard ∧ d.sectorCount = 256 ∧ d.sectorSize = 4096 :=
    ⟨_, rfl, rfl, rfl, rfl⟩
  obtain ⟨-, answered, contents, -⟩ := disk_is_sector_array _ _ _ _ _ identified
    (by simp [Action.SetsUp]) set found rfl rfl rfl rfl (by rw [options]; decide)
    (by rw [options]; decide) [.alone (.write 0 (List.replicate 4096 0))]
  have length : (List.replicate 4096 (0 : UInt8)).length = 4096 := List.length_replicate
  generalize List.replicate 4096 (0 : UInt8) = zeros at answered contents length ⊢
  refine ⟨d, found, ?_, contents.trans ?_⟩
  · refine (answered (.together (.control .sectorCount) (.control (.trim 2 1)))).trans ?_
    simp [SectorArray.step, SectorArray.serve, SectorArray.control, count]
  · simp [SectorArray.run, SectorArray.step, SectorArray.serve, SectorArray.write,
      SectorArray.span?, length, count, size]

end Session

end SerialFlash
