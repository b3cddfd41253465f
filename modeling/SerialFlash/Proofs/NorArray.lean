import SerialFlash.NorArray
import SerialFlash.Proofs.Initialised
import SerialFlash.Proofs.Promptness
import SerialFlash.Proofs.Recovery

/-!
Without faults the generic interface is a NOR array. A driver is in order if it is ready and
settled, and its chip idle and prompt. Then a call whose range is inside the array does to the
memory what it does to the array, and leaves the driver in order: a write is cut into pages and an
erase into units, and each step finds the chip idle and leaves it so. A call that the array refuses
is refused before anything is sent. The protection bits do not matter, for the interface does not
look at them and the chip does not enforce them, and neither does the erase unit of the driver.
-/

namespace SerialFlash

open Procedure

/-! ### Contents -/

/-- A call that fails leaves the array as it was. -/
theorem NorArray.step_of_error {capacity : Nat} {a : NorArray capacity} {call : NorCall}
    {e : DriverError BusError} (failed : (a.step call).1 = .error e) : (a.step call).2 = a := by
  have silent (result : Except (DriverError BusError) (NorArray capacity))
      (failed : (a.silent result).1 = .error e) : (a.silent result).2 = a := by
    cases result with
    | ok changed => nomatch failed
    | error _ => rfl
  cases call with
  | read offset length => rfl
  | write offset data => exact silent _ failed
  | erase start stop => exact silent _ failed

namespace Memory

variable {m m' : Memory} {capacity start stop : Nat}

theorem array_eq_update {new : Nat → UInt8 → UInt8}
    (cells : ∀ k, m'.byteAt k =
      if start ≤ k ∧ k < stop then new k (m.byteAt k) else m.byteAt k) :
    m'.array capacity = (m.array capacity).update start stop new := by
  unfold array NorArray.update
  congr 1
  refine Vector.ext fun k hk => ?_
  simp only [Vector.getElem_mapIdx, Vector.getElem_ofFn]
  exact cells k

theorem ProgramsTo.array {offset : Nat} {data : Bytes} (programmed : m.ProgramsTo offset data m')
    (inside : offset + data.length ≤ capacity) :
    (m.array capacity).write offset data = .ok (m'.array capacity) := by
  have updated : m'.array capacity = (m.array capacity).update offset (offset + data.length)
      fun k old => old &&& data.getD (k - offset) 0 := array_eq_update programmed.2
  rw [NorArray.write, if_pos inside, updated]

theorem ErasesTo.array (erased : m.ErasesTo [] start stop m') :
    m'.array capacity = (m.array capacity).update start stop fun _ _ => 0xFF :=
  array_eq_update erased.2

theorem read_array {offset length : Nat} (inside : offset + length ≤ capacity) :
    (m.array capacity).read offset length = .ok (m.slice offset length) := by
  rw [NorArray.read, if_pos inside]
  congr 1
  refine List.ext_getElem (by simp; omega) fun k _ _ => ?_
  simp [array, slice]

end Memory

/-! ### Erases -/

namespace Driver

variable {unit : EraseUnit} {d : Driver} {b : Bench}

/-- A sound chip is idle behind a run of erases that end in time, and has lost none of them. -/
theorem ensures_eraseFrom_sound {alone : Prop} (settled : d.Settled alone unit b)
    (ready : d.state = .ready) (idle : b.chip.isBusy = false) (sound : b.chip.Sound)
    (within : b.chip.eraseBusy ≤ d.options.eraseTimeout) {units offset : Nat}
    (bound : offset + units * sectorSize4K ≤ d.layout.size) :
    (Nor.eraseFrom units offset).Ensures d b (fun _ _ b' => b'.chip.isBusy = false)
      fun _ _ _ => False := by
  induction units generalizing b offset with
  | zero => exact idle
  | succ units ih =>
    have knows := settled.attuned.knows (by rw [ready]; trivial)
    have reach := knows.size_bounds.2.2
    have word := knows.size_lt_limit
    rw [knows.layout_size, Nat.succ_mul, Nat.add_comm (units * sectorSize4K)] at bound
    have fits : (Instruction.eraseSector .sector4K offset).Fits := by
      show offset < 16777216
      unfold sectorSize4K at bound
      omega
    have next : Word32.satAdd offset Nor.eraseSize = offset + sectorSize4K :=
      Word32.satAdd_of_lt (by show offset + sectorSize4K < _; omega)
    have erased : (beginErase (.eraseSector .sector4K offset) >>= fun _ => finishErase).Ensures d b
        (fun _ d' b' => d' = d ∧ d.Settled alone unit b' ∧ b.chip.Endures b'.chip ∧
          b'.chip.isBusy = false) fun _ _ _ => False :=
      (eraseToEnd_succeeds settled ready idle sound within fits rfl).ensures
        ((ensures_bind _ _).mpr (ensures_eraseToEnd settled fits rfl
          (fun _ _ _ _ => trivial) (fun _ _ _ _ _ => trivial)
          fun _ _ settled' endures idle' _ => ⟨rfl, settled', endures, idle'⟩))
    have split : Nor.eraseFrom (units + 1) offset = (do
        beginErase (.eraseSector .sector4K offset) >>= fun _ => finishErase
        Nor.eraseFrom units (Word32.satAdd offset Nor.eraseSize)) := by
      rw [Nor.eraseFrom, bind_assoc]
    rw [split, next, ensures_bind]
    refine erased.mono ?_ fun _ _ _ => False.elim
    rintro _ _ b₁ ⟨rfl, settled₁, endures₁, idle₁⟩
    exact ih settled₁ idle₁ (sound.later endures₁) (endures₁.eraseBusy ▸ within)
      (by rw [knows.layout_size]; omega)

/-! ### Calls -/

/-- Nothing is in the way of the driver: it is ready, and the chip is idle and prompt. -/
structure InOrder (d : Driver) (b : Bench) : Prop where
  settled : ∃ unit, d.Settled True unit b
  ready : d.state = .ready
  idle : b.chip.isBusy = false
  prompt : b.chip.Prompt d.options

/-- The array that the interface shows. -/
def array (d : Driver) (m : Memory) : NorArray (Nor.capacity d) :=
  m.array (Nor.capacity d)

/-- The operation gives the answer of an array and leaves the memory with its contents, or is
refused as by the array before anything has happened. -/
def Answers (op : FlashM FlashValue) (d : Driver) (b : Bench)
    (answer : Except (DriverError BusError) FlashValue × NorArray (Nor.capacity d)) : Prop :=
  op.Ensures d b
    (fun v d' b' => d' = d ∧ answer.1 = .ok v ∧ b'.chip.isBusy = false ∧
      d.array b'.chip.memory = answer.2)
    fun e d' b' => d' = d ∧ answer.1 = .error e ∧ b' = b

namespace InOrder

variable (h : d.InOrder b)

include h

theorem knows : d.Knows True b := by
  obtain ⟨unit, settled⟩ := h.settled
  exact settled.attuned.knows (by rw [h.ready]; trivial)

theorem covers_iff {offset length : Nat} :
    d.layout.covers offset length = true ↔ offset + length ≤ Nor.capacity d := by
  rw [h.knows.covers_iff, ← h.knows.layout_size]
  rfl

theorem answers_read (offset length : Nat) :
    Answers (.bytes <$> Nor.read offset length) d b
      (((d.array b.chip.memory).read offset length).map .bytes, d.array b.chip.memory) := by
  obtain ⟨unit, settled⟩ := h.settled
  rw [Answers, ensures_map]
  by_cases inside : offset + length ≤ Nor.capacity d
  · have bound : offset + length ≤ b.chip.memory.size := h.knows.layout_size ▸ inside
    have undisturbed := (settles_read (d := d) offset length).ensures_undisturbed (b := b)
      fun _ => Instruction.Looks.passive
    refine ((ensures_read settled offset length).and undisturbed).mono ?_ fun _ _ _ failed =>
      absurd h.prompt.noFaults (failed.1 h.ready bound)
    rintro bytes d' b' ⟨⟨-, rfl, -, shown, -⟩, same⟩
    refine ⟨rfl, ?_, same.idle h.idle, by rw [same.memory]⟩
    rw [array, Memory.read_array inside, shown, Chip.shown_of_idle h.idle]
    rfl
  · have outside : d.layout.covers offset length = false :=
      Bool.eq_false_iff.mpr fun covers => inside (h.covers_iff.mp covers)
    simp only [Nor.read, Driver.read, ensures_bind, ensures_get, ensures_ite, ensures_throw,
      ensures_guardReady, outside]
    refine ⟨fun _ => ⟨fun covers => absurd covers Bool.false_ne_true, fun _ => ?_⟩,
      fun unready => absurd h.ready unready⟩
    rw [NorArray.read, if_neg inside]
    exact ⟨trivial, rfl, trivial⟩

theorem answers_write (offset : Nat) (data : Bytes) :
    Answers (FlashOperation.silent (Nor.write offset data)) d b
      ((d.array b.chip.memory).silent ((d.array b.chip.memory).write offset data)) := by
  obtain ⟨unit, settled⟩ := h.settled
  rw [Answers, FlashOperation.silent, ensures_map]
  by_cases inside : offset + data.length ≤ Nor.capacity d
  · have bound : offset + data.length ≤ b.chip.memory.size := h.knows.layout_size ▸ inside
    refine ((program_succeeds settled h.ready h.idle h.prompt bound).ensures
      (ensures_program settled offset data)).mono ?_ fun _ _ _ => False.elim
    rintro _ d' b' ⟨-, rfl, -, idle, programmed⟩
    rw [h.idle, if_neg Bool.false_ne_true, if_neg Bool.false_ne_true] at programmed
    rw [h.idle] at idle
    rw [array, programmed.array inside]
    exact ⟨rfl, rfl, idle, rfl⟩
  · have outside : d.layout.covers offset data.length = false :=
      Bool.eq_false_iff.mpr fun covers => inside (h.covers_iff.mp covers)
    simp only [Nor.write, program, ensures_bind, ensures_get, ensures_ite, ensures_throw,
      ensures_guardReady, outside]
    refine ⟨fun _ => ⟨fun covers => absurd covers Bool.false_ne_true, fun _ => ?_⟩,
      fun unready => absurd h.ready unready⟩
    rw [NorArray.write, if_neg inside]
    exact ⟨trivial, rfl, trivial⟩

theorem answers_erase (start stop : Nat) :
    Answers (FlashOperation.silent (Nor.erase start stop)) d b
      ((d.array b.chip.memory).silent ((d.array b.chip.memory).erase start stop)) := by
  obtain ⟨unit, settled⟩ := h.settled
  rw [Answers, FlashOperation.silent, ensures_map, NorArray.erase]
  by_cases outside : stop < start ∨ Nor.capacity d < stop
  · rw [if_pos outside]
    simp only [Nor.erase, ensures_bind, ensures_get, ensures_ite, ensures_throw]
    exact ⟨fun _ => ⟨trivial, rfl, trivial⟩, fun inside => absurd outside inside⟩
  by_cases uneven : start % 4096 ≠ 0 ∨ stop % 4096 ≠ 0
  · rw [if_neg outside, if_pos uneven]
    simp only [Nor.erase, ensures_bind, ensures_get, ensures_ite, ensures_throw]
    refine ⟨fun out => absurd out outside, fun _ => ⟨fun even => ?_, fun _ => ?_⟩⟩
    · simp only [Nor.eraseSize, sectorSize4K] at even
      omega
    · exact ⟨trivial, rfl, trivial⟩
  · rw [if_neg outside, if_neg uneven]
    have bound : start + (stop - start) / Nor.eraseSize * sectorSize4K ≤ d.layout.size := by
      simp only [Nor.eraseSize, sectorSize4K, Nor.capacity] at outside ⊢
      omega
    have finished : (Nor.erase start stop).Ensures d b (fun _ _ b' => b'.chip.isBusy = false)
        fun _ _ _ => False := by
      simp only [Nor.erase, ensures_bind, ensures_get, ensures_ite, ensures_throw]
      refine ⟨fun out => absurd out outside, fun _ => ⟨fun _ => ?_, fun odd => odd ?_⟩⟩
      · exact ensures_eraseFrom_sound settled h.ready h.idle h.prompt.sound h.prompt.eraseBusy bound
      · simp only [Nor.eraseSize, sectorSize4K]
        omega
    refine ((ensures_norErase settled start stop).and finished).mono ?_
      fun _ _ _ ended => ended.2.elim
    rintro _ d' b' ⟨⟨rfl, -, -, erased⟩, idle⟩
    rw [h.prompt.stuckCells, h.idle, if_neg Bool.false_ne_true] at erased
    exact ⟨rfl, rfl, idle, erased.array⟩

/-- A call is answered as by the array. -/
theorem answers (call : NorCall) :
    Answers call.operation.run d b ((d.array b.chip.memory).step call) := by
  cases call with
  | read offset length => exact h.answers_read offset length
  | write offset data => exact h.answers_write offset data
  | erase start stop => exact h.answers_erase start stop

/-- So the call is one of the array, and the next one will be too. -/
theorem exists_run (call : NorCall) : ∃ b',
    (call.operation.run.script d).run b = ((((d.array b.chip.memory).step call).1, d), b') ∧
    d.array b'.chip.memory = ((d.array b.chip.memory).step call).2 ∧ d.InOrder b' ∧
    ∀ e, ((d.array b.chip.memory).step call).1 = .error e → b' = b := by
  obtain ⟨unit, settled⟩ := h.settled
  have ended := ((h.answers call).and
    ((call.operation.keeps_run d b settled).and (ensures_endures _)))
  unfold Ensures at ended
  rcases run : (call.operation.run.script d).run b with ⟨⟨v | e, d'⟩, b'⟩
  · rw [run] at ended
    obtain ⟨⟨rfl, failed, rfl⟩, -⟩ := ended
    exact ⟨b', by rw [failed], (NorArray.step_of_error failed).symm, h, fun _ _ => rfl⟩
  · rw [run] at ended
    obtain ⟨⟨rfl, given, idle, contents⟩, settled', -, endures⟩ := ended
    exact ⟨b', by rw [given], contents, ⟨⟨unit, settled'⟩, h.ready, idle, h.prompt.later endures⟩,
      fun e failed => nomatch given.symm.trans failed⟩

end InOrder

end Driver

/-! ### Sessions -/

namespace Session

variable {s : Session} {d : Driver}

/-- A call is answered as by the array, and leaves the driver in order. -/
theorem exists_step_norCall (found : s.device.driver? = some d) (h : d.InOrder s.bench)
    (call : NorCall) : ∃ b',
    s.step call.action = (.flash ((d.array s.bench.chip.memory).step call).1,
      ⟨s.compareBuffer, s.device, b'⟩) ∧
    d.array b'.chip.memory = ((d.array s.bench.chip.memory).step call).2 ∧ d.InOrder b' ∧
    ∀ e, ((d.array s.bench.chip.memory).step call).1 = .error e → b' = s.bench := by
  obtain ⟨b', run, rest⟩ := h.exists_run call
  refine ⟨b', ?_, rest⟩
  rw [NorCall.action, step_flash_eq found, run, Device.withDriver_self found]

theorem exists_run_norCalls (found : s.device.driver? = some d) (h : d.InOrder s.bench)
    (calls : List NorCall) : ∃ b',
    s.run (calls.map NorCall.action) = ⟨s.compareBuffer, s.device, b'⟩ ∧
    d.array b'.chip.memory = (d.array s.bench.chip.memory).run calls ∧ d.InOrder b' := by
  induction calls generalizing s with
  | nil => exact ⟨s.bench, rfl, rfl, h⟩
  | cons call calls ih =>
    obtain ⟨b₁, step, contents₁, inOrder₁, -⟩ := exists_step_norCall found h call
    obtain ⟨b₂, run, contents₂, inOrder₂⟩ :=
      ih (s := ⟨s.compareBuffer, s.device, b₁⟩) found inOrder₁
    refine ⟨b₂, ?_, ?_, inOrder₂⟩
    · show (s.step call.action).2.run _ = _
      rw [step]
      exact run
    · rw [contents₂, contents₁]
      rfl

theorem placed_run (placed : s.bench.chip.Placed) (actions : List Action) :
    (s.run actions).bench.chip.Placed :=
  run_preserves (I := fun s => s.bench.chip.Placed) (fun _ a _ placed => placed_step placed a)
    placed

/-- Without faults the generic interface is a NOR array. Once the chip has been identified, whatever
had been done before, and set up so that nothing is wrong with it, every call in every sequence is
answered as by the array, whose bytes are those of the chip after every call. A call that fails
changes nothing at all. -/
theorem nor_is_array (id : Identity) (link : Link) (compareBuffer : CompareBuffer)
    (options : DriverOptions) (actions : List Action) {v : FlashValue} {s₁ : Session}
    (identified : ((create id link compareBuffer options).run actions).step (.flash .identify) =
      (.flash (.ok v), s₁))
    {setUp : List Action} (setsUp : ∀ a ∈ setUp, a.SetsUp) {s : Session} (set : s = s₁.run setUp)
    {d : Driver} (found : s.device.driver? = some d) (noFaults : s.bench.chip.faults = .none)
    (free : s.bench.chip.stuckBusy = false) (unstuck : s.bench.chip.stuckCells = [])
    (programs : s.bench.chip.programBusy < d.options.maxPolls)
    (erases : s.bench.chip.eraseBusy ≤ d.options.eraseTimeout) (calls : List NorCall) :
    Nor.capacity d = (s.run (calls.map NorCall.action)).bench.chip.memory.size ∧
    d.array (s.run (calls.map NorCall.action)).bench.chip.memory =
      (d.array s.bench.chip.memory).run calls ∧
    (∀ call : NorCall, ((s.run (calls.map NorCall.action)).step call.action).1 =
      .flash (((d.array s.bench.chip.memory).run calls).step call).1) ∧
    ∀ (call : NorCall) e,
      ((s.run (calls.map NorCall.action)).step call.action).1 = .flash (.error e) →
      ((s.run (calls.map NorCall.action)).step call.action).2 =
        s.run (calls.map NorCall.action) := by
  have initialised : s.Initialised := by
    obtain ⟨recognised, fitted⟩ := recognised_fitted_run
      ⟨recognised_create id link compareBuffer options,
        fitted_create id link compareBuffer options⟩ actions
    rw [set]
    exact (initialised_of_identified recognised fitted identified).run setsUp
  have placed : s.bench.chip.Placed := by
    have before := placed_step (placed_run (s := create id link compareBuffer options)
      UInt8.zero_and actions) (.flash .identify)
    rw [identified] at before
    rw [set]
    exact placed_run before setUp
  have inOrder : d.InOrder s.bench := by
    obtain ⟨unit, settled, -⟩ := initialised.settled.device.driver found
    exact ⟨⟨unit, settled⟩, initialised.ready d found,
      Chip.isBusy_eq_false_iff.mpr ⟨free, initialised.done⟩,
      ⟨noFaults, free, unstuck, placed, programs, erases⟩⟩
  obtain ⟨b', run, contents, inOrder'⟩ := exists_run_norCalls found inOrder calls
  have answered call :=
    exists_step_norCall (s := ⟨s.compareBuffer, s.device, b'⟩) found inOrder' call
  rw [run]
  refine ⟨inOrder'.knows.layout_size, contents, fun call => ?_, fun call e failed => ?_⟩
  · obtain ⟨b'', step, -⟩ := answered call
    rw [step, ← contents]
  · obtain ⟨b'', step, -, -, refused⟩ := answered call
    rw [step] at failed ⊢
    rw [refused e (Outcome.flash.inj failed)]

/-- A driver for blocks of 64 KiB has a chip with protected ones. Data across a page boundary is
written, an erase of half a unit is refused, and a single unit of 4 KiB can be erased. -/
theorem fresh_nor_is_array : ∃ s d,
    s = (create ⟨0xEF, 0x40, 0x14⟩ (.wide .standard) .standard
      { DriverOptions.standard with eraseUnit := .block64K }).run
        [.flash .identify, .configure (.protection 7)] ∧
    s.device.driver? = some d ∧ d.layout.sectorSize = 65536 ∧
    ((s.run [.flash (.norWrite 255 [0xF0, 0x0F])]).step (.flash (.norErase 0 2048))).1 =
      .flash (.error .misaligned) ∧
    d.array (s.run [.flash (.norWrite 255 [0xF0, 0x0F]),
      .flash (.norErase 4096 8192)]).bench.chip.memory =
      ((d.array s.bench.chip.memory).update 255 257
        fun k old => old &&& [0xF0, 0x0F].getD (k - 255) 0).update 4096 8192 fun _ _ => 0xFF := by
  obtain ⟨v, s₁, s, identified, set, unfolded⟩ : ∃ v s₁ s,
      ((create ⟨0xEF, 0x40, 0x14⟩ (.wide .standard) .standard
        { DriverOptions.standard with eraseUnit := .block64K }).run []).step (.flash .identify) =
          (.flash (.ok v), s₁) ∧ s = s₁.run [.configure (.protection 7)] ∧
      s = (create ⟨0xEF, 0x40, 0x14⟩ (.wide .standard) .standard
        { DriverOptions.standard with eraseUnit := .block64K }).run
          [.flash .identify, .configure (.protection 7)] := ⟨_, _, _, rfl, rfl, rfl⟩
  obtain ⟨d, found, polls, time, capacity, sectorSize⟩ : ∃ d, s.device.driver? = some d ∧
      d.options.maxPolls = 100 ∧ d.options.eraseTimeout = 400000 ∧ Nor.capacity d = 0x100000 ∧
      d.layout.sectorSize = 65536 := by
    rw [unfolded]
    exact ⟨_, rfl, rfl, rfl, rfl, rfl⟩
  have array calls := nor_is_array _ _ _ _ [] identified
    (by simp [Action.SetsUp, Setting.LeavesQuad]) set found (by rw [unfolded]; rfl)
    (by rw [unfolded]; rfl) (by rw [unfolded]; rfl)
    (by rw [unfolded, polls]; decide) (by rw [unfolded, time]; decide) calls
  refine ⟨s, d, unfolded, found, sectorSize, ?_, ?_⟩
  · refine ((array [.write 255 [0xF0, 0x0F]]).2.2.1 (.erase 0 2048)).trans ?_
    simp [NorArray.step, NorArray.erase, NorArray.silent, capacity]
  · refine (array [.write 255 [0xF0, 0x0F], .erase 4096 8192]).2.1.trans ?_
    simp [NorArray.run, NorArray.step, NorArray.write, NorArray.erase, NorArray.silent, capacity]

end Session

end SerialFlash
