import SerialFlash.Proofs.Erasure
import SerialFlash.Proofs.IdentificationOutcome
import SerialFlash.Proofs.Links

/-!
What an erase check finds. On a chip that does what it is told a sector is read in chunks of the
compare buffer's size, up to the chunk that holds the first byte which is not erased, and the
address of that byte is reported. The size of the buffer shows in the reads and in nothing else.
-/

namespace SerialFlash

/-! ### The first byte that is not erased -/

namespace Memory

/-- The first address of a range whose cell is not erased. -/
def firstUnerased? (m : Memory) (start length : Nat) : Option Nat :=
  ((m.slice start length).findIdx? (· != erasedByte)).map (start + ·)

variable {m m' : Memory} {start length i : Nat}

theorem firstUnerased?_eq_none_iff :
    m.firstUnerased? start length = none ↔
      ∀ i, start ≤ i → i < start + length → m.byteAt i = erasedByte := by
  rw [← slice_eq_replicate_iff, List.eq_replicate_iff, and_iff_right (length_slice _ _ _),
    firstUnerased?, Option.map_eq_none_iff, List.findIdx?_eq_none_iff]
  simp only [bne_eq_false_iff_eq]

theorem firstUnerased?_eq_some_iff :
    m.firstUnerased? start length = some i ↔
      start ≤ i ∧ i < start + length ∧ m.byteAt i ≠ erasedByte ∧
        ∀ j, start ≤ j → j < i → m.byteAt j = erasedByte := by
  rw [firstUnerased?, Option.map_eq_some_iff]
  constructor
  · rintro ⟨k, found, rfl⟩
    obtain ⟨bound, bad, before⟩ := List.findIdx?_eq_some_iff_getElem.mp found
    rw [length_slice] at bound
    refine ⟨Nat.le_add_right _ _, Nat.add_lt_add_left bound _, by simpa [slice] using bad, ?_⟩
    intro j le lt
    have clean := before (j - start) (by omega)
    simpa [slice, Nat.add_sub_cancel' le] using clean
  · rintro ⟨le, lt, bad, before⟩
    refine ⟨i - start, List.findIdx?_eq_some_iff_getElem.mpr ⟨?_, ?_, fun j lt' => ?_⟩, by omega⟩
    · rw [length_slice]
      omega
    · simpa [slice, Nat.add_sub_cancel' le] using bad
    · simpa [slice] using before (start + j) (Nat.le_add_right _ _) (by omega)

/-- A range is searched by searching its front and then the rest. -/
theorem firstUnerased?_add (m : Memory) (start a b : Nat) :
    m.firstUnerased? start (a + b) =
      (m.firstUnerased? start a).or (m.firstUnerased? (start + a) b) := by
  simp only [firstUnerased?, slice_add, List.findIdx?_append, length_slice]
  cases (m.slice start a).findIdx? (· != erasedByte) with
  | some k => rfl
  | none =>
    simp only [Option.none_or, Option.map_none, Option.map_map]
    congr 1
    funext k
    simp only [Function.comp_apply]
    omega

theorem firstUnerased?_congr
    (same : ∀ i, start ≤ i → i < start + length → m'.byteAt i = m.byteAt i) :
    m'.firstUnerased? start length = m.firstUnerased? start length := by
  rw [firstUnerased?, slice_congr same]
  rfl

end Memory

/-! ### The course of a check -/

/-- Chunks that are read of a range, if this is the first byte in it that is not erased. -/
def chunksRead (step chunks offset : Nat) : Option Nat → Nat
  | none => chunks
  | some i => (i - offset) / step + 1

/-- Reads of so many chunks, one behind the other. -/
def chunkReads (step offset count : Nat) : List Instruction :=
  (List.range count).map fun k => .readArray (offset + k * step) step

theorem chunkReads_succ (step offset count : Nat) :
    chunkReads step offset (count + 1) =
      .readArray offset step :: chunkReads step (offset + step) count := by
  rw [chunkReads, List.range_succ_eq_map, List.map_cons, List.map_map, Nat.zero_mul, Nat.add_zero]
  refine congrArg (List.cons _) (List.map_congr_left fun k _ => ?_)
  simp only [Function.comp_apply, Nat.succ_mul, Nat.add_assoc, Nat.add_comm step]

namespace Chip

/-- What an erase check reports of the first byte that is not erased. -/
def checkAnswer : Option Nat → Except (DriverError BusError) Unit
  | none => .ok ()
  | some i => .error (.notErased i)

theorem checkAnswer_eq_ok_iff {found : Option Nat} : checkAnswer found = .ok () ↔ found = none := by
  cases found <;> simp [checkAnswer]

theorem checkAnswer_eq_error_iff {found : Option Nat} {e : DriverError BusError} :
    checkAnswer found = .error e ↔ ∃ i, found = some i ∧ e = .notErased i := by
  cases found <;> simp [checkAnswer, eq_comm]

/-- The chip with more array reads to its account. -/
def withReads (c : Chip) (reads : Nat) : Chip :=
  { c with reads := c.reads + reads }

/-- Checking a range of so many chunks. -/
def checking (c : Chip) (step chunks offset : Nat) : Course Unit :=
  let found := c.memory.firstUnerased? offset (chunks * step)
  let reads := chunksRead step chunks offset found
  ⟨checkAnswer found, chunkReads step offset reads, c.withReads reads⟩

variable {c : Chip} {l : Link} {step offset : Nat}

theorem checking_zero (c : Chip) (step offset : Nat) :
    c.checking step 0 offset = ⟨.ok (), [], c⟩ := by
  rw [checking, Nat.zero_mul]
  rfl

/-- A chunk with a byte that is not erased is the last one. -/
theorem checking_found {i : Nat} (found : c.memory.firstUnerased? offset step = some i)
    (chunks : Nat) :
    c.checking step (chunks + 1) offset =
      ⟨.error (.notErased i), [.readArray offset step], c.withReads 1⟩ := by
  obtain ⟨le, lt, -⟩ := Memory.firstUnerased?_eq_some_iff.mp found
  have first : c.memory.firstUnerased? offset ((chunks + 1) * step) = some i := by
    rw [Nat.succ_mul, Nat.add_comm, Memory.firstUnerased?_add, found]
    rfl
  have one : chunksRead step (chunks + 1) offset (some i) = 1 := by
    rw [chunksRead, Nat.div_eq_of_lt (by omega)]
  simp only [checking, first, one, checkAnswer, chunkReads_succ]
  rfl

/-- Behind a chunk that is erased the rest is checked. -/
theorem checking_clean (pos : 0 < step) (clean : c.memory.firstUnerased? offset step = none)
    (chunks : Nat) :
    c.checking step (chunks + 1) offset =
      ((c.withReads 1).checking step chunks (offset + step)).behind [.readArray offset step] := by
  have rest : c.memory.firstUnerased? offset ((chunks + 1) * step) =
      c.memory.firstUnerased? (offset + step) (chunks * step) := by
    rw [Nat.succ_mul, Nat.add_comm, Memory.firstUnerased?_add, clean]
    rfl
  have more : chunksRead step (chunks + 1) offset
        (c.memory.firstUnerased? (offset + step) (chunks * step)) =
      chunksRead step chunks (offset + step)
        (c.memory.firstUnerased? (offset + step) (chunks * step)) + 1 := by
    cases found : c.memory.firstUnerased? (offset + step) (chunks * step) with
    | none => rfl
    | some i =>
      obtain ⟨le, -⟩ := Memory.firstUnerased?_eq_some_iff.mp found
      have count : i - offset = i - (offset + step) + step := by omega
      simp only [chunksRead, count, Nat.add_div_right _ pos]
  have account (n : Nat) : c.withReads (n + 1) = (c.withReads 1).withReads n := by
    rw [Nat.add_comm]
    exact congrArg (fun reads => { c with reads }) (Nat.add_assoc c.reads 1 n).symm
  simp only [checking, rest, more, chunkReads_succ]
  rw [account]
  rfl

end Chip

namespace Driver

open Procedure

variable {d : Driver} {b : Bench} {l : Link} {c : Chip}

theorem takes_checkFrom {step chunks offset : Nat} (holds : b.Holds l c)
    (responsive : c.responsive = true) (serves : c.serves l = true) (pos : 0 < step)
    (bound : offset + chunks * step ≤ c.memory.size) (small : c.memory.size ≤ 16777216) :
    (checkFrom erasedByte step chunks offset).Takes d b l (c.checking step chunks offset)
      fun _ => d := by
  induction chunks generalizing b c offset with
  | zero =>
    rw [Chip.checking_zero]
    exact ⟨rfl, rfl, holds, rfl⟩
  | succ chunks ih =>
    rw [Nat.succ_mul] at bound
    have word {k : Nat} (le : k ≤ step) : Word32.satAdd offset k = offset + k :=
      Word32.satAdd_of_lt (by unfold Word32.limit; omega)
    unfold Takes
    rw [checkFrom, traces_bind]
    refine traces_ask_held (i := .readArray offset step) holds
      (show offset < 16777216 by omega) fun b' holds' => ?_
    rw [Chip.obey_readArray, if_pos (by rw [responsive, serves]; rfl),
      Memory.read_eq_slice (by omega)] at holds' ⊢
    -- what the search finds in the reply is what there is to find in the chunk
    cases found : (c.memory.slice offset step).findIdx? (· != erasedByte) with
    | some k =>
      obtain ⟨inside, -⟩ := List.findIdx?_eq_some_iff_getElem.mp found
      rw [Memory.length_slice] at inside
      have first : c.memory.firstUnerased? offset step = some (offset + k) := by
        rw [Memory.firstUnerased?, found]
        rfl
      rw [Chip.checking_found first, ← word (Nat.le_of_lt inside)]
      exact ⟨rfl, rfl, holds', rfl⟩
    | none =>
      have clean : c.memory.firstUnerased? offset step = none := by
        rw [Memory.firstUnerased?, found]
        rfl
      rw [Chip.checking_clean pos clean, word (Nat.le_refl _)]
      exact (ih (c := c.withReads 1) holds' responsive serves
        (show offset + step + chunks * step ≤ c.memory.size by omega) small).behind [_] rfl

/-- The check of a sector on a chip. -/
def sectorCheck (d : Driver) (c : Chip) (sector : Nat) : Course Unit :=
  c.checking d.compareBuffer.size (d.options.eraseUnit.size / d.compareBuffer.size)
    (sector * d.options.eraseUnit.size)

/-- A sector is checked from its start to its end. -/
theorem takes_checkErased (knows : d.Knows True b) (ready : d.state = .ready)
    (responsive : b.chip.responsive = true) (noFaults : b.chip.faults = .none) {sector : Nat}
    (inside : sector < d.layout.sectorCount) :
    (checkErased sector).Takes d b b.link (d.sectorCheck b.chip sector) fun _ => d := by
  have start := knows.sectorStart?_eq_some_iff.mpr ⟨inside, rfl⟩
  have size : d.layout.sectorSize = d.options.eraseUnit.size := by rw [knows.layout]; rfl
  have bound : sector * d.options.eraseUnit.size + d.options.eraseUnit.size ≤
      b.chip.memory.size := by
    rw [← knows.sectorCount_mul, ← Nat.succ_mul]
    exact Nat.mul_le_mul_right _ inside
  obtain ⟨chunks, whole⟩ := d.exists_chunks d.options.eraseUnit
  have reading : Knows True { d with state := .reading } b :=
    ⟨knows.capacity, knows.layout, knows.serves⟩
  have checked : (checkRange (sector * d.options.eraseUnit.size) d.options.eraseUnit.size).Takes
      { d with state := .reading } b b.link
      (b.chip.checking d.compareBuffer.size chunks (sector * d.options.eraseUnit.size))
      fun _ => { d with state := .reading } := by
    rw [← whole] at bound ⊢
    unfold Takes Traces Ensures
    rw [script_checkRange reading.erasedValue
      (Nat.lt_of_le_of_lt bound reading.size_lt_limit)]
    exact takes_checkFrom ⟨rfl, .refl _, noFaults⟩ responsive (knows.serves trivial)
      d.compareBuffer.size_pos bound knows.size_bounds.2.2
  have count : d.options.eraseUnit.size / d.compareBuffer.size = chunks := by
    rw [← whole, Nat.mul_div_cancel _ d.compareBuffer.size_pos]
  unfold Takes
  rw [checkErased, sectorCheck, count]
  simp only [traces_bind, traces_guardReady, sectorStart, traces_get, start, traces_pure,
    traces_setState, traces_resting, size]
  refine ⟨fun _ => ?_, absurd ready⟩
  refine checked.mono ?_ ?_
  · rintro _ _ _ _ ⟨rfl, ended⟩
    exact ⟨by rw [← ready], ended⟩
  · rintro e _ _ _ ⟨rfl, ended⟩
    obtain ⟨i, -, rfl⟩ := Chip.checkAnswer_eq_error_iff.mp ended.answer
    exact ⟨by rw [← ready]; rfl, ended⟩

/-- The address lies in the sector. -/
def InSector (d : Driver) (sector i : Nat) : Prop :=
  sector * d.options.eraseUnit.size ≤ i ∧ i < (sector + 1) * d.options.eraseUnit.size

/-- The reads of so many chunks of a sector. -/
def sectorReads (d : Driver) (sector count : Nat) : List Instruction :=
  chunkReads d.compareBuffer.size (sector * d.options.eraseUnit.size) count

section
variable (d : Driver) (c : Chip) (sector : Nat)

theorem sectorCheck_eq :
    d.sectorCheck c sector =
      let found := c.memory.firstUnerased? (sector * d.options.eraseUnit.size)
        d.options.eraseUnit.size
      let reads := chunksRead d.compareBuffer.size
        (d.options.eraseUnit.size / d.compareBuffer.size) (sector * d.options.eraseUnit.size) found
      ⟨Chip.checkAnswer found, d.sectorReads sector reads, c.withReads reads⟩ := by
  obtain ⟨chunks, whole⟩ := d.exists_chunks d.options.eraseUnit
  have count : d.options.eraseUnit.size / d.compareBuffer.size * d.compareBuffer.size =
      d.options.eraseUnit.size := Nat.div_mul_cancel ⟨chunks, by rw [← whole, Nat.mul_comm]⟩
  rw [sectorCheck, Chip.checking, count]
  rfl

theorem sectorCheck_ok_iff :
    (d.sectorCheck c sector).answer = .ok () ↔
      ∀ i, d.InSector sector i → c.memory.byteAt i = erasedByte := by
  rw [sectorCheck_eq, Chip.checkAnswer_eq_ok_iff, Memory.firstUnerased?_eq_none_iff]
  simp only [InSector, Nat.succ_mul, and_imp]

theorem sectorCheck_error_iff (offset : Nat) :
    (d.sectorCheck c sector).answer = .error (.notErased offset) ↔
      d.InSector sector offset ∧ c.memory.byteAt offset ≠ erasedByte ∧
        ∀ i, d.InSector sector i → i < offset → c.memory.byteAt i = erasedByte := by
  have found : (d.sectorCheck c sector).answer = .error (.notErased offset) ↔
      c.memory.firstUnerased? (sector * d.options.eraseUnit.size) d.options.eraseUnit.size =
        some offset := by
    simp [sectorCheck_eq, Chip.checkAnswer_eq_error_iff]
  rw [found, Memory.firstUnerased?_eq_some_iff]
  simp only [InSector, and_assoc, Nat.succ_mul]
  refine and_congr_right fun _ => and_congr_right fun lt => and_congr_right fun _ => ?_
  exact ⟨fun before i inside => before i inside.1, fun before j le lt' =>
    before j ⟨le, Nat.lt_trans lt' lt⟩ lt'⟩

theorem sectorCheck_cases :
    (d.sectorCheck c sector).answer = .ok () ∧ (d.sectorCheck c sector).sent =
        d.sectorReads sector (d.options.eraseUnit.size / d.compareBuffer.size) ∨
      ∃ offset, d.InSector sector offset ∧
        (d.sectorCheck c sector).answer = .error (.notErased offset) ∧
        (d.sectorCheck c sector).sent = d.sectorReads sector
          ((offset - sector * d.options.eraseUnit.size) / d.compareBuffer.size + 1) := by
  rw [sectorCheck_eq]
  cases found : c.memory.firstUnerased? (sector * d.options.eraseUnit.size)
      d.options.eraseUnit.size with
  | none => exact .inl ⟨rfl, rfl⟩
  | some offset =>
    obtain ⟨le, lt, -⟩ := Memory.firstUnerased?_eq_some_iff.mp found
    exact .inr ⟨offset, ⟨le, by rwa [Nat.succ_mul]⟩, rfl, rfl⟩

end

/-- Up to as many chunks as there are, the reads lie inside the sector. -/
theorem inSector_of_mem_sectorReads {sector count : Nat} {i : Instruction}
    (le : count ≤ d.options.eraseUnit.size / d.compareBuffer.size)
    (mem : i ∈ d.sectorReads sector count) :
    ∃ address, i = .readArray address d.compareBuffer.size ∧
      ∀ k < d.compareBuffer.size, d.InSector sector (address + k) := by
  obtain ⟨j, lt, rfl⟩ := List.mem_map.mp mem
  refine ⟨_, rfl, fun k small => ⟨by omega, ?_⟩⟩
  calc sector * d.options.eraseUnit.size + j * d.compareBuffer.size + k
      < sector * d.options.eraseUnit.size + (j + 1) * d.compareBuffer.size := by
        rw [Nat.succ_mul]
        omega
    _ ≤ sector * d.options.eraseUnit.size +
          d.options.eraseUnit.size / d.compareBuffer.size * d.compareBuffer.size :=
        Nat.add_le_add_left (Nat.mul_le_mul_right _
          (Nat.lt_of_lt_of_le (List.mem_range.mp lt) le)) _
    _ ≤ sector * d.options.eraseUnit.size + d.options.eraseUnit.size :=
        Nat.add_le_add_left (Nat.div_mul_le_self _ _) _
    _ = (sector + 1) * d.options.eraseUnit.size := (Nat.succ_mul _ _).symm

/-- The first byte that is not erased lies in a chunk of the sector. -/
theorem chunk_lt_of_inSector {sector offset : Nat} (inside : d.InSector sector offset) :
    (offset - sector * d.options.eraseUnit.size) / d.compareBuffer.size <
      d.options.eraseUnit.size / d.compareBuffer.size := by
  obtain ⟨chunks, whole⟩ := d.exists_chunks d.options.eraseUnit
  obtain ⟨le, lt⟩ := inside
  rw [Nat.succ_mul] at lt
  have bound : offset - sector * d.options.eraseUnit.size < chunks * d.compareBuffer.size := by
    omega
  have count : d.options.eraseUnit.size / d.compareBuffer.size = chunks := by
    rw [← whole, Nat.mul_div_cancel _ d.compareBuffer.size_pos]
  rw [count]
  exact Nat.div_lt_of_lt_mul (Nat.mul_comm chunks _ ▸ bound)

end Driver

/-! ### Sessions -/

namespace Session

open Procedure

variable {s w : Session} {d : Driver}

/-- An operation of the driver that takes a course answers with it. -/
theorem step_of_takes {α : Type} {operation : FlashOperation} {op : FlashM α} {f : α → FlashValue}
    {course : Course α} {after : Except (DriverError BusError) α → Driver}
    (found : s.device.driver? = some d) (runs : operation.run = f <$> op)
    (takes : op.Takes d s.bench s.bench.link course after) :
    ∃ b', s.step (.flash operation) = (.flash (course.answer.map f),
        ⟨s.compareBuffer, s.device.withDriver (after course.answer), b'⟩) ∧
      requestsSent (s.events (.flash operation)) = course.sent.map s.bench.link.request ∧
      course.chip.Alike b'.chip := by
  have step := step_flash_eq found operation
  have said : requestsSent (s.events (.flash operation)) =
      requestsSent ((operation.run.script d).exchanges s.bench) := by
    simp only [events, found, requestsSent_append, requestsSent_ofResult, List.append_nil]
  have traced : operation.run.Traces d s.bench
      (fun v d' b' es => ∃ a, v = f a ∧ d' = after (.ok a) ∧
        course.Ended s.bench.link (.ok a) b' es)
      fun e d' b' es => d' = after (.error e) ∧ course.Ended s.bench.link (.error e) b' es := by
    rw [runs, traces_map]
    exact takes.mono (fun a _ _ _ ended => ⟨a, rfl, ended⟩) fun _ _ _ _ ended => ended
  rcases run : (operation.run.script d).run s.bench with ⟨⟨e | v, d'⟩, b'⟩ <;> rw [run] at step
  · obtain ⟨rfl, ended⟩ := Ensures.of_failed traced run
    exact ⟨b', by rw [step, ended.answer]; rfl, said.trans ended.sent, ended.chip.chip⟩
  · obtain ⟨a, rfl, rfl, ended⟩ := Ensures.of_run traced run
    exact ⟨b', by rw [step, ended.answer]; rfl, said.trans ended.sent, ended.chip.chip⟩

/-- A ready driver on a chip that does what it is told: it is awake and idle, it serves the link,
and no fault is armed. -/
structure Poised (s : Session) (d : Driver) : Prop where
  reached : s.Reached
  driver : s.device.driver? = some d
  ready : d.state = .ready
  responsive : s.bench.chip.responsive = true
  quad : s.bench.link.needsQuad = true → s.bench.chip.quadEnabled = true
  noFaults : s.bench.chip.faults = .none

theorem Poised.knows (h : s.Poised d) : d.Knows True s.bench := by
  have awake : s.bench.chip.poweredDown = false := by
    have responsive := h.responsive
    simp only [Chip.responsive, Bool.and_eq_true, Bool.not_eq_true'] at responsive
    exact responsive.1
  have serves : s.bench.chip.serves s.bench.link = true := by
    cases needs : s.bench.link.needsQuad with
    | false => simp [Chip.serves, needs]
    | true => simp [Chip.serves, h.quad needs]
  have settled : d.Settled True d.options.eraseUnit s.bench :=
    h.reached.settled h.driver (fun _ => awake) fun _ => serves
  exact settled.attuned.knows (by rw [h.ready]; trivial)

/-- What a check of a sector comes to. -/
structure EraseChecked (s : Session) (d : Driver) (sector : Nat)
    (r : Except (DriverError BusError) FlashValue) (s' : Session) : Prop where
  ok : r = .ok .nothing ↔
    ∀ i, d.InSector sector i → s.bench.chip.memory.byteAt i = erasedByte
  /-- The address that is reported is the least one at which the sector is not erased. -/
  failed : ∀ offset, r = .error (.notErased offset) ↔
    d.InSector sector offset ∧ s.bench.chip.memory.byteAt offset ≠ erasedByte ∧
      ∀ i, d.InSector sector i → i < offset → s.bench.chip.memory.byteAt i = erasedByte
  /-- Nothing else is reported. -/
  complete : r = .ok .nothing ∨ ∃ offset, r = .error (.notErased offset)
  readAll : r = .ok .nothing →
    requestsSent (s.events (.flash (.verify sector))) =
      (d.sectorReads sector (d.options.eraseUnit.size / d.compareBuffer.size)).map
        s.bench.link.request
  readSome : ∀ offset, r = .error (.notErased offset) →
    requestsSent (s.events (.flash (.verify sector))) =
      (d.sectorReads sector
        ((offset - sector * d.options.eraseUnit.size) / d.compareBuffer.size + 1)).map
          s.bench.link.request
  /-- No read leaves the sector. -/
  within : ∀ request ∈ requestsSent (s.events (.flash (.verify sector))), ∃ address,
    request = s.bench.link.request (.readArray address d.compareBuffer.size) ∧
      ∀ k < d.compareBuffer.size, d.InSector sector (address + k)
  /-- The chip has answered the reads, and is otherwise as it was. -/
  chip : (s.bench.chip.withReads
    (requestsSent (s.events (.flash (.verify sector)))).length).Alike s'.bench.chip
  memory : s'.bench.chip.memory = s.bench.chip.memory
  device : s'.device = s.device

/-- What is reported of two sectors that hold the same depends on neither the chip nor the compare
buffer. -/
theorem sectorCheck_answer_congr {d d' : Driver} {c c' : Chip} {sector : Nat}
    (unit : d'.options.eraseUnit = d.options.eraseUnit)
    (same : ∀ i, d.InSector sector i → c'.memory.byteAt i = c.memory.byteAt i) :
    (d'.sectorCheck c' sector).answer = (d.sectorCheck c sector).answer := by
  rw [Driver.sectorCheck_eq, Driver.sectorCheck_eq, unit]
  refine congrArg Chip.checkAnswer (Memory.firstUnerased?_congr fun i le lt => same i ⟨le, ?_⟩)
  rwa [Nat.succ_mul]

theorem map_nothing_eq_ok_iff {r : Except (DriverError BusError) Unit} :
    (r.map fun _ => FlashValue.nothing) = .ok .nothing ↔ r = .ok () := by
  cases r <;> simp [Except.map]

theorem map_nothing_eq_error_iff {r : Except (DriverError BusError) Unit}
    {e : DriverError BusError} :
    (r.map fun _ => FlashValue.nothing) = .error e ↔ r = .error e := by
  cases r <;> simp [Except.map]

/-- What the course of a check says of the session. -/
theorem eraseChecked_of_course {sector : Nat} {b' : Bench}
    (found : s.device.driver? = some d)
    (sent : requestsSent (s.events (.flash (.verify sector))) =
      (d.sectorCheck s.bench.chip sector).sent.map s.bench.link.request)
    (chip : (d.sectorCheck s.bench.chip sector).chip.Alike b'.chip) :
    s.EraseChecked d sector ((d.sectorCheck s.bench.chip sector).answer.map fun _ => .nothing)
      ⟨s.compareBuffer, s.device.withDriver d, b'⟩ := by
  have reads : (d.sectorCheck s.bench.chip sector).chip = s.bench.chip.withReads
      (requestsSent (s.events (.flash (.verify sector)))).length := by
    rw [sent, List.length_map, Driver.sectorCheck_eq]
    simp [Driver.sectorReads, chunkReads]
  refine ⟨map_nothing_eq_ok_iff.trans (d.sectorCheck_ok_iff s.bench.chip sector),
    fun offset => map_nothing_eq_error_iff.trans
      (d.sectorCheck_error_iff s.bench.chip sector offset),
    ?_, fun ok => ?_, fun offset bad => ?_, fun request mem => ?_, reads ▸ chip,
    chip.memory.trans (by rw [reads]; rfl), Device.withDriver_self found⟩
  · rcases d.sectorCheck_cases s.bench.chip sector with ⟨answer, -⟩ | ⟨offset, -, answer, -⟩
    · exact .inl (map_nothing_eq_ok_iff.mpr answer)
    · exact .inr ⟨offset, map_nothing_eq_error_iff.mpr answer⟩
  · rcases d.sectorCheck_cases s.bench.chip sector with ⟨-, all⟩ | ⟨offset, -, answer, -⟩
    · rw [sent, all]
    · nomatch (map_nothing_eq_ok_iff.mp ok).symm.trans answer
  · rcases d.sectorCheck_cases s.bench.chip sector with ⟨answer, -⟩ | ⟨least, -, answer, upto⟩
    · nomatch (map_nothing_eq_error_iff.mp bad).symm.trans answer
    · cases (map_nothing_eq_error_iff.mp bad).symm.trans answer
      rw [sent, upto]
  · rw [sent] at mem
    obtain ⟨i, asked, rfl⟩ := List.mem_map.mp mem
    rcases d.sectorCheck_cases s.bench.chip sector with ⟨-, all⟩ | ⟨offset, inside, -, upto⟩
    · obtain ⟨address, rfl, inside⟩ :=
        Driver.inSector_of_mem_sectorReads (Nat.le_refl _) (all ▸ asked)
      exact ⟨address, rfl, inside⟩
    · obtain ⟨address, rfl, inside⟩ :=
        Driver.inSector_of_mem_sectorReads (Driver.chunk_lt_of_inSector inside) (upto ▸ asked)
      exact ⟨address, rfl, inside⟩

/-- A check of a sector finds its first byte that is not erased, whatever the size of the compare
buffer. -/
theorem erase_check_outcome (poised : s.Poised d) {sector : Nat}
    (inside : sector < d.layout.sectorCount) :
    ∃ r s', s.step (.flash (.verify sector)) = (.flash r, s') ∧ s.EraseChecked d sector r s' ∧
      ∀ (w : Session) (d' : Driver), w.Poised d' → d'.options.eraseUnit = d.options.eraseUnit →
        sector < d'.layout.sectorCount →
        (∀ i, d.InSector sector i →
          w.bench.chip.memory.byteAt i = s.bench.chip.memory.byteAt i) →
        (w.step (.flash (.verify sector))).1 = .flash r := by
  have takes {s : Session} {d : Driver} (poised : s.Poised d)
      (inside : sector < d.layout.sectorCount) :=
    step_of_takes (f := fun _ => .nothing) poised.driver
      (show FlashOperation.run (.verify sector) = _ from rfl)
      (Driver.takes_checkErased poised.knows poised.ready poised.responsive poised.noFaults inside)
  obtain ⟨b', step, sent, chip⟩ := takes poised inside
  refine ⟨_, _, step, eraseChecked_of_course poised.driver sent chip, ?_⟩
  intro w d' poised' unit inside' same
  obtain ⟨_, step', -⟩ := takes poised' inside'
  rw [step', sectorCheck_answer_congr unit same]

/-- A byte in the last chunk but one of a sector is found, and the last chunk is not read. -/
theorem stale_byte_is_found : ∃ s d s',
    s = (create ⟨0xEF, 0x40, 0x14⟩ .direct ⟨10⟩ .standard).run
      [.flash .identify, .configure (.store 7000 [0x7F])] ∧
    s.Poised d ∧ 1 < d.layout.sectorCount ∧
    s.step (.flash (.verify 1)) = (.flash (.error (.notErased 7000)), s') ∧
    (requestsSent (s.events (.flash (.verify 1)))).length = 3 ∧
    s.EraseChecked d 1 (.error (.notErased 7000)) s' := by
  obtain ⟨s, d, reached, found, ready, responsive, plain, noFaults, unit, buffer, count, memory⟩ :
      ∃ s d, s = (create ⟨0xEF, 0x40, 0x14⟩ .direct ⟨10⟩ .standard).run
          [.flash .identify, .configure (.store 7000 [0x7F])] ∧
        s.device.driver? = some d ∧ d.state = .ready ∧ s.bench.chip.responsive = true ∧
        s.bench.link.needsQuad = false ∧ s.bench.chip.faults = .none ∧
        d.options.eraseUnit.size = 4096 ∧ d.compareBuffer.size = 1024 ∧
        d.layout.sectorCount = 256 ∧
        s.bench.chip.memory = (Memory.blank 0x100000).write 7000 [0x7F] :=
    ⟨_, _, rfl, rfl, rfl, rfl, rfl, rfl, rfl, rfl, rfl, rfl⟩
  have poised : s.Poised d := ⟨⟨_, _, _, _, _, reached⟩, found, ready, responsive,
    fun quad => by simp [plain] at quad, noFaults⟩
  obtain ⟨r, s', step, checked, -⟩ :=
    erase_check_outcome poised (show 1 < d.layout.sectorCount by omega)
  have cell (i : Nat) : s.bench.chip.memory.byteAt i = if i = 7000 then 0x7F else erasedByte := by
    rw [memory, Memory.write, Memory.write, Memory.byteAt_set, Memory.byteAt_blank,
      Memory.size_blank]
    by_cases here : i = 7000 <;> simp [here]
  obtain rfl : r = .error (.notErased 7000) := by
    refine (checked.failed 7000).mpr ⟨?_, ?_, fun i _ before => ?_⟩
    · rw [Driver.InSector, unit]
      decide
    · rw [cell]
      decide
    · rw [cell, if_neg (by omega)]
  refine ⟨s, d, s', reached, poised, by omega, step, ?_, checked⟩
  rw [checked.readSome 7000 rfl, Driver.sectorReads, chunkReads, List.length_map, List.length_map,
    List.length_range, unit, buffer]

end Session

end SerialFlash
