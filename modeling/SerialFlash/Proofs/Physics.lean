import SerialFlash.Proofs.Indices
import SerialFlash.Proofs.Memory

/-!
The physics of the chip. What one request can do to it is told by its effect, and a transaction on
any of its faces ends in the effect of one request at most: reads in between only look, and one
that fails has done nothing. So the cells, the protection and the quad-enable bit only change when
the chip accepts a command, idle, awake and with the write-enable latch set. A program clears bits
inside one page, an erase blanks one aligned unit, and either takes the latch away.
-/

namespace SerialFlash

/-! ### Cells -/

namespace Memory

variable {m m' : Memory}

/-- In one aligned page bits have been cleared, and all other cells are as before. -/
def ClearsPage (m m' : Memory) : Prop :=
  ∃ page, pageSize ∣ page ∧ page + pageSize ≤ m.size ∧ ∀ i,
    if page ≤ i ∧ i < page + pageSize then ∃ mask, m'.byteAt i = m.byteAt i &&& mask
    else m'.byteAt i = m.byteAt i

/-- One aligned sector or block, or the whole array, has been erased, and all other cells are as
before. -/
def BlanksUnit (m : Memory) (stuck : List StuckCell) (m' : Memory) : Prop :=
  ∃ unit ∈ [sectorSize4K, blockSize32K, blockSize64K, m.size], ∃ start,
    unit ∣ start ∧ start + unit ≤ m.size ∧ m.BlanksTo stuck start unit m'

/-- Programming only clears bits, whatever the data and however often it comes round. -/
theorem exists_mask_programFrom (page column : Nat) (data : Bytes) (i : Nat) :
    ∃ mask, (m.programFrom page column data).byteAt i = m.byteAt i &&& mask := by
  induction data generalizing m column with
  | nil => exact ⟨0xFF, UInt8.and_neg_one.symm⟩
  | cons b bs ih =>
    obtain ⟨mask, cleared⟩ :=
      ih (m := m.clearBits ((page + column % pageSize) % m.size) b) (column + 1)
    rw [programFrom, cleared, byteAt_clearBits]
    split
    · exact ⟨b &&& mask, UInt8.and_assoc ..⟩
    · exact ⟨mask, rfl⟩

/-- In an array of whole pages a page does not come round at the end. -/
theorem clearsPage_program (pages : pageSize ∣ m.size) (pos : 0 < m.size) (address : Nat)
    (data : Bytes) : m.ClearsPage (m.program address data) := by
  obtain ⟨k, size⟩ := pages
  have aligned : address / pageSize * pageSize % m.size = address / pageSize % k * pageSize := by
    rw [size, Nat.mul_comm pageSize k, Nat.mul_mod_mul_right]
  have last : address / pageSize % k + 1 ≤ k := Nat.mod_lt _ (Nat.pos_of_mul_pos_left (size ▸ pos))
  have inside : address / pageSize % k * pageSize + pageSize ≤ m.size := by
    rw [size, ← Nat.succ_mul, Nat.mul_comm pageSize k]
    exact Nat.mul_le_mul_right _ last
  refine ⟨address / pageSize % k * pageSize, Nat.dvd_mul_left _ _, inside, fun i => ?_⟩
  split
  · exact exists_mask_programFrom _ _ _ _
  · next outside =>
    refine byteAt_programFrom_of_ne (fun column lt here => outside ?_) _ _
    rw [Nat.add_mod, aligned, Nat.mod_eq_of_lt (by omega : column < m.size),
      Nat.mod_eq_of_lt (by omega)] at here
    omega

/-- An address past the end comes round to a unit of the array. -/
theorem erase_mod {unit : Nat} (divides : unit ∣ m.size) (address : Nat)
    (stuck : List StuckCell) :
    m.erase unit (address % m.size) stuck = m.erase unit address stuck := by
  obtain ⟨units, size⟩ := divides
  have start : address % m.size / unit * unit % m.size = address / unit * unit % m.size := by
    rw [size, Nat.mod_mul_right_div_self, Nat.mul_comm unit units, Nat.mul_mod_mul_right,
      Nat.mul_mod_mul_right, Nat.mod_mod]
  simp only [erase, start]

theorem blanksUnit_erase (blocks : blockSize64K ∣ m.size) (pos : 0 < m.size) {unit : Nat}
    (listed : unit ∈ [sectorSize4K, blockSize32K, blockSize64K, m.size]) (address : Nat)
    (stuck : List StuckCell) : m.BlanksUnit stuck (m.erase unit address stuck) := by
  have divides : unit ∣ m.size := by
    simp only [List.mem_cons, List.not_mem_nil, or_false] at listed
    rcases listed with rfl | rfl | rfl | rfl
    · exact Nat.dvd_trans (by decide) blocks
    · exact Nat.dvd_trans (by decide) blocks
    · exact blocks
    · exact Nat.dvd_refl _
  have bound : address % m.size < m.size := Nat.mod_lt _ pos
  refine ⟨unit, listed, address % m.size / unit * unit, Nat.dvd_mul_left _ _, ?_, ?_⟩
  · obtain ⟨units, size⟩ := divides
    have last : address % m.size / unit + 1 ≤ units := Nat.div_lt_of_lt_mul (size ▸ bound)
    calc address % m.size / unit * unit + unit = (address % m.size / unit + 1) * unit :=
          (Nat.succ_mul _ _).symm
      _ ≤ units * unit := Nat.mul_le_mul_right _ last
      _ = m.size := by rw [size, Nat.mul_comm]
  · rw [← erase_mod divides]
    exact (erase_erasesTo divides bound stuck).blanksTo

end Memory

/-! ### One request -/

namespace Chip

variable {c c' c'' : Chip} {r : Request}

/-- Nothing has been programmed, erased or written to the status register. -/
structure Spared (c c' : Chip) : Prop where
  memory : c'.memory = c.memory
  protectBits : c'.protectBits = c.protectBits
  quadEnabled : c'.quadEnabled = c.quadEnabled
  programs : c'.programs = c.programs
  erases : c'.erases = c.erases

/-- Nothing but the books, the busy count and the number of reads has changed. -/
structure Unmoved (c c' : Chip) : Prop extends c.Spared c' where
  writeEnabled : c'.writeEnabled = c.writeEnabled
  poweredDown : c'.poweredDown = c.poweredDown

theorem Spared.refl (c : Chip) : c.Spared c :=
  ⟨rfl, rfl, rfl, rfl, rfl⟩

theorem Spared.trans (h : c.Spared c') (h' : c'.Spared c'') : c.Spared c'' :=
  ⟨h'.memory.trans h.memory, h'.protectBits.trans h.protectBits,
    h'.quadEnabled.trans h.quadEnabled, h'.programs.trans h.programs, h'.erases.trans h.erases⟩

/-- The latch and the power state do not matter here. -/
theorem Spared.of_flags {latch asleep : Bool}
    (h : { c with writeEnabled := latch, poweredDown := asleep }.Spared c') : c.Spared c' :=
  ⟨h.memory, h.protectBits, h.quadEnabled, h.programs, h.erases⟩

theorem Unmoved.refl (c : Chip) : c.Unmoved c :=
  ⟨.refl c, rfl, rfl⟩

theorem Unmoved.trans (h : c.Unmoved c') (h' : c'.Unmoved c'') : c.Unmoved c'' :=
  ⟨h.toSpared.trans h'.toSpared, h'.writeEnabled.trans h.writeEnabled,
    h'.poweredDown.trans h.poweredDown⟩

theorem Alike.unmoved (h : c.Alike c') : c.Unmoved c' := by
  obtain ⟨_, _, _, rfl, -⟩ := h
  exact ⟨⟨rfl, rfl, rfl, rfl, rfl⟩, rfl, rfl⟩

/-- The chip takes a program, an erase or a status write: it is idle, awake and enabled, and the
request is one. -/
def Accepts (c : Chip) (r : Request) : Prop :=
  c.responsive = true ∧ c.writeEnabled = true ∧
    match r.address, r.phase with
    | none, .none => r.opcode = Opcode.chipErase.byte
    | some _, .none => (unitOf? r.opcode).isSome = true
    | none, .send _ => r.opcode = Opcode.writeStatus.byte
    | some _, .send _ => c.canProgram r.opcode = true
    | _, .receive _ => False

/-- What a request does to the chip that it reaches. -/
inductive Effect (c : Chip) (r : Request) (c' : Chip) : Prop
  | looked (unmoved : c.Unmoved c')
  | latched (on : Bool) (awake : c.responsive = true)
      (unmoved : { c with writeEnabled := on }.Unmoved c')
  | slept (awake : c.responsive = true) (unmoved : { c with poweredDown := true }.Unmoved c')
  | woke (bare : r = .command .releasePowerDown) (asleep : c.poweredDown = true)
      (unmoved : { c with poweredDown := false }.Unmoved c')
  | programmed (accepts : c.Accepts r) (address : Nat) (data : Bytes)
      (unmoved : { c with
        memory := c.memory.program address data
        programs := c.programs + 1
        writeEnabled := false }.Unmoved c')
  | erased (accepts : c.Accepts r) (unit address : Nat)
      (listed : unit ∈ [sectorSize4K, blockSize32K, blockSize64K, c.memory.size])
      (unmoved : (c.eraseUnit unit address).Unmoved c')
  | configured (accepts : c.Accepts r) (protectBits : UInt8) (quadEnabled : Bool)
      (unmoved : { c with protectBits, quadEnabled, writeEnabled := false }.Unmoved c')

theorem Effect.unmoved (h : c.Effect r c') (later : c'.Unmoved c'') : c.Effect r c'' := by
  cases h with
  | looked same => exact .looked (same.trans later)
  | latched on awake same => exact .latched on awake (same.trans later)
  | slept awake same => exact .slept awake (same.trans later)
  | woke bare asleep same => exact .woke bare asleep (same.trans later)
  | programmed accepts address data same =>
    exact .programmed accepts address data (same.trans later)
  | erased accepts unit address listed same =>
    exact .erased accepts unit address listed (same.trans later)
  | configured accepts protectBits quadEnabled same =>
    exact .configured accepts protectBits quadEnabled (same.trans later)

theorem effect_runCommand (c : Chip) (opcode : UInt8) :
    c.Effect ⟨opcode, none, .none⟩ (c.runCommand opcode) := by
  unfold runCommand
  split
  · next asleep =>
    split
    · next wakes =>
      rw [← Opcode.byte_of_ofByte? wakes]
      exact .woke rfl asleep (.refl _)
    · exact .looked (.refl c)
  · next asleep =>
    split
    · exact .looked (.refl c)
    · next busy =>
      have awake : c.responsive = true := by simp [responsive, asleep, busy]
      split
      · exact .latched true awake (.refl _)
      · exact .latched false awake (.refl _)
      · next spelt =>
        split
        · next enabled =>
          exact .erased ⟨awake, enabled, (Opcode.byte_of_ofByte? spelt).symm⟩ c.memory.size 0
            (by simp) (.refl _)
        · exact .looked (.refl c)
      · exact .slept awake (.refl _)
      · exact .looked (.refl c)

theorem effect_runErase (c : Chip) (opcode : UInt8) (address : Nat) :
    c.Effect ⟨opcode, some address, .none⟩ (c.runErase opcode address) := by
  unfold runErase
  split
  · next ready =>
    obtain ⟨awake, enabled⟩ := Bool.and_eq_true_iff.mp ready
    cases found : unitOf? opcode with
    | none => exact .looked (.refl c)
    | some unit =>
      have listed : unit ∈ [sectorSize4K, blockSize32K, blockSize64K, c.memory.size] := by
        unfold unitOf? at found
        split at found <;> cases found <;> simp
      refine .erased ⟨awake, enabled, ?_⟩ unit address listed (.refl _)
      simp [found]
  · exact .looked (.refl c)

theorem effect_runStatusWrite (c : Chip) (data : Bytes) :
    c.Effect ⟨Opcode.writeStatus.byte, none, .send data⟩ (c.runStatusWrite data) := by
  unfold runStatusWrite
  split
  · next ready =>
    obtain ⟨awake, enabled⟩ := Bool.and_eq_true_iff.mp ready
    have accepts : c.Accepts ⟨Opcode.writeStatus.byte, none, .send data⟩ := ⟨awake, enabled, rfl⟩
    cases locked : c.statusLocked with
    | true =>
      rw [if_pos rfl]
      exact .configured accepts c.protectBits c.quadEnabled ⟨⟨rfl, rfl, rfl, rfl, rfl⟩, rfl, rfl⟩
    | false =>
      rw [if_neg Bool.false_ne_true]
      rcases data with _ | ⟨first, _ | ⟨second, _⟩⟩
      · exact .configured accepts c.protectBits c.quadEnabled ⟨⟨rfl, rfl, rfl, rfl, rfl⟩, rfl, rfl⟩
      · exact .configured accepts _ c.quadEnabled ⟨⟨rfl, rfl, rfl, rfl, rfl⟩, rfl, rfl⟩
      · exact .configured accepts _ _ ⟨⟨rfl, rfl, rfl, rfl, rfl⟩, rfl, rfl⟩
  · exact .looked (.refl c)

theorem effect_runProgram (c : Chip) (opcode : UInt8) (address : Nat) (data : Bytes) :
    c.Effect ⟨opcode, some address, .send data⟩ (c.runProgram opcode address data) := by
  unfold runProgram
  split
  · next ready =>
    obtain ⟨⟨awake, enabled⟩, known⟩ := by simpa only [Bool.and_eq_true] using ready
    exact .programmed ⟨awake, enabled, known⟩ address data ⟨⟨rfl, rfl, rfl, rfl, rfl⟩, rfl, rfl⟩
  · exact .looked (.refl c)

/-- A chip that is asked for something only counts. -/
theorem unmoved_of_receive (c : Chip) {length : Nat} (asked : r.phase = .receive length) :
    c.Unmoved (c.execute r).2 := by
  obtain ⟨opcode, _ | address, phase⟩ := r <;> cases asked
  · simp only [execute, runReceive]
    split
    · exact ⟨⟨rfl, rfl, rfl, rfl, rfl⟩, rfl, rfl⟩
    · split
      · split <;> exact .refl c
      · exact .refl c
  · simp only [execute, runRead]
    split <;> exact ⟨⟨rfl, rfl, rfl, rfl, rfl⟩, rfl, rfl⟩

theorem effect_execute (c : Chip) (r : Request) : c.Effect r (c.execute r).2 := by
  obtain ⟨opcode, _ | address, _ | data | length⟩ := r
  · exact c.effect_runCommand opcode
  · simp only [execute]
    split
    · next spelt =>
      rw [← Opcode.byte_of_ofByte? spelt]
      exact c.effect_runStatusWrite data
    · exact .looked (.refl c)
  · exact .looked (c.unmoved_of_receive rfl)
  · exact c.effect_runErase opcode address
  · exact c.effect_runProgram opcode address data
  · exact .looked (c.unmoved_of_receive rfl)

/-- Whatever the chip accepts uses the latch up. -/
theorem writeEnabled_execute (accepts : c.Accepts r) : (c.execute r).2.writeEnabled = false := by
  obtain ⟨awake, enabled, known⟩ := accepts
  obtain ⟨opcode, _ | address, _ | data | length⟩ := r
  · have spelt : opcode = Opcode.chipErase.byte := known
    obtain ⟨powered, idle⟩ := by simpa [responsive] using awake
    simp [execute, runCommand, spelt, powered, idle, enabled, eraseUnit]
  · have spelt : opcode = Opcode.writeStatus.byte := known
    simp [execute, spelt, runStatusWrite, awake, enabled]
  · exact known.elim
  · obtain ⟨unit, found⟩ := Option.isSome_iff_exists.mp known
    simp [execute, runErase, awake, enabled, found, eraseUnit]
  · have known : c.canProgram opcode = true := known
    simp [execute, runProgram, awake, enabled, known]
  · exact known.elim

/-- What is not accepted changes no cell and no status bit. -/
theorem Effect.spared (h : c.Effect r c') (ignored : ¬ c.Accepts r) : c.Spared c' := by
  cases h with
  | looked unmoved => exact unmoved.toSpared
  | latched on awake unmoved => exact .of_flags unmoved.toSpared
  | slept awake unmoved => exact .of_flags unmoved.toSpared
  | woke bare asleep unmoved => exact .of_flags unmoved.toSpared
  | programmed accepts | erased accepts | configured accepts => exact absurd accepts ignored

theorem Effect.cells (h : c.Effect r c') (blocks : blockSize64K ∣ c.memory.size)
    (pos : 0 < c.memory.size) :
    c'.memory = c.memory ∨ c.memory.ClearsPage c'.memory ∨
      c.memory.BlanksUnit c.stuckCells c'.memory := by
  cases h with
  | looked unmoved => exact .inl unmoved.memory
  | latched on awake unmoved => exact .inl unmoved.memory
  | slept awake unmoved => exact .inl unmoved.memory
  | woke bare asleep unmoved => exact .inl unmoved.memory
  | configured accepts protectBits quadEnabled unmoved => exact .inl unmoved.memory
  | programmed accepts address data unmoved =>
    have pages : pageSize ∣ c.memory.size := Nat.dvd_trans (by decide) blocks
    rw [unmoved.memory]
    exact .inr (.inl (Memory.clearsPage_program pages pos address data))
  | erased accepts unit address listed unmoved =>
    rw [unmoved.memory]
    exact .inr (.inr (Memory.blanksUnit_erase blocks pos listed address c.stuckCells))

/-- A chip that is asleep can only be woken up. -/
theorem Effect.of_asleep (h : c.Effect r c') (asleep : c.poweredDown = true) :
    c.Unmoved c' ∨ r = .command .releasePowerDown ∧ { c with poweredDown := false }.Unmoved c' := by
  have unresponsive : c.responsive = false := by simp [responsive, asleep]
  cases h with
  | looked unmoved => exact .inl unmoved
  | woke bare _ unmoved => exact .inr ⟨bare, unmoved⟩
  | latched on awake | slept awake => rw [unresponsive] at awake; contradiction
  | programmed accepts | erased accepts | configured accepts =>
    have awake := accepts.1
    rw [unresponsive] at awake
    contradiction

/-! ### One transaction -/

/-- How a transaction ends that puts the request `command?` to the chip, if any. -/
inductive Ends (c : Chip) (command? : Option Request) (result : Except BusError (List Bytes))
    (c' : Chip) : Prop
  | failed (e : BusError) (error : result = .error e) (unmoved : c.Unmoved c')
  | answered (answers : List Bytes) (ok : result = .ok answers) (silent : command? = none)
      (unmoved : c.Unmoved c')
  | executed (answers : List Bytes) (ok : result = .ok answers) (r : Request)
      (command : command? = some r) (unmoved : (c.execute r).2.Unmoved c')

theorem Ends.after {result : Except BusError (List Bytes)} (first : c.Unmoved c')
    (h : c'.Ends none result c'') : c.Ends none result c'' := by
  cases h with
  | failed e error unmoved => exact .failed e error (first.trans unmoved)
  | answered answers ok silent unmoved => exact .answered answers ok rfl (first.trans unmoved)
  | executed answers ok r command => nomatch command

theorem perform_cases (c : Chip) (r : Request) :
    (∃ c', c.perform r = (.error .injected, c') ∧ c.Unmoved c') ∨
      ∃ answer c', c.perform r = (.ok answer, c') ∧ (c.execute r).2.Unmoved c' := by
  rw [perform_eq]
  split
  · exact .inl ⟨_, rfl, (c.alike_start _).unmoved⟩
  · exact .inr ⟨_, _, rfl, ((c.alike_start _).execute r).2.unmoved⟩

/-- What has been written is carried out at the end. -/
theorem ends_written (c : Chip) (sent : Bytes) :
    c.Ends (writtenRequest? sent) (c.spiFrom sent [] []).1 (c.spiFrom sent [] []).2 := by
  cases spelt : writtenRequest? sent with
  | none =>
    simp only [spiFrom, List.isEmpty_nil, if_true, spelt]
    exact .failed .unsupported rfl (.refl c)
  | some r =>
    rcases c.perform_cases r with ⟨c', ran, unmoved⟩ | ⟨answer, c', ran, unmoved⟩ <;>
      simp only [spiFrom, List.isEmpty_nil, if_true, spelt, ran]
    · exact .failed .injected rfl unmoved
    · exact .executed [] rfl r rfl unmoved

/-- A read is answered without moving the chip. -/
theorem answered_cases (c : Chip) {length : Nat} {sent : Bytes}
    (spelt : answeredRequest? length sent = some r) :
    (∃ c', c.perform r = (.error .injected, c') ∧ c.Unmoved c') ∨
      ∃ answer c', c.perform r = (.ok answer, c') ∧ c.Unmoved c' := by
  have asked : r.phase = .receive length := by
    unfold answeredRequest? at spelt
    split at spelt <;> cases spelt <;> rfl
  exact (c.perform_cases r).imp_right fun ⟨answer, c', ran, unmoved⟩ =>
    ⟨answer, c', ran, (c.unmoved_of_receive asked).trans unmoved⟩

/-- Behind a read, whatever follows only looks. -/
theorem ends_read (c : Chip) (sent : Bytes) {answers : List Bytes} (read : answers ≠ [])
    (operations : List SpiOperation) :
    c.Ends none (c.spiFrom sent answers operations).1 (c.spiFrom sent answers operations).2 := by
  induction operations generalizing c sent answers with
  | nil =>
    simp only [spiFrom, List.isEmpty_iff, if_neg read]
    exact .answered answers rfl rfl (.refl c)
  | cons operation rest ih =>
    cases operation with
    | write data => exact ih c (sent ++ data) read
    | read length =>
      cases spelt : answeredRequest? length sent with
      | none =>
        simp only [spiFrom, spelt]
        exact .failed .unsupported rfl (.refl c)
      | some r =>
        rcases c.answered_cases spelt with ⟨c', ran, unmoved⟩ | ⟨answer, c', ran, unmoved⟩ <;>
          simp only [spiFrom, spelt, ran]
        · exact .failed .injected rfl unmoved
        · exact (ih c' sent (by simp)).after unmoved
    | delay nanoseconds => exact ih c sent read
    | transfer length data | transferInPlace data => exact .failed .unsupported rfl (.refl c)

/-- A one-line transaction carries out what it has written, if it does not read anything. -/
theorem ends_spiFrom (c : Chip) (sent : Bytes) (operations : List SpiOperation) :
    c.Ends ((SpiOperation.written? operations).bind fun rest => writtenRequest? (sent ++ rest))
      (c.spiFrom sent [] operations).1 (c.spiFrom sent [] operations).2 := by
  induction operations generalizing sent with
  | nil =>
    rw [SpiOperation.written?, Option.bind_some, List.append_nil]
    exact c.ends_written sent
  | cons operation rest ih =>
    cases operation with
    | write data =>
      simp only [SpiOperation.written?, Option.bind_map, Function.comp_def, ← List.append_assoc]
      exact ih (sent ++ data)
    | read length =>
      rw [SpiOperation.written?, Option.bind_none]
      cases spelt : answeredRequest? length sent with
      | none =>
        simp only [spiFrom, spelt]
        exact .failed .unsupported rfl (.refl c)
      | some r =>
        rcases c.answered_cases spelt with ⟨c', ran, unmoved⟩ | ⟨answer, c', ran, unmoved⟩ <;>
          simp only [spiFrom, spelt, ran]
        · exact .failed .injected rfl unmoved
        · exact (c'.ends_read sent (by simp) rest).after unmoved
    | delay nanoseconds => exact ih sent
    | transfer length data | transferInPlace data => exact .failed .unsupported rfl (.refl c)

theorem ends_performFrame (c : Chip) (f : Frame) (phase : DataPhase) :
    c.Ends (some ⟨f.opcode, f.address, phase⟩) ((c.performFrame f phase).1.map ([·]))
      (c.performFrame f phase).2 := by
  have noted : c.Alike { c with frameLog := c.frameLog.push f } :=
    ⟨c.faults, c.opcodeLog, _, rfl, fun none => none⟩
  have started := noted.trans (alike_start _ f.opcode)
  simp only [performFrame]
  generalize ({ c with frameLog := c.frameLog.push f } : Chip).start f.opcode = start at started ⊢
  rcases start with ⟨_ | _, c'⟩
  · dsimp only at started ⊢
    split
    · exact .executed _ rfl _ rfl (started.execute _).2.unmoved
    · exact .failed .unsupported rfl started.unmoved
  · exact .failed .injected rfl started.unmoved

/-- Every transaction ends in one of three ways. -/
theorem ends_transact (c : Chip) (t : Transaction) :
    c.Ends t.command? (c.transact t).1 (c.transact t).2 := by
  cases t with
  | request r =>
    rcases c.perform_cases r with ⟨c', ran, unmoved⟩ | ⟨answer, c', ran, unmoved⟩ <;>
      simp only [transact, Transaction.command?, ran]
    · exact .failed .injected rfl unmoved
    · exact .executed [answer] rfl r rfl unmoved
  | spi operations => exact c.ends_spiFrom [] operations
  | frame f phase => exact c.ends_performFrame f phase

/-- What a transaction may do to a chip, given how it has ended. -/
structure Physical (c : Chip) (t : Transaction) (result : Except BusError (List Bytes))
    (c' : Chip) : Prop where
  size : c'.memory.size = c.memory.size
  /-- Without the latch, while the chip is busy and while it is asleep, nothing is changed. -/
  gated : c.writeEnabled = false ∨ c.isBusy = true ∨ c.poweredDown = true →
    c'.memory = c.memory ∧ c'.protectBits = c.protectBits ∧ c'.quadEnabled = c.quadEnabled
  cells : c'.memory = c.memory ∨ c.memory.ClearsPage c'.memory ∨
    c.memory.BlanksUnit c.stuckCells c'.memory
  /-- A program, an erase or a status write that is accepted uses the latch up. -/
  accepted : ∀ r answers, t.command? = some r → result = .ok answers → c.Accepts r →
    c'.writeEnabled = false
  /-- Nothing else changes a cell or a status bit, or counts as a program or an erase. -/
  ignored : (∀ r answers, t.command? = some r → result = .ok answers → ¬ c.Accepts r) →
    c.Spared c'
  failed : ∀ e, result = .error e → c.Unmoved c'
  asleep : c.poweredDown = true → c.Spared c' ∧ c'.writeEnabled = c.writeEnabled
  /-- Only a bare release wakes the chip. -/
  woken : c.poweredDown = true →
    (c'.poweredDown = false ↔
      t.command? = some (.command .releasePowerDown) ∧ ∃ answers, result = .ok answers)

variable {t : Transaction} {result : Except BusError (List Bytes)}

theorem Accepts.not_gated (h : c.Accepts r) :
    ¬ (c.writeEnabled = false ∨ c.isBusy = true ∨ c.poweredDown = true) := by
  obtain ⟨awake, enabled, -⟩ := h
  obtain ⟨powered, idle⟩ := by simpa [responsive] using awake
  simp [enabled, powered, idle]

/-- A transaction that does not come to a command leaves the chip where it is. -/
theorem Unmoved.physical (h : c.Unmoved c')
    (silent : ∀ r answers, t.command? = some r → result ≠ .ok answers) :
    c.Physical t result c' where
  size := by rw [h.memory]
  gated _ := ⟨h.memory, h.protectBits, h.quadEnabled⟩
  cells := .inl h.memory
  accepted r answers command ok := absurd ok (silent r answers command)
  ignored _ := h.toSpared
  failed _ _ := h
  asleep _ := ⟨h.toSpared, h.writeEnabled⟩
  woken asleep := by
    rw [h.poweredDown, asleep]
    exact iff_of_false nofun fun ⟨command, answers, ok⟩ => silent _ _ command ok

/-- A transaction that comes to a command does what the command does. -/
theorem physical_of_executed {answers : List Bytes} (blocks : blockSize64K ∣ c.memory.size)
    (pos : 0 < c.memory.size) (ok : result = .ok answers) (command : t.command? = some r)
    (unmoved : (c.execute r).2.Unmoved c') : c.Physical t result c' where
  size := by rw [unmoved.memory, (c.endures_execute r).size]
  gated gate := by
    have spared := ((c.effect_execute r).unmoved unmoved).spared fun accepts =>
      accepts.not_gated gate
    exact ⟨spared.memory, spared.protectBits, spared.quadEnabled⟩
  cells := ((c.effect_execute r).unmoved unmoved).cells blocks pos
  accepted r' _ command' _ accepts := by
    cases command.symm.trans command'
    exact unmoved.writeEnabled.trans (writeEnabled_execute accepts)
  ignored none := ((c.effect_execute r).unmoved unmoved).spared (none r _ command ok)
  failed e error := by rw [ok] at error; contradiction
  asleep asleep := by
    rcases ((c.effect_execute r).unmoved unmoved).of_asleep asleep with same | ⟨-, woken⟩
    · exact ⟨same.toSpared, same.writeEnabled⟩
    · exact ⟨.of_flags woken.toSpared, woken.writeEnabled⟩
  woken asleep := by
    constructor
    · intro awake
      refine ⟨?_, answers, ok⟩
      rcases ((c.effect_execute r).unmoved unmoved).of_asleep asleep with same | ⟨bare, -⟩
      · rw [same.poweredDown, asleep] at awake
        contradiction
      · rw [command, bare]
    · rintro ⟨bare, -⟩
      cases command.symm.trans bare
      rw [unmoved.poweredDown]
      simp [Request.command, execute, runCommand, asleep]

/-- The array of a chip consists of whole blocks, whether its capacity is listed or not. -/
theorem size_factory (id : Identity) :
    blockSize64K ∣ (factory id).memory.size ∧ 0 < (factory id).memory.size := by
  simp only [factory, Memory.size_blank]
  cases listed : Identity.sizeOfCode? id.capacityCode with
  | none => exact ⟨by decide, by decide⟩
  | some size =>
    obtain ⟨blocks, divides⟩ := Identity.sizeOfCode?_bounds listed
    exact ⟨blocks, Nat.pos_of_dvd_of_pos divides (by decide)⟩

/-- Every transaction on any face of a chip keeps to the physics, in every state of the chip, and
uses no index outside the array. -/
theorem physical_transact (c : Chip) (sized : c.memory.size = (factory c.id).memory.size)
    (t : Transaction) :
    c.Physical t (c.transact t).1 (c.transact t).2 ∧ c.transact? t = some (c.transact t) := by
  obtain ⟨blocks, pos⟩ := size_factory c.id
  rw [← sized] at blocks pos
  refine ⟨?_, transact?_eq pos t⟩
  cases c.ends_transact t with
  | failed e error unmoved =>
    refine unmoved.physical fun r answers _ ok => ?_
    rw [error] at ok
    contradiction
  | answered answers ok silent unmoved =>
    refine unmoved.physical fun r _ command => ?_
    rw [silent] at command
    contradiction
  | executed answers ok r command unmoved =>
    exact physical_of_executed blocks pos ok command unmoved

/-- A page program in two writes, accepted on one line, uses the latch up. -/
theorem physical_page_program : ∃ c : Chip, c.writeEnabled = true ∧
    c.Accepts ⟨0x02, some 0x1FE, .send [0x0F, 0xF0, 0x55]⟩ ∧
    (c.transact (.spi [.write [0x02, 0x00, 0x01, 0xFE],
      .write [0x0F, 0xF0, 0x55]])).2.writeEnabled = false := by
  let c : Chip := { factory ⟨0xEF, 0x40, 0x14⟩ with writeEnabled := true }
  have accepts : c.Accepts ⟨0x02, some 0x1FE, .send [0x0F, 0xF0, 0x55]⟩ := ⟨rfl, rfl, rfl⟩
  exact ⟨c, rfl, accepts, (physical_transact c rfl
    (.spi [.write [0x02, 0x00, 0x01, 0xFE], .write [0x0F, 0xF0, 0x55]])).1.accepted _ [] rfl rfl
      accepts⟩

end Chip

end SerialFlash
