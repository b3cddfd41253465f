import SerialFlash.Bench

/-!
What an instruction does, whatever the link. The three links put an instruction on
their wires in three ways, and the chip reads it back from bytes or from a frame; of
the instructions that a driver sends it reads back what was meant
(`exchange_request`). So a driver talks to one chip that obeys instructions, and the
links differ only in the opcodes of array reads and page programs.

A transaction also leaves its mark on the chip's books: the armed faults count it and
the logs note it. Two chips are `Alike` if they differ in nothing else. Nothing that a
chip does later depends on its logs, and on the faults only whether a transaction
fails.
-/

namespace SerialFlash

/-- The address has 24 bits, and a page program carries data. -/
def Instruction.Fits : Instruction → Prop
  | readArray address _ => address < 16777216
  | programPage address data => address < 16777216 ∧ data ≠ []
  | eraseSector _ address => address < 16777216
  | _ => True

/-- The bytes of a one-line transaction spell the request without loss: the
address has 24 bits, a status write has none, and a program carries data. -/
def Request.Legible : Request → Prop
  | ⟨opcode, none, .none⟩ => opcode ≠ Opcode.writeStatus.byte
  | ⟨opcode, some address, .none⟩ => opcode ≠ Opcode.writeStatus.byte ∧ address < 16777216
  | ⟨opcode, none, .send _⟩ => opcode = Opcode.writeStatus.byte
  | ⟨opcode, some address, .send data⟩ =>
      opcode ≠ Opcode.writeStatus.byte ∧ address < 16777216 ∧ data ≠ []
  | ⟨_, none, .receive _⟩ => True
  | ⟨_, some address, .receive _⟩ => address < 16777216

theorem addressOf_of_lt {address : Nat} (h : address < 16777216) :
    addressOf (UInt8.ofNat (address / 65536)) (UInt8.ofNat (address / 256))
      (UInt8.ofNat address) = address := by
  rw [addressOf_addressBytes, Nat.mod_eq_of_lt h]

theorem EraseUnit.opcode_ne_writeStatus (u : EraseUnit) :
    u.opcode.byte ≠ Opcode.writeStatus.byte := by
  cases u <;> decide

theorem Link.programOpcode_ne_writeStatus (l : Link) :
    l.programOpcode.byte ≠ Opcode.writeStatus.byte := by
  rcases l with _ | _ | config
  · decide
  · decide
  · show config.width.programOpcode.byte ≠ _
    cases config.width <;> decide

theorem Link.legible_request (l : Link) {i : Instruction} (fits : i.Fits) :
    (l.request i).Legible := by
  cases i with
  | readArray address length => exact fits
  | programPage address data => exact ⟨l.programOpcode_ne_writeStatus, fits⟩
  | eraseSector unit address => exact ⟨unit.opcode_ne_writeStatus, fits⟩
  | readStatus1 | readStatus2 | readId | readUniqueId => trivial
  | writeStatus first second => rfl
  | writeEnable | eraseChip | powerDown | releasePowerDown =>
    exact fun h => nomatch Opcode.byte_injective h

/-! ### Bytes on one line -/

namespace Chip

variable {opcode : UInt8} {address length : Nat} {data : Bytes}

theorem perform_eq (c : Chip) (r : Request) :
    c.perform r =
      if (c.start r.opcode).1 then (.error .injected, (c.start r.opcode).2)
      else (.ok ((c.start r.opcode).2.execute r).1, ((c.start r.opcode).2.execute r).2) := by
  unfold perform
  rcases c.start r.opcode with ⟨_ | _, c'⟩ <;> rfl

/-- Only a receive is answered with bytes. -/
theorem execute_of_silent (c : Chip) {r : Request}
    (silent : ∀ length, r.phase ≠ .receive length) : (c.execute r).1 = [] := by
  obtain ⟨opcode, _ | address, _ | data | length⟩ := r <;>
    first | rfl | exact absurd rfl (silent length)

theorem spiFrom_written (c : Chip) {sent : Bytes} {r : Request}
    (spelt : writtenRequest? sent = some r) (silent : ∀ length, r.phase ≠ .receive length) :
    ((c.spiFrom sent [] []).1.map List.flatten, (c.spiFrom sent [] []).2) = c.perform r := by
  by_cases fires : (c.start r.opcode).1
  · simp [spiFrom, spelt, perform_eq, fires, Except.map]
  · simp [spiFrom, spelt, perform_eq, fires, Except.map, execute_of_silent _ silent]

theorem spiFrom_answered (c : Chip) {sent : Bytes} {r : Request}
    (spelt : answeredRequest? length sent = some r) :
    ((c.spiFrom sent [] [.read length]).1.map List.flatten,
      (c.spiFrom sent [] [.read length]).2) = c.perform r := by
  by_cases fires : (c.start r.opcode).1 <;>
    simp [spiFrom, spelt, perform_eq, fires, Except.map]

theorem writtenRequest?_command (h : opcode ≠ Opcode.writeStatus.byte) :
    writtenRequest? [opcode] = some ⟨opcode, none, .none⟩ := by
  simp [writtenRequest?, h]

theorem writtenRequest?_send (h : opcode = Opcode.writeStatus.byte) :
    writtenRequest? (opcode :: data) = some ⟨opcode, none, .send data⟩ := by
  simp [writtenRequest?, h]

theorem writtenRequest?_commandAt (h : opcode ≠ Opcode.writeStatus.byte)
    (bound : address < 16777216) :
    writtenRequest? (opcode :: addressBytes address) = some ⟨opcode, some address, .none⟩ := by
  -- without the bound the address would come back modulo 2 ^ 24
  simp [writtenRequest?, addressBytes, h, addressOf_of_lt bound]

theorem writtenRequest?_sendAt (h : opcode ≠ Opcode.writeStatus.byte)
    (bound : address < 16777216) (ne : data ≠ []) :
    writtenRequest? (opcode :: addressBytes address ++ data) =
      some ⟨opcode, some address, .send data⟩ := by
  obtain ⟨b, bs, rfl⟩ := List.exists_cons_of_ne_nil ne
  simp [writtenRequest?, addressBytes, h, addressOf_of_lt bound]

theorem answeredRequest?_receive :
    answeredRequest? length [opcode] = some ⟨opcode, none, .receive length⟩ := rfl

theorem answeredRequest?_receiveAt (bound : address < 16777216) :
    answeredRequest? length (opcode :: addressBytes address) =
      some ⟨opcode, some address, .receive length⟩ := by
  simp [answeredRequest?, addressBytes, addressOf_of_lt bound]

/-- A legible request is carried out as it is. -/
theorem exchange_spi_of_legible (c : Chip) {r : Request} (legible : r.Legible) :
    Link.spi.exchange c r = c.perform r := by
  show ((c.performSpi r.toSpi).1.map List.flatten, (c.performSpi r.toSpi).2) = _
  obtain ⟨opcode, _ | address, _ | data | length⟩ := r
  · exact c.spiFrom_written (writtenRequest?_command legible) (by simp)
  · exact c.spiFrom_written (writtenRequest?_send legible) (by simp)
  · exact c.spiFrom_answered answeredRequest?_receive
  · exact c.spiFrom_written (writtenRequest?_commandAt legible.1 legible.2) (by simp)
  · exact c.spiFrom_written (writtenRequest?_sendAt legible.1 legible.2.1 legible.2.2) (by simp)
  · exact c.spiFrom_answered (answeredRequest?_receiveAt legible)

end Chip

/-! ### Frames -/

/-- The mode byte goes with the two- and four-line reads, so the chip knows
every frame that spells an instruction. -/
theorem LineConfig.understands_frame (config : LineConfig) (i : Instruction) :
    Chip.understands (config.frame ((Link.wide config).request i))
      ((Link.wide config).request i).phase = true := by
  cases i with
  | readArray address length =>
    obtain ⟨width, dummy, pos, le, mode⟩ := config
    cases width <;> rfl
  | _ => rfl

namespace Link

/-- A multi-line controller logs the frame; the other links log nothing. -/
def logged (l : Link) (c : Chip) (r : Request) : Chip :=
  match l with
  | wide config => { c with frameLog := c.frameLog.push (config.frame r) }
  | _ => c

/-- Every link carries every instruction to the chip as it is. -/
theorem exchange_request (l : Link) (c : Chip) {i : Instruction} (fits : i.Fits) :
    l.exchange c (l.request i) = (l.logged c (l.request i)).perform (l.request i) := by
  cases l with
  | direct => rfl
  | spi => exact c.exchange_spi_of_legible (legible_request .spi fits)
  | wide config =>
    have known := config.understands_frame i
    simp only [exchange, Chip.performFrame, logged, LineConfig.frame_opcode,
      LineConfig.frame_address, known, if_true]
    rfl

end Link

/-! ### Obeying -/

namespace Chip

/-- Answer and effect of an instruction that has reached the chip over a link. -/
def obey (c : Chip) (l : Link) (i : Instruction) : Bytes × Chip :=
  c.execute (l.request i)

/-- The array instructions of the link work: it does with one or two lines, or the
quad-enable bit is set. -/
def serves (c : Chip) (l : Link) : Bool :=
  !l.needsQuad || c.quadEnabled

theorem canRead_readOpcode (c : Chip) (l : Link) :
    c.canRead l.readOpcode.byte = c.serves l := by
  rcases l with _ | _ | ⟨_ | _ | _⟩ <;> rfl

theorem canProgram_programOpcode (c : Chip) (l : Link) :
    c.canProgram l.programOpcode.byte = c.serves l := by
  rcases l with _ | _ | ⟨_ | _ | _⟩ <;> rfl

variable (c : Chip) (l : Link)

theorem obey_writeEnable :
    c.obey l .writeEnable = ([], if c.responsive then { c with writeEnabled := true } else c) := by
  cases asleep : c.poweredDown <;> cases busy : c.isBusy <;>
    simp [obey, Link.request, Request.command, execute, runCommand, responsive, asleep, busy]

theorem obey_readStatus1 :
    c.obey l .readStatus1 =
      if c.poweredDown then ([0xFF], c)
      else ([c.status1], { c with busyReads := c.busyReads - 1 }) := by
  simp only [obey, Link.request, Request.receive, execute, runReceive, Opcode.ofByte?_byte,
    responsive]
  cases c.poweredDown <;> rfl

theorem obey_readStatus2 :
    c.obey l .readStatus2 = ([if c.responsive then c.status2 else 0xFF], c) := by
  simp only [obey, Link.request, Request.receive, execute, runReceive, Opcode.ofByte?_byte]
  cases c.responsive <;> rfl

theorem obey_writeStatus (first second : UInt8) :
    c.obey l (.writeStatus first second) = ([], c.runStatusWrite [first, second]) := by
  simp only [obey, Link.request, Request.send, execute, Opcode.ofByte?_byte, if_true]

theorem obey_readId :
    c.obey l .readId = (if c.responsive then c.id.toBytes else [0xFF, 0xFF, 0xFF], c) := by
  simp only [obey, Link.request, Request.receive, execute, runReceive, Opcode.ofByte?_byte]
  cases c.responsive <;> rfl

theorem obey_readArray (address length : Nat) :
    c.obey l (.readArray address length) =
      if c.responsive && c.serves l then
        (c.memory.read address length, { c with reads := c.reads + 1 })
      else (List.replicate length 0xFF, c) := by
  simp only [obey, Link.request, Request.receiveAt, execute, runRead, canRead_readOpcode]

theorem obey_programPage (address : Nat) (data : Bytes) :
    c.obey l (.programPage address data) =
      ([], if c.responsive && c.writeEnabled && c.serves l then
        { c with
          memory := c.memory.program address data
          programs := c.programs + 1
          writeEnabled := false
          busyReads := c.programBusy }
      else c) := by
  simp only [obey, Link.request, Request.sendAt, execute, runProgram, canProgram_programOpcode]

theorem obey_eraseSector (unit : EraseUnit) (address : Nat) :
    c.obey l (.eraseSector unit address) =
      ([], if c.responsive && c.writeEnabled then c.eraseUnit unit.size address else c) := by
  cases unit <;> rfl

theorem obey_eraseChip :
    c.obey l .eraseChip =
      ([], if c.responsive && c.writeEnabled then c.eraseUnit c.memory.size 0 else c) := by
  cases asleep : c.poweredDown <;> cases busy : c.isBusy <;>
    simp [obey, Link.request, Request.command, execute, runCommand, responsive, asleep, busy]

theorem obey_powerDown :
    c.obey l .powerDown = ([], if c.responsive then { c with poweredDown := true } else c) := by
  cases asleep : c.poweredDown <;> cases busy : c.isBusy <;>
    simp [obey, Link.request, Request.command, execute, runCommand, responsive, asleep, busy]

theorem obey_releasePowerDown :
    c.obey l .releasePowerDown = ([], { c with poweredDown := false }) := by
  cases asleep : c.poweredDown
  · simp [obey, Link.request, Request.command, execute, runCommand, ← asleep]
  · simp [obey, Link.request, Request.command, execute, runCommand, asleep]

/-! ### Books -/

/-- The same chip with other books. -/
def withBooks (c : Chip) (faults : Faults) (opcodes : Array UInt8) (frames : Array Frame) : Chip :=
  { c with faults := faults, opcodeLog := opcodes, frameLog := frames }

section
variable (faults : Faults) (opcodes : Array UInt8) (frames : Array Frame)

@[simp] theorem id_withBooks : (c.withBooks faults opcodes frames).id = c.id := rfl
@[simp] theorem memory_withBooks : (c.withBooks faults opcodes frames).memory = c.memory := rfl
@[simp] theorem protectBits_withBooks :
    (c.withBooks faults opcodes frames).protectBits = c.protectBits := rfl
@[simp] theorem quadEnabled_withBooks :
    (c.withBooks faults opcodes frames).quadEnabled = c.quadEnabled := rfl
@[simp] theorem writeEnabled_withBooks :
    (c.withBooks faults opcodes frames).writeEnabled = c.writeEnabled := rfl
@[simp] theorem busyReads_withBooks :
    (c.withBooks faults opcodes frames).busyReads = c.busyReads := rfl
@[simp] theorem stuckBusy_withBooks :
    (c.withBooks faults opcodes frames).stuckBusy = c.stuckBusy := rfl
@[simp] theorem poweredDown_withBooks :
    (c.withBooks faults opcodes frames).poweredDown = c.poweredDown := rfl
@[simp] theorem stuckCells_withBooks :
    (c.withBooks faults opcodes frames).stuckCells = c.stuckCells := rfl
@[simp] theorem faults_withBooks : (c.withBooks faults opcodes frames).faults = faults := rfl
@[simp] theorem isBusy_withBooks : (c.withBooks faults opcodes frames).isBusy = c.isBusy := rfl
@[simp] theorem responsive_withBooks :
    (c.withBooks faults opcodes frames).responsive = c.responsive := rfl
@[simp] theorem canRead_withBooks (opcode : UInt8) :
    (c.withBooks faults opcodes frames).canRead opcode = c.canRead opcode := rfl
@[simp] theorem canProgram_withBooks (opcode : UInt8) :
    (c.withBooks faults opcodes frames).canProgram opcode = c.canProgram opcode := rfl
@[simp] theorem serves_withBooks :
    (c.withBooks faults opcodes frames).serves l = c.serves l := rfl
@[simp] theorem status1_withBooks : (c.withBooks faults opcodes frames).status1 = c.status1 := rfl
@[simp] theorem status2_withBooks : (c.withBooks faults opcodes frames).status2 = c.status2 := rfl

theorem runCommand_withBooks (opcode : UInt8) :
    (c.withBooks faults opcodes frames).runCommand opcode =
      (c.runCommand opcode).withBooks faults opcodes frames := by
  unfold runCommand
  rw [poweredDown_withBooks, isBusy_withBooks]
  cases c.poweredDown
  · cases c.isBusy
    · rcases Opcode.ofByte? opcode with _ | op
      · rfl
      · cases op <;> first | rfl | (cases latch : c.writeEnabled <;> simp [latch]; rfl)
    · rfl
  · by_cases wakes : Opcode.ofByte? opcode = some .releasePowerDown <;> simp [wakes]
    rfl

theorem runErase_withBooks (opcode : UInt8) (address : Nat) :
    (c.withBooks faults opcodes frames).runErase opcode address =
      (c.runErase opcode address).withBooks faults opcodes frames := by
  unfold runErase
  rw [responsive_withBooks, writeEnabled_withBooks]
  cases c.responsive && c.writeEnabled
  · rfl
  · cases unitOf? opcode <;> rfl

theorem runStatusWrite_withBooks (data : Bytes) :
    (c.withBooks faults opcodes frames).runStatusWrite data =
      (c.runStatusWrite data).withBooks faults opcodes frames := by
  unfold runStatusWrite
  rw [responsive_withBooks, writeEnabled_withBooks]
  cases c.responsive && c.writeEnabled
  · rfl
  · rcases data with _ | ⟨_, _ | _⟩ <;> cases locked : c.statusLocked <;> simp [withBooks, locked]

theorem runProgram_withBooks (opcode : UInt8) (address : Nat) (data : Bytes) :
    (c.withBooks faults opcodes frames).runProgram opcode address data =
      (c.runProgram opcode address data).withBooks faults opcodes frames := by
  unfold runProgram
  rw [responsive_withBooks, writeEnabled_withBooks, canProgram_withBooks]
  cases c.responsive && c.writeEnabled && c.canProgram opcode <;> rfl

theorem runReceive_withBooks (opcode : UInt8) (length : Nat) :
    (c.withBooks faults opcodes frames).runReceive opcode length =
      ((c.runReceive opcode length).1,
        (c.runReceive opcode length).2.withBooks faults opcodes frames) := by
  unfold runReceive
  rw [poweredDown_withBooks, responsive_withBooks, status1_withBooks, status2_withBooks]
  split
  · rfl
  · cases c.responsive
    · rfl
    · rcases Opcode.ofByte? opcode with _ | op
      · rfl
      · cases op <;> rfl

theorem runRead_withBooks (opcode : UInt8) (address length : Nat) :
    (c.withBooks faults opcodes frames).runRead opcode address length =
      ((c.runRead opcode address length).1,
        (c.runRead opcode address length).2.withBooks faults opcodes frames) := by
  unfold runRead
  rw [responsive_withBooks, canRead_withBooks]
  cases c.responsive && c.canRead opcode <;> rfl

/-- The chip does not look at its books when it carries out a request. -/
theorem execute_withBooks (r : Request) :
    (c.withBooks faults opcodes frames).execute r =
      ((c.execute r).1, (c.execute r).2.withBooks faults opcodes frames) := by
  obtain ⟨opcode, _ | address, _ | data | length⟩ := r
  · simp only [execute, runCommand_withBooks]
  · simp only [execute, runStatusWrite_withBooks]
    split <;> rfl
  · simp only [execute, runReceive_withBooks]
  · simp only [execute, runErase_withBooks]
  · simp only [execute, runProgram_withBooks]
  · simp only [execute, runRead_withBooks]

end

/-- The second chip differs from the first in its books at most, and no fault has
been armed on it. -/
def Alike (c c' : Chip) : Prop :=
  ∃ faults opcodes frames,
    c' = c.withBooks faults opcodes frames ∧ (c.faults = .none → faults = .none)

theorem Alike.refl (c : Chip) : c.Alike c :=
  ⟨c.faults, c.opcodeLog, c.frameLog, rfl, fun none => none⟩

theorem Alike.trans {c₁ c₂ c₃ : Chip} (h : c₁.Alike c₂) (h' : c₂.Alike c₃) : c₁.Alike c₃ := by
  obtain ⟨_, _, _, rfl, none⟩ := h
  obtain ⟨f, o, g, rfl, none'⟩ := h'
  exact ⟨f, o, g, rfl, fun h => none' (none h)⟩

theorem Alike.memory {c c' : Chip} (h : c.Alike c') : c'.memory = c.memory := by
  obtain ⟨_, _, _, rfl, -⟩ := h
  rfl

theorem Alike.isBusy {c c' : Chip} (h : c.Alike c') : c'.isBusy = c.isBusy := by
  obtain ⟨_, _, _, rfl, -⟩ := h
  rfl

/-- Carrying out a request hands the faults on. -/
@[simp] theorem faults_execute (r : Request) : (c.execute r).2.faults = c.faults := by
  have h := c.execute_withBooks c.faults c.opcodeLog c.frameLog r
  exact congrArg (fun p => p.2.faults) h

/-- Carrying out a request leaves the log alone. -/
theorem opcodeLog_execute (r : Request) : (c.execute r).2.opcodeLog = c.opcodeLog := by
  have h := c.execute_withBooks c.faults c.opcodeLog c.frameLog r
  exact congrArg (fun p => p.2.opcodeLog) h

theorem opcodeLog_perform (r : Request) :
    (c.perform r).2.opcodeLog = c.opcodeLog.push r.opcode := by
  rw [perform_eq]
  split
  · rfl
  · exact (c.start r.opcode).2.opcodeLog_execute r

theorem Alike.execute {c c' : Chip} (h : c.Alike c') (r : Request) :
    (c'.execute r).1 = (c.execute r).1 ∧ (c.execute r).2.Alike (c'.execute r).2 := by
  obtain ⟨f, o, g, rfl, none⟩ := h
  rw [execute_withBooks]
  exact ⟨rfl, f, o, g, rfl, by simpa using none⟩

/-- A transaction that has started is in the books and nowhere else. -/
theorem alike_start (opcode : UInt8) : c.Alike (c.start opcode).2 :=
  ⟨(c.faults.count opcode).2, c.opcodeLog.push opcode, c.frameLog, rfl, fun h => by
    rw [h, Faults.count_none]⟩

/-- Without armed faults no transaction fails. -/
theorem start_of_no_faults {c : Chip} {opcode : UInt8} (h : c.faults = .none) :
    (c.start opcode).1 = false := by
  show (c.faults.count opcode).1 = false
  rw [h, Faults.count_none]

@[simp] theorem faults_logged (r : Request) : (l.logged c r).faults = c.faults := by
  cases l <;> rfl

theorem alike_logged (r : Request) : c.Alike (l.logged c r) := by
  cases l with
  | direct | spi => exact .refl c
  | wide config => exact ⟨c.faults, c.opcodeLog, _, rfl, fun none => none⟩

end Chip

namespace Bench

@[simp] theorem link_send (b : Bench) (i : Instruction) : (b.send i).2.link = b.link := rfl

/-- An instruction either does not reach the chip, because an armed fault has fired,
or is obeyed. -/
theorem send_cases (b : Bench) {i : Instruction} (fits : i.Fits) :
    (b.chip.faults ≠ .none ∧ (b.send i).1 = .error .injected ∧ b.chip.Alike (b.send i).2.chip) ∨
      ((b.send i).1 = .ok (b.chip.obey b.link i).1 ∧
        (b.chip.obey b.link i).2.Alike (b.send i).2.chip) := by
  -- the log of the link and the count of the faults only touch the books
  have sent : ((b.send i).1, (b.send i).2.chip) = b.link.exchange b.chip (b.link.request i) := rfl
  rw [b.link.exchange_request b.chip fits, Chip.perform_eq] at sent
  have heard : b.chip.Alike _ := (b.chip.alike_logged b.link (b.link.request i)).trans
    (Chip.alike_start _ (b.link.request i).opcode)
  split at sent
  · next fires =>
    obtain ⟨failed, chip⟩ := Prod.mk.inj sent
    refine .inl ⟨fun none => ?_, failed, chip ▸ heard⟩
    rw [Chip.start_of_no_faults (by simpa using none)] at fires
    exact Bool.noConfusion fires
  · obtain ⟨answer, chip⟩ := Prod.mk.inj sent
    have obeyed := heard.execute (b.link.request i)
    exact .inr ⟨answer.trans (congrArg _ obeyed.1), chip ▸ obeyed.2⟩

end Bench

end SerialFlash
