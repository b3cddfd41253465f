import SerialFlash.Proofs.Conduct

/-!
What no transaction changes. A request that reaches the chip, over any link and
whether or not it is one that a driver sends, leaves its identity, the size of its
array, its defects, its busy times and its disarmed faults as they were. Only a
power-down puts the chip to sleep and only a status write touches the quad-enable bit.
So whatever a script says, as long as it says neither of the two, the chip is awake at
the end if it was at the start.
-/

namespace SerialFlash

/-- The protection bits are in their place in the status register. -/
def Chip.Placed (c : Chip) : Prop :=
  c.protectBits &&& Status1.blockProtect = c.protectBits

/-- The second chip is the first one at a later time. -/
structure Chip.Endures (c c' : Chip) : Prop where
  id : c'.id = c.id
  size : c'.memory.size = c.memory.size
  stuckBusy : c'.stuckBusy = c.stuckBusy
  stuckCells : c'.stuckCells = c.stuckCells
  programBusy : c'.programBusy = c.programBusy
  eraseBusy : c'.eraseBusy = c.eraseBusy
  placed : c.Placed → c'.Placed
  noFaults : c.faults = .none → c'.faults = .none

namespace Chip

variable {c c' c'' : Chip} {r : Request}

theorem Endures.refl (c : Chip) : c.Endures c :=
  ⟨rfl, rfl, rfl, rfl, rfl, rfl, fun placed => placed, fun none => none⟩

theorem Endures.trans (h : c.Endures c') (h' : c'.Endures c'') : c.Endures c'' :=
  ⟨h'.id.trans h.id, h'.size.trans h.size, h'.stuckBusy.trans h.stuckBusy,
    h'.stuckCells.trans h.stuckCells, h'.programBusy.trans h.programBusy,
    h'.eraseBusy.trans h.eraseBusy, fun placed => h'.placed (h.placed placed),
    fun none => h'.noFaults (h.noFaults none)⟩

theorem Alike.endures (h : c.Alike c') : c.Endures c' := by
  obtain ⟨_, _, _, rfl, none⟩ := h
  exact ⟨rfl, rfl, rfl, rfl, rfl, rfl, fun placed => placed, none⟩

theorem endures_eraseUnit (c : Chip) (unit address : Nat) :
    c.Endures (c.eraseUnit unit address) :=
  ⟨rfl, Memory.size_erase _ _ _ _, rfl, rfl, rfl, rfl, fun placed => placed, fun none => none⟩

theorem endures_runCommand (c : Chip) (opcode : UInt8) : c.Endures (c.runCommand opcode) := by
  unfold runCommand
  split
  · split <;> exact ⟨rfl, rfl, rfl, rfl, rfl, rfl, fun placed => placed, fun none => none⟩
  · split
    · exact .refl c
    · split
      · exact ⟨rfl, rfl, rfl, rfl, rfl, rfl, fun placed => placed, fun none => none⟩
      · exact ⟨rfl, rfl, rfl, rfl, rfl, rfl, fun placed => placed, fun none => none⟩
      · split
        · exact endures_eraseUnit c _ _
        · exact .refl c
      · exact ⟨rfl, rfl, rfl, rfl, rfl, rfl, fun placed => placed, fun none => none⟩
      · exact .refl c

theorem endures_runErase (c : Chip) (opcode : UInt8) (address : Nat) :
    c.Endures (c.runErase opcode address) := by
  unfold runErase
  split
  · split
    · exact endures_eraseUnit c _ _
    · exact .refl c
  · exact .refl c

theorem endures_runStatusWrite (c : Chip) (data : Bytes) : c.Endures (c.runStatusWrite data) := by
  have masked (first : UInt8) : first &&& Status1.blockProtect &&& Status1.blockProtect =
      first &&& Status1.blockProtect := by
    rw [UInt8.and_assoc, UInt8.and_self]
  unfold runStatusWrite
  split
  · dsimp only
    split
    · exact ⟨rfl, rfl, rfl, rfl, rfl, rfl, fun placed => placed, fun none => none⟩
    · split
      · exact ⟨rfl, rfl, rfl, rfl, rfl, rfl, fun placed => placed, fun none => none⟩
      · next first => exact ⟨rfl, rfl, rfl, rfl, rfl, rfl, fun _ => masked first, fun none => none⟩
      · next first _ _ =>
        exact ⟨rfl, rfl, rfl, rfl, rfl, rfl, fun _ => masked first, fun none => none⟩
  · exact .refl c

theorem endures_runProgram (c : Chip) (opcode : UInt8) (address : Nat) (data : Bytes) :
    c.Endures (c.runProgram opcode address data) := by
  unfold runProgram
  split
  · exact ⟨rfl, Memory.size_program _ _ _, rfl, rfl, rfl, rfl, fun placed => placed,
      fun none => none⟩
  · exact .refl c

theorem endures_runReceive (c : Chip) (opcode : UInt8) (length : Nat) :
    c.Endures (c.runReceive opcode length).2 := by
  unfold runReceive
  split
  · exact ⟨rfl, rfl, rfl, rfl, rfl, rfl, fun placed => placed, fun none => none⟩
  · split
    · split <;> exact .refl c
    · exact .refl c

theorem endures_runRead (c : Chip) (opcode : UInt8) (address length : Nat) :
    c.Endures (c.runRead opcode address length).2 := by
  unfold runRead
  split
  · exact ⟨rfl, rfl, rfl, rfl, rfl, rfl, fun placed => placed, fun none => none⟩
  · exact .refl c

theorem endures_execute (c : Chip) (r : Request) : c.Endures (c.execute r).2 := by
  obtain ⟨opcode, _ | address, _ | data | length⟩ := r
  · exact endures_runCommand c _
  · simp only [execute]
    split
    · exact endures_runStatusWrite c _
    · exact .refl c
  · exact endures_runReceive c _ _
  · exact endures_runErase c _ _
  · exact endures_runProgram c _ _ _
  · exact endures_runRead c _ _ _

/-! ### Sleep and the quad-enable bit -/

/-- Only a power-down puts the chip to sleep, and only a release wakes it. -/
theorem poweredDown_execute (c : Chip) (r : Request) :
    (c.execute r).2.poweredDown = c.poweredDown ∨
      r.opcode = Opcode.powerDown.byte ∧ (c.execute r).2.poweredDown = true ∨
      r.opcode = Opcode.releasePowerDown.byte ∧ (c.execute r).2.poweredDown = false := by
  obtain ⟨opcode, _ | address, _ | data | length⟩ := r
  · simp only [execute, runCommand]
    split
    · split
      · next wakes => exact .inr (.inr ⟨(Opcode.byte_of_ofByte? wakes).symm, rfl⟩)
      · exact .inl rfl
    · split
      · exact .inl rfl
      · split
        · exact .inl rfl
        · exact .inl rfl
        · split <;> exact .inl rfl
        · next sleep => exact .inr (.inl ⟨(Opcode.byte_of_ofByte? sleep).symm, rfl⟩)
        · exact .inl rfl
  · refine .inl ?_
    simp only [execute, runStatusWrite]
    repeat' split
    all_goals rfl
  · refine .inl ?_
    simp only [execute, runReceive]
    repeat' split
    all_goals rfl
  · refine .inl ?_
    simp only [execute, runErase]
    repeat' split
    all_goals rfl
  · refine .inl ?_
    simp only [execute, runProgram]
    split <;> rfl
  · refine .inl ?_
    simp only [execute, runRead]
    split <;> rfl

/-- Only a status write touches the bits that are kept in the status registers. -/
theorem statusBits_execute (h : r.opcode ≠ Opcode.writeStatus.byte) :
    (c.execute r).2.protectBits = c.protectBits ∧
      (c.execute r).2.quadEnabled = c.quadEnabled := by
  obtain ⟨opcode, _ | address, _ | data | length⟩ := r
  · simp only [execute, runCommand]
    repeat' split
    all_goals exact ⟨rfl, rfl⟩
  · have other : Opcode.ofByte? opcode ≠ some .writeStatus := fun spelt =>
      h (Opcode.byte_of_ofByte? spelt).symm
    simp only [execute, other, if_false, and_self]
  · simp only [execute, runReceive]
    repeat' split
    all_goals exact ⟨rfl, rfl⟩
  · simp only [execute, runErase]
    repeat' split
    all_goals exact ⟨rfl, rfl⟩
  · simp only [execute, runProgram]
    split <;> exact ⟨rfl, rfl⟩
  · simp only [execute, runRead]
    split <;> exact ⟨rfl, rfl⟩

end Chip

/-! ### Over a link -/

namespace Chip

variable {c c' : Chip} {r : Request}

/-- What a chip may have become when a request with this opcode was put on its link. Over
one line the chip reads the rest of the request off the bytes, so it may carry out
another one with the same opcode. -/
def Heard (c : Chip) (opcode : UInt8) (c' : Chip) : Prop :=
  c.Alike c' ∨ ∃ r : Request, r.opcode = opcode ∧ (c.execute r).2.Alike c'

theorem heard_perform (c : Chip) (r : Request) : c.Heard r.opcode (c.perform r).2 := by
  rw [perform_eq]
  split
  · exact .inl (c.alike_start _)
  · exact .inr ⟨r, rfl, ((c.alike_start _).execute r).2⟩

theorem heard_spiFrom_write (c : Chip) (opcode : UInt8) (sent : Bytes) :
    c.Heard opcode (c.spiFrom (opcode :: sent) [] []).2 := by
  have same : ∀ r, writtenRequest? (opcode :: sent) = some r → r.opcode = opcode := by
    intro r spelt
    simp only [writtenRequest?] at spelt
    split at spelt
    · cases spelt; rfl
    · split at spelt <;> cases spelt <;> rfl
  simp only [spiFrom, List.isEmpty_nil, if_true]
  split
  · next r spelt =>
    have heard := same r spelt ▸ c.heard_perform r
    split <;> next h => rwa [h] at heard
  · exact .inl (.refl c)

theorem heard_spiFrom_read (c : Chip) (opcode : UInt8) (sent : Bytes) (length : Nat) :
    c.Heard opcode (c.spiFrom (opcode :: sent) [] [.read length]).2 := by
  have same : ∀ r, answeredRequest? length (opcode :: sent) = some r → r.opcode = opcode := by
    intro r spelt
    unfold answeredRequest? at spelt
    split at spelt <;> cases spelt <;> simp_all
  simp only [spiFrom]
  split
  · next r spelt =>
    have heard := same r spelt ▸ c.heard_perform r
    split <;> next h => rwa [h] at heard
  · exact .inl (.refl c)

theorem heard_performFrame (c : Chip) (f : Frame) (phase : DataPhase) :
    c.Heard f.opcode (c.performFrame f phase).2 := by
  have started : c.Alike (({ c with frameLog := c.frameLog.push f }).start f.opcode).2 :=
    Alike.trans ⟨c.faults, c.opcodeLog, _, rfl, fun none => none⟩ (alike_start _ _)
  simp only [performFrame]
  split <;> next h =>
    rw [h] at started
    first
    | exact .inl started
    | split
      · exact .inr ⟨⟨f.opcode, f.address, phase⟩, rfl, (started.execute _).2⟩
      · exact .inl started

theorem heard_exchange (l : Link) (c : Chip) (r : Request) :
    c.Heard r.opcode (l.exchange c r).2 := by
  cases l with
  | direct => exact c.heard_perform r
  | spi =>
    show c.Heard r.opcode (c.performSpi r.toSpi).2
    obtain ⟨opcode, address, _ | data | length⟩ := r
    · exact c.heard_spiFrom_write opcode _
    · exact c.heard_spiFrom_write opcode _
    · exact c.heard_spiFrom_read opcode _ length
  | wide config => simpa [Link.exchange] using c.heard_performFrame (config.frame r) r.phase

variable {opcode : UInt8}

theorem Heard.endures (h : c.Heard opcode c') : c.Endures c' := by
  rcases h with unread | ⟨r, -, read⟩
  · exact unread.endures
  · exact (c.endures_execute r).trans read.endures

theorem Heard.poweredDown (h : c.Heard opcode c') :
    c'.poweredDown = c.poweredDown ∨
      opcode = Opcode.powerDown.byte ∧ c'.poweredDown = true ∨
      opcode = Opcode.releasePowerDown.byte ∧ c'.poweredDown = false := by
  rcases h with ⟨_, _, _, rfl, -⟩ | ⟨r, rfl, _, _, _, rfl, -⟩
  · exact .inl rfl
  · exact c.poweredDown_execute r

theorem Heard.quadEnabled (h : c.Heard opcode c') (other : opcode ≠ Opcode.writeStatus.byte) :
    c'.quadEnabled = c.quadEnabled := by
  rcases h with ⟨_, _, _, rfl, -⟩ | ⟨r, rfl, _, _, _, rfl, -⟩
  · rfl
  · exact (statusBits_execute other).2

end Chip

/-! ### Gentle instructions -/

/-- Neither puts the chip to sleep nor clears the quad-enable bit. -/
def Instruction.Gentle : Instruction → Prop
  | writeStatus _ second => second &&& Status2.quadEnable ≠ 0
  | powerDown => False
  | _ => True

/-- Leaves the chip awake or asleep, as it is. -/
def Instruction.KeepsPower : Instruction → Prop
  | powerDown | releasePowerDown => False
  | _ => True

/-- The opcode that an instruction goes out with. -/
def Instruction.opcode (l : Link) : Instruction → Opcode
  | writeEnable => .writeEnable
  | readStatus1 => .readStatus1
  | readStatus2 => .readStatus2
  | writeStatus _ _ => .writeStatus
  | readId => .readId
  | readUniqueId => .readUniqueId
  | readArray _ _ => l.readOpcode
  | programPage _ _ => l.programOpcode
  | eraseSector unit _ => unit.opcode
  | eraseChip => .chipErase
  | powerDown => .powerDown
  | releasePowerDown => .releasePowerDown

namespace Link

variable {l : Link} {i : Instruction}

theorem opcode_request (l : Link) (i : Instruction) :
    (l.request i).opcode = (i.opcode l).byte := by
  cases i <;> rfl

theorem eq_powerDown_of_opcode (h : i.opcode l = .powerDown) : i = .powerDown := by
  cases i with
  | powerDown => rfl
  | readArray address length => rcases l with _ | _ | ⟨_ | _ | _⟩ <;> nomatch h
  | programPage address data => rcases l with _ | _ | ⟨_ | _ | _⟩ <;> nomatch h
  | eraseSector unit address => cases unit <;> nomatch h
  | _ => nomatch h

theorem eq_releasePowerDown_of_opcode (h : i.opcode l = .releasePowerDown) :
    i = .releasePowerDown := by
  cases i with
  | releasePowerDown => rfl
  | readArray address length => rcases l with _ | _ | ⟨_ | _ | _⟩ <;> nomatch h
  | programPage address data => rcases l with _ | _ | ⟨_ | _ | _⟩ <;> nomatch h
  | eraseSector unit address => cases unit <;> nomatch h
  | _ => nomatch h

theorem eq_writeStatus_of_opcode (h : i.opcode l = .writeStatus) :
    ∃ first second, i = .writeStatus first second := by
  cases i with
  | writeStatus first second => exact ⟨first, second, rfl⟩
  | readArray address length => rcases l with _ | _ | ⟨_ | _ | _⟩ <;> nomatch h
  | programPage address data => rcases l with _ | _ | ⟨_ | _ | _⟩ <;> nomatch h
  | eraseSector unit address => cases unit <;> nomatch h
  | _ => nomatch h

end Link

namespace Bench

variable {i : Instruction}

theorem endures_send (b : Bench) (i : Instruction) : b.chip.Endures (b.send i).2.chip :=
  (b.chip.heard_exchange b.link (b.link.request i)).endures

/-- What an instruction does to the power state of the chip. -/
theorem poweredDown_send_cases (b : Bench) (i : Instruction) :
    (b.send i).2.chip.poweredDown = b.chip.poweredDown ∨
      i = .powerDown ∧ (b.send i).2.chip.poweredDown = true ∨
      i = .releasePowerDown ∧ (b.send i).2.chip.poweredDown = false := by
  have heard := b.chip.heard_exchange b.link (b.link.request i)
  rw [Link.opcode_request] at heard
  rcases heard.poweredDown with same | ⟨opcode, sleeps⟩ | ⟨opcode, wakes⟩
  · exact .inl same
  · exact .inr (.inl ⟨Link.eq_powerDown_of_opcode (Opcode.byte_injective opcode), sleeps⟩)
  · exact .inr (.inr ⟨Link.eq_releasePowerDown_of_opcode (Opcode.byte_injective opcode), wakes⟩)

theorem poweredDown_send (b : Bench) (gentle : i.Gentle) (awake : b.chip.poweredDown = false) :
    (b.send i).2.chip.poweredDown = false := by
  rcases b.poweredDown_send_cases i with same | ⟨rfl, -⟩ | ⟨-, wakes⟩
  · exact same.trans awake
  · exact gentle.elim
  · exact wakes

theorem poweredDown_send_keeps (b : Bench) (keeps : i.KeepsPower) :
    (b.send i).2.chip.poweredDown = b.chip.poweredDown := by
  rcases b.poweredDown_send_cases i with same | ⟨rfl, -⟩ | ⟨rfl, -⟩
  · exact same
  · exact keeps.elim
  · exact keeps.elim

/-- A gentle instruction never takes the quad-enable bit away. -/
theorem quadEnabled_send (b : Bench) (gentle : i.Gentle) (on : b.chip.quadEnabled = true) :
    (b.send i).2.chip.quadEnabled = true := by
  by_cases same : i.opcode b.link = .writeStatus
  · obtain ⟨first, second, rfl⟩ := Link.eq_writeStatus_of_opcode same
    rcases b.send_cases (i := .writeStatus first second) trivial with ⟨-, -, unread⟩ | ⟨-, obeyed⟩
    · obtain ⟨_, _, _, chip, -⟩ := unread
      rw [chip]
      exact on
    · obtain ⟨_, _, _, chip, -⟩ := obeyed
      rw [chip, Chip.quadEnabled_withBooks, Chip.obey_writeStatus]
      simp only [Chip.runStatusWrite]
      split
      · split
        · exact on
        · exact bne_iff_ne.mpr gentle
      · exact on
  · have heard := b.chip.heard_exchange b.link (b.link.request i)
    rw [Link.opcode_request] at heard
    exact (heard.quadEnabled fun h => same (Opcode.byte_injective h)).trans on

end Bench

end SerialFlash
