import SerialFlash.Proofs.Permanence

/-!
Instructions that leave something alone. The chip only becomes busy, and only changes a
cell, behind a program, an erase or a status write. All other instructions are passive:
behind them the cells and the status bits are what they were, and a chip that was idle is
idle still. Of the three that are not, only the status write touches the status bits; a
plain instruction is one that is no status write and leaves the chip's power alone.
-/

namespace SerialFlash

/-- Starts nothing that the chip would be busy with. -/
def Opcode.Passive : Opcode → Prop
  | writeStatus | pageProgram | quadPageProgram | blockErase64K | blockErase32K | sectorErase4K
  | chipErase => False
  | _ => True

/-- The chip has been at work on nothing new: the cells and the status bits are the same, and
the busy time has not grown. -/
structure Chip.Undisturbed (c c' : Chip) : Prop where
  memory : c'.memory = c.memory
  protectBits : c'.protectBits = c.protectBits
  quadEnabled : c'.quadEnabled = c.quadEnabled
  stuckBusy : c'.stuckBusy = c.stuckBusy
  busyReads : c'.busyReads ≤ c.busyReads

namespace Chip

variable {c c' c'' : Chip} {r : Request} {opcode : UInt8}

theorem Undisturbed.refl (c : Chip) : c.Undisturbed c :=
  ⟨rfl, rfl, rfl, rfl, Nat.le_refl _⟩

theorem Undisturbed.trans (h : c.Undisturbed c') (h' : c'.Undisturbed c'') : c.Undisturbed c'' :=
  ⟨h'.memory.trans h.memory, h'.protectBits.trans h.protectBits,
    h'.quadEnabled.trans h.quadEnabled, h'.stuckBusy.trans h.stuckBusy,
    Nat.le_trans h'.busyReads h.busyReads⟩

theorem Alike.undisturbed (h : c.Alike c') : c.Undisturbed c' := by
  obtain ⟨_, _, _, rfl, -⟩ := h
  exact ⟨rfl, rfl, rfl, rfl, Nat.le_refl _⟩

/-- What was idle stays idle. -/
theorem Undisturbed.idle (h : c.Undisturbed c') (idle : c.isBusy = false) : c'.isBusy = false := by
  have busyReads := h.busyReads
  simp only [isBusy, Bool.or_eq_false_iff, decide_eq_false_iff_not] at idle ⊢
  exact ⟨h.stuckBusy.trans idle.1, by omega⟩

theorem undisturbed_runCommand (c : Chip) (h : ∀ o, Opcode.ofByte? opcode = some o → o.Passive) :
    c.Undisturbed (c.runCommand opcode) := by
  unfold runCommand
  split
  · split <;> exact ⟨rfl, rfl, rfl, rfl, Nat.le_refl _⟩
  · split
    · exact .refl c
    · split
      · exact ⟨rfl, rfl, rfl, rfl, Nat.le_refl _⟩
      · exact ⟨rfl, rfl, rfl, rfl, Nat.le_refl _⟩
      · next spelt => exact (h _ spelt).elim
      · exact ⟨rfl, rfl, rfl, rfl, Nat.le_refl _⟩
      · exact .refl c

theorem undisturbed_runReceive (c : Chip) (opcode : UInt8) (length : Nat) :
    c.Undisturbed (c.runReceive opcode length).2 := by
  unfold runReceive
  split
  · exact ⟨rfl, rfl, rfl, rfl, Nat.sub_le _ _⟩
  · split
    · split <;> exact .refl c
    · exact .refl c

/-- A request whose opcode is passive disturbs nothing, whatever else it says. -/
theorem undisturbed_execute (h : ∀ o, Opcode.ofByte? r.opcode = some o → o.Passive) :
    c.Undisturbed (c.execute r).2 := by
  obtain ⟨opcode, _ | address, _ | data | length⟩ := r
  · exact c.undisturbed_runCommand h
  · have other : Opcode.ofByte? opcode ≠ some .writeStatus := fun spelt => h _ spelt
    simp only [execute, other, if_false]
    exact .refl c
  · exact c.undisturbed_runReceive opcode length
  · have none : unitOf? opcode = none := by
      unfold unitOf?
      split <;> first | rfl | next spelt => exact (h _ spelt).elim
    simp only [execute, runErase, none, ite_self]
    exact .refl c
  · have refused : c.canProgram opcode = false := by
      unfold canProgram
      split <;> first | rfl | next spelt => exact (h _ spelt).elim
    simp only [execute, runProgram, refused, Bool.and_false, if_neg Bool.false_ne_true]
    exact .refl c
  · simp only [execute, runRead]
    split <;> exact ⟨rfl, rfl, rfl, rfl, Nat.le_refl _⟩

theorem Heard.undisturbed {o : Opcode} (h : c.Heard o.byte c') (passive : o.Passive) :
    c.Undisturbed c' := by
  rcases h with unread | ⟨r, spelt, read⟩
  · exact unread.undisturbed
  · refine (undisturbed_execute fun p found => ?_).trans read.undisturbed
    rw [spelt, Opcode.ofByte?_byte] at found
    cases found
    exact passive

theorem Heard.protectBits (h : c.Heard opcode c') (other : opcode ≠ Opcode.writeStatus.byte) :
    c'.protectBits = c.protectBits := by
  rcases h with unread | ⟨r, rfl, read⟩
  · exact unread.undisturbed.protectBits
  · exact read.undisturbed.protectBits.trans (statusBits_execute other).1

end Chip

namespace Instruction

/-- Neither programs nor erases, and writes no status. -/
def Passive : Instruction → Prop
  | writeStatus _ _ | programPage _ _ | eraseSector _ _ | eraseChip => False
  | _ => True

/-- Writes no status, and leaves the chip awake or asleep as it is. -/
def Plain : Instruction → Prop
  | writeStatus _ _ | powerDown | releasePowerDown => False
  | _ => True

/-- Only looks at the chip. -/
def Looks : Instruction → Prop
  | readStatus1 | readStatus2 | readId | readUniqueId | readArray _ _ => True
  | _ => False

variable {i : Instruction}

theorem Looks.passive (h : i.Looks) : i.Passive := by
  cases i <;> trivial

theorem Looks.plain (h : i.Looks) : i.Plain := by
  cases i <;> trivial

theorem Plain.keepsPower (h : i.Plain) : i.KeepsPower := by
  cases i <;> trivial

theorem Passive.opcode (h : i.Passive) (l : Link) : (i.opcode l).Passive := by
  cases i with
  | readArray address length => rcases l with _ | _ | ⟨_ | _ | _⟩ <;> trivial
  | writeStatus | programPage | eraseSector | eraseChip => exact False.elim h
  | _ => trivial

end Instruction

namespace Bench

variable {i : Instruction}

theorem undisturbed_send (b : Bench) (passive : i.Passive) :
    b.chip.Undisturbed (b.send i).2.chip := by
  have heard := b.chip.heard_exchange b.link (b.link.request i)
  rw [Link.opcode_request] at heard
  exact heard.undisturbed (passive.opcode b.link)

theorem protectBits_send (b : Bench) (plain : i.Plain) :
    (b.send i).2.chip.protectBits = b.chip.protectBits := by
  refine (b.chip.heard_exchange b.link (b.link.request i)).protectBits fun same => ?_
  rw [Link.opcode_request] at same
  obtain ⟨first, second, rfl⟩ := Link.eq_writeStatus_of_opcode (Opcode.byte_injective same)
  exact plain

end Bench

end SerialFlash
