import SerialFlash.History

/-!
What becomes of the instructions that a driver sends. A sending is an instruction together with
the bench that it goes out on, so that the chip can be spoken of at every point of an operation
and not only between two. A chip that takes an instruction answers it and carries it out in one
way. The status registers and the identity may be asked for at any time, and so may the chip be
woken up, so these have no answer of their own here.
-/

namespace SerialFlash

/-- The instructions that a script sends on a bench. -/
def Script.sendings {α : Type} : Script α → Bench → List (Bench × Instruction)
  | done _, _ => []
  | send i next, b => (b, i) :: (next (b.send i).1).sendings (b.send i).2
  | pause us next, b => next.sendings (b.wait (us * 1000))

/-- The sendings are what the exchanges come from. -/
theorem Script.exchanges_eq {α : Type} (s : Script α) (b : Bench) :
    s.exchanges b = (s.sendings b).map fun v =>
      .exchanged (v.1.link.request v.2) (v.1.send v.2).1 := by
  induction s generalizing b with
  | done value => rfl
  | send i next ih =>
    rw [exchanges, sendings, List.map_cons, ih]
  | pause us next ih => exact ih _

namespace Session

variable {s : Session} {request : Request} {reply : Reply}

/-- What an operation of the disk sends. -/
def diskSendings (s : Session) (operation : DiskOperation) : List (Bench × Instruction) :=
  match s.device.disk? with
  | some d => (operation.run.run d).sendings s.bench
  | none => []

/-- What an action makes the driver send. -/
def sendings (s : Session) : Action → List (Bench × Instruction)
  | .flash operation =>
      match s.device.driver? with
      | some driver => (operation.run.script driver).sendings s.bench
      | none => []
  | .disk operation => s.diskSendings operation
  | .join first second =>
      s.diskSendings first ++ (s.step (.disk first)).2.diskSendings second
  | _ => []

theorem mem_diskEvents_iff {operation : DiskOperation} :
    .exchanged request reply ∈ s.diskEvents operation ↔
      ∃ v ∈ s.diskSendings operation,
        v.1.link.request v.2 = request ∧ (v.1.send v.2).1 = reply := by
  unfold diskEvents diskSendings
  cases s.device.disk? with
  | none => simp
  | some d => simp [Script.exchanges_eq, Event.ofDisk]

/-- What the driver says in the course of an action is what it sends, with the replies. -/
theorem mem_events_iff {a : Action} :
    .exchanged request reply ∈ s.events a ↔
      ∃ v ∈ s.sendings a, v.1.link.request v.2 = request ∧ (v.1.send v.2).1 = reply := by
  cases a with
  | flash operation =>
    unfold events sendings
    cases s.device.driver? with
    | none => simp
    | some driver =>
      have mark : Event.exchanged request reply ≠
          .ofResult ((operation.run.script driver).run s.bench).1.1 := by
        cases ((operation.run.script driver).run s.bench).1.1 <;> nofun
      simp [Script.exchanges_eq, mark]
  | disk operation => exact mem_diskEvents_iff
  | join first second =>
    simp only [events, sendings, List.mem_append, mem_diskEvents_iff, or_and_right, exists_or]
  | _ => simp [events, sendings]

end Session

/-- Answer and effect of an instruction on a chip that takes it. -/
def Chip.carryOut? (c : Chip) : Instruction → Option (Bytes × Chip)
  | .writeEnable => some ([], { c with writeEnabled := true })
  | .programPage address data =>
      some ([],
        { c with
          memory := c.memory.program address data
          programs := c.programs + 1
          writeEnabled := false
          busyReads := c.programBusy })
  | .eraseSector unit address => some ([], c.eraseUnit unit.size address)
  | .eraseChip => some ([], c.eraseUnit c.memory.size 0)
  | .writeStatus first second =>
      let written :=
        if c.statusLocked then c
        else
          { c with
            protectBits := first &&& Status1.blockProtect
            quadEnabled := second &&& Status2.quadEnable != 0 }
      some ([], { written with writeEnabled := false, busyReads := c.programBusy })
  | .powerDown => some ([], { c with poweredDown := true })
  | .readUniqueId => some ([0, 0, 0, 0] ++ bigEndian 8 c.uniqueId.toNat, c)
  | .readArray address length =>
      some (c.memory.read address length, { c with reads := c.reads + 1 })
  | .readStatus1 | .readStatus2 | .readId | .releasePowerDown => none

end SerialFlash
