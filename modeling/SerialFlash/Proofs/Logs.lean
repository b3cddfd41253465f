import SerialFlash.History
import SerialFlash.Proofs.Initialised

/-!
A history is what the chip logs. Every instruction of a driver reaches the chip as a request with
its opcode, over any link and whatever its address and data, also if an armed fault keeps the chip
from carrying it out; on a multi-line link the chip notes the whole frame. So the opcodes of a
history, in their order, are those that the chip has logged in the meantime, and so are the frames,
as long as nobody goes past the driver.

Both logs are treated as one: a log has an entry for some requests, every instruction adds the
entry of its request, and nothing else touches it.
-/

namespace SerialFlash

/-- What a log notes of an event. -/
def Event.entry? {β : Type} (entry : Request → Option β) : Event → Option β
  | exchanged request _ => entry request
  | returned _ => none

theorem Event.opcode?_eq : opcode? = entry? fun request => some request.opcode := by
  funext e
  cases e <;> rfl

/-- The frame in which a request goes out, on a link that has frames. -/
def Link.frame? (l : Link) (r : Request) : Option Frame :=
  match l with
  | wide config => some (config.frame r)
  | _ => none

namespace Chip

/-- Every instruction adds the entry of its request to the log, and no setting touches it. -/
structure Logs {β : Type} (log : Chip → List β) (entry : Link → Request → Option β) : Prop where
  send : ∀ (b : Bench) (i : Instruction),
    log (b.send i).2.chip = log b.chip ++ (entry b.link (b.link.request i)).toList
  configure : ∀ (c : Chip) (setting : Setting), log (c.configure setting) = log c

/-- What no request changes when it is executed is changed by a frame only as it starts. -/
theorem performFrame_kept {β : Type} {part : Chip → β}
    (kept : ∀ (c : Chip) r, part (c.execute r).2 = part c) (c : Chip) (f : Frame)
    (phase : DataPhase) :
    part (c.performFrame f phase).2 =
      part (({ c with frameLog := c.frameLog.push f }).start f.opcode).2 := by
  rcases started : ({ c with frameLog := c.frameLog.push f } : Chip).start f.opcode with ⟨_ | _, c'⟩
  · simp only [performFrame, started]
    split
    · exact kept _ _
    · rfl
  · simp only [performFrame, started]

/-! ### Opcodes -/

theorem opcodeLog_spiFrom_write (c : Chip) {sent : Bytes} {r : Request}
    (spelt : writtenRequest? sent = some r) :
    (c.spiFrom sent [] []).2.opcodeLog = c.opcodeLog.push r.opcode := by
  have performed := c.opcodeLog_perform r
  simp only [spiFrom, List.isEmpty_nil, if_true, spelt]
  split <;> next run => rwa [run] at performed

theorem opcodeLog_spiFrom_read (c : Chip) {sent : Bytes} {length : Nat} {r : Request}
    (spelt : answeredRequest? length sent = some r) :
    (c.spiFrom sent [] [.read length]).2.opcodeLog = c.opcodeLog.push r.opcode := by
  have performed := c.opcodeLog_perform r
  simp only [spiFrom, spelt]
  split <;> next run => rwa [run] at performed

/-- The request that the chip makes of the bytes of another one. -/
def spelt? (r : Request) : Option Request :=
  match r.phase with
  | .none => writtenRequest? r.header
  | .send data => writtenRequest? (r.header ++ data)
  | .receive length => answeredRequest? length r.header

theorem opcodeLog_performSpi (c : Chip) {r r' : Request} (spelt : spelt? r = some r')
    (same : r'.opcode = r.opcode) :
    (c.performSpi r.toSpi).2.opcodeLog = c.opcodeLog.push r.opcode := by
  rw [← same]
  obtain ⟨opcode, address, _ | data | length⟩ := r
  · exact c.opcodeLog_spiFrom_write spelt
  · exact c.opcodeLog_spiFrom_write spelt
  · exact c.opcodeLog_spiFrom_read spelt

/-- On one line the chip makes a request of every instruction, if perhaps not the one that was
meant. -/
theorem spelt_request (i : Instruction) :
    ∃ r, spelt? (Link.spi.request i) = some r ∧ r.opcode = (Link.spi.request i).opcode := by
  cases i with
  | programPage address data => cases data <;> exact ⟨_, rfl, rfl⟩
  | eraseSector unit address => cases unit <;> exact ⟨_, rfl, rfl⟩
  | _ => exact ⟨_, rfl, rfl⟩

theorem opcodeLog_performFrame (c : Chip) (f : Frame) (phase : DataPhase) :
    (c.performFrame f phase).2.opcodeLog = c.opcodeLog.push f.opcode := by
  rw [c.performFrame_kept opcodeLog_execute]
  rfl

/-- The chip logs the opcode of every instruction, whether it hears it or not. -/
theorem logs_opcodes : Logs (fun c => c.opcodeLog.toList) fun _ r => some r.opcode where
  send b i := by
    rw [Option.toList_some, ← Array.toList_push]
    congr 1
    obtain ⟨link, c, clock, traffic⟩ := b
    show (link.exchange c (link.request i)).2.opcodeLog = c.opcodeLog.push (link.request i).opcode
    cases link with
    | direct => exact c.opcodeLog_perform _
    | wide config =>
      exact (c.opcodeLog_performFrame _ _).trans (by rw [LineConfig.frame_opcode])
    | spi =>
      obtain ⟨r, spelt, same⟩ := Chip.spelt_request i
      exact c.opcodeLog_performSpi spelt same
  configure c setting := by cases setting <;> rfl

/-! ### Frames -/

theorem frameLog_execute (c : Chip) (r : Request) : (c.execute r).2.frameLog = c.frameLog := by
  have h := c.execute_withBooks c.faults c.opcodeLog c.frameLog r
  exact congrArg (fun p => p.2.frameLog) h

theorem frameLog_perform (c : Chip) (r : Request) : (c.perform r).2.frameLog = c.frameLog := by
  rw [perform_eq]
  split
  · rfl
  · exact (c.start r.opcode).2.frameLog_execute r

theorem frameLog_spiFrom (c : Chip) (sent : Bytes) (answers : List Bytes)
    (operations : List SpiOperation) :
    (c.spiFrom sent answers operations).2.frameLog = c.frameLog := by
  induction operations generalizing c sent answers with
  | nil =>
    simp only [spiFrom]
    split
    · split
      · next r _ =>
        have performed := c.frameLog_perform r
        split <;> next run => rwa [run] at performed
      · rfl
    · rfl
  | cons operation rest ih =>
    cases operation with
    | read length =>
      simp only [spiFrom]
      split
      · next r _ =>
        have performed := c.frameLog_perform r
        split
        · next run =>
          rw [run] at performed
          exact (ih _ _ _).trans performed
        · next run => rwa [run] at performed
      · rfl
    | write data => exact ih _ _ _
    | delay nanoseconds => exact ih _ _ _
    | transfer length data | transferInPlace data => rfl

theorem frameLog_performFrame (c : Chip) (f : Frame) (phase : DataPhase) :
    (c.performFrame f phase).2.frameLog = c.frameLog.push f := by
  rw [c.performFrame_kept frameLog_execute]
  rfl

/-- The chip logs the frame of every instruction that comes in one. -/
theorem logs_frames : Logs (fun c => c.frameLog.toList) Link.frame? where
  send b i := by
    obtain ⟨link, c, clock, traffic⟩ := b
    show (link.exchange c (link.request i)).2.frameLog.toList =
      c.frameLog.toList ++ (link.frame? (link.request i)).toList
    cases link with
    | direct =>
      exact (congrArg Array.toList (c.frameLog_perform _)).trans (List.append_nil _).symm
    | spi =>
      exact (congrArg Array.toList (c.frameLog_spiFrom [] [] _)).trans (List.append_nil _).symm
    | wide config =>
      rw [Link.frame?, Option.toList_some, ← Array.toList_push]
      exact congrArg Array.toList (c.frameLog_performFrame _ _)
  configure c setting := by cases setting <;> rfl

end Chip

/-! ### Runs -/

section
variable {β : Type} {log : Chip → List β} {entry : Link → Request → Option β}
  (logs : Chip.Logs log entry)

include logs

/-- The chip logs the exchanges of a script. -/
theorem Script.logs_run {α : Type} (s : Script α) (b : Bench) :
    log (s.run b).2.chip =
      log b.chip ++ (s.exchanges b).filterMap (Event.entry? (entry b.link)) := by
  induction s generalizing b with
  | done value => simp [exchanges]
  | send i next ih =>
    have noted : Event.entry? (entry b.link) (.exchanged (b.link.request i) (b.send i).1) =
        entry b.link (b.link.request i) := rfl
    rw [run_send, ih, logs.send b i, b.link_send, exchanges, List.filterMap_cons, noted,
      List.append_assoc]
    cases entry b.link (b.link.request i) <;> rfl
  | pause us next ih => exact ih (b.wait _)

namespace Session

variable {s : Session} {a : Action} {allowed : Setting → Prop}

theorem logs_disk (s : Session) (operation : DiskOperation) :
    log (s.step (.disk operation)).2.bench.chip = log s.bench.chip ++
      (s.diskEvents operation).filterMap (Event.entry? (entry s.bench.link)) := by
  cases found : s.device.disk? with
  | none => simp [Session.step, Session.onDisk, diskEvents, found]
  | some d =>
    have logged := Script.logs_run logs (operation.run.run d) s.bench
    simp only [Session.step, Session.onDisk, diskEvents, found, List.filterMap_append, logged]
    simp [Event.ofDisk, Event.entry?]

/-- The chip logs what an action makes the driver say. -/
theorem logs_step (through : a.Through allowed) :
    log (s.step a).2.bench.chip = log s.bench.chip ++
      (s.events a).filterMap (Event.entry? (entry s.bench.link)) := by
  cases a with
  | flash operation =>
    cases found : s.device.driver? with
    | none => simp [Session.step, events, found]
    | some d =>
      have logged := Script.logs_run logs (operation.run.script d) s.bench
      simp only [step_flash_eq found, events, found, List.filterMap_append, logged]
      cases ((operation.run.script d).run s.bench).1.1 <;> simp [Event.ofResult, Event.entry?]
  | disk operation => exact logs_disk logs s operation
  | join first second =>
    have link : (s.step (.disk first)).2.bench.link = s.bench.link :=
      link_step (by rintro _ _ ⟨⟩)
    rw [step_join, logs_disk logs, logs_disk logs, link, events, List.filterMap_append,
      List.append_assoc]
  | configure setting =>
    rw [chip_step_configure, logs.configure]
    simp [events]
  | intoDisk format =>
    simp only [Session.step, events, List.filterMap_nil, List.append_nil]
    split
    · split <;> rfl
    · rfl
    · rfl
  | wait | share | unwrap | rebuild => simp [Session.step, events, Bench.wait]
  | request | frame | spi => exact through.elim

end Session

end

/-- The chip logs the opcodes of the history of a session. -/
theorem Session.opcodeLog_run {allowed : Setting → Prop} {s : Session} {actions : List Action}
    (through : ∀ a ∈ actions, a.Through allowed) :
    (s.run actions).bench.chip.opcodeLog.toList =
      s.bench.chip.opcodeLog.toList ++ (s.history actions).filterMap Event.opcode? := by
  induction actions generalizing s with
  | nil => simp [Session.run, history]
  | cons a actions ih =>
    have first := logs_step Chip.logs_opcodes (s := s) (through a List.mem_cons_self)
    have rest := ih (s := (s.step a).2) fun a mem => through a (List.mem_cons_of_mem _ mem)
    rw [first, ← Event.opcode?_eq, List.append_assoc, ← List.filterMap_append] at rest
    exact rest

end SerialFlash
