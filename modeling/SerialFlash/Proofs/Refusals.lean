import SerialFlash.Proofs.Exactness
import SerialFlash.Proofs.Links
import SerialFlash.Proofs.NorArray
import SerialFlash.Proofs.StatusBits
import SerialFlash.Proofs.Traces
import SerialFlash.Timeline

/-!
What a disk refuses. Three guards stand before everything that it does: the flash has to be ready,
the sectors have to be there, and for a change of them no block-protect bit may be set. They are
asked in this order, and what they refuse leaves everything as it was: nothing is sent before the
third one, and that one only reads the status. Behind the guards an operation fails in the flash, if
at all.
-/

namespace SerialFlash

open Procedure

/-! ### The guards -/

namespace Disk

/-- A transfer of so many bytes from a sector on is a whole number of sectors, all of them on the
disk. -/
def Covers (d : Disk) (start length : Nat) : Prop :=
  d.sectorSize ∣ length ∧ start + length / d.sectorSize ≤ d.sectorCount

instance (d : Disk) (start length : Nat) : Decidable (d.Covers start length) :=
  inferInstanceAs (Decidable (_ ∧ _))

end Disk

namespace DiskOperation

/-- Needs a disk that is ready. -/
def Guarded : DiskOperation → Prop
  | read _ _ | write _ _ | control _ => True
  | status | startUp | geometry => False

/-- Asks for sectors that are not all there. -/
def Misplaced (d : Disk) : DiskOperation → Prop
  | read start length => ¬ d.Covers start length
  | write start data => ¬ d.Covers start data.length
  | control (.trim start stop) => stop < start ∨ d.sectorCount < stop
  | _ => False

/-- Is meant to change sectors. -/
def Changes : DiskOperation → Prop
  | write _ _ | control (.trim _ _) => True
  | _ => False

end DiskOperation

/-- What the answer to a status read says of the protection. -/
def protectionAnswer : Reply → Except (DriverError BusError) Bool
  | .ok reply => .ok ((StatusRegister.ofReply reply).protection != 0)
  | .error e => .error (.bus e)

/-- What is allowed by the answer to a status read. -/
def writableAnswer : Reply → Except DiskError Unit
  | .ok reply =>
      if (StatusRegister.ofReply reply).protection = 0 then .ok () else .error .writeProtected
  | .error _ => .error (.failed 0)

/-- The flags that the answer to a status read stands for. -/
def statusFlags : Reply → DriveFlags
  | .ok reply =>
      if (StatusRegister.ofReply reply).protection = 0 then .ready else .writeProtected
  | .error _ => .notInitialised

namespace DiskOutcome

/-- The error in an outcome. -/
def error? : DiskOutcome → Option DiskError
  | read (.error e) | write (.error e) | control (.error e) => some e
  | _ => none

/-- Fails in the flash, if at all. -/
def BreaksOff (outcome : DiskOutcome) : Prop :=
  ∀ e, outcome.error? = some e → ∃ completed, e = .failed completed

theorem BreaksOff.not_refused {outcome : DiskOutcome} (h : outcome.BreaksOff) :
    outcome.error? ≠ some .notReady ∧ outcome.error? ≠ some .invalidParameter ∧
      outcome.error? ≠ some .writeProtected := by
  refine ⟨fun failed => ?_, fun failed => ?_, fun failed => ?_⟩ <;>
  · obtain ⟨_, same⟩ := h _ failed
    nomatch same

end DiskOutcome

/-! ### Scripts -/

theorem Driver.script_isProtected (d : Driver) :
    isProtected.script d = .send .readStatus1 fun reply => .done (protectionAnswer reply, d) := by
  simp only [isProtected, readStatus1, script_bind, script_ask, Script.send_bind, Script.done_bind]
  congr 1
  funext reply
  cases reply <;> rfl

namespace Disk

variable {α : Type} {d : Disk}

section

variable (suits : d.flash.layout.Suits d.flash.options.eraseUnit)

include suits

theorem sectorCount_lt_limit : d.sectorCount < Word32.limit :=
  Nat.lt_of_le_of_lt (Nat.div_le_self _ _) suits.size_lt_limit

/-- No sum leaves the words on a disk of this size. -/
theorem span?_eq_ite (start length : Nat) :
    d.span? start length =
      if d.Covers start length then some (length / d.sectorSize) else none := by
  have bound := sectorCount_lt_limit suits
  simp only [span?, Word32.add?, Covers, Nat.dvd_iff_mod_eq_zero]
  grind

/-- Behind the guards a read fails in the flash, if at all. -/
theorem readFrom_breaksOff {completed count sector : Nat}
    (inside : sector + count ≤ d.sectorCount) :
    (readFrom completed count sector).Always Instruction.Looks d (fun _ _ => True)
      fun e _ => ∃ completed, e = .failed completed := by
  induction count generalizing completed sector with
  | zero => trivial
  | succ count ih =>
    have word : sector * d.sectorSize < Word32.limit :=
      Nat.lt_of_le_of_lt (mul_sectorSize_le (by omega)) suits.size_lt_limit
    simp only [readFrom, always_bind, always_get, offsetOf?, Word32.mul?, word, if_true]
    refine always_onFlash (Driver.settles_read _ _) (fun bytes => ?_)
      fun e d' _ => ⟨completed, rfl⟩
    simp only [always_bind, always_pure]
    exact ih (by omega)

end

theorem writeFrom_breaksOff (completed count sector : Nat) (data : Bytes) :
    (writeFrom completed count sector data).Always Instruction.Plain d (fun _ _ => True)
      fun e _ => ∃ completed, e = .failed completed := by
  induction count generalizing completed sector data with
  | zero => trivial
  | succ count ih =>
    simp only [writeFrom, always_bind, always_get]
    exact always_onFlash (Driver.settles_replaceSector _ _ _) (fun _ => ih _ _ _)
      fun e d' _ => ⟨completed, rfl⟩

theorem trimFrom_breaksOff (completed count sector : Nat) :
    (trimFrom completed count sector).Always Instruction.Plain d (fun _ _ => True)
      fun e _ => ∃ completed, e = .failed completed := by
  induction count generalizing completed sector with
  | zero => trivial
  | succ count ih =>
    simp only [trimFrom, always_bind, always_get]
    exact always_onFlash (Driver.settles_eraseUnder _ _ _) (fun _ => ih _ _)
      fun e d' _ => ⟨completed, rfl⟩

theorem script_guardReady_bind (f : Unit → DiskM α) :
    (guardReady >>= f).script d =
      if d.flash.state = .ready then (f ()).script d else .done (.error .notReady, d) := by
  by_cases ready : d.flash.state = .ready <;> simp [guardReady, ready]

theorem script_guardSpan_bind (suits : d.flash.layout.Suits d.flash.options.eraseUnit)
    {start length : Nat} (f : Nat → DiskM α) :
    (guardSpan start length >>= f).script d =
      if d.Covers start length then (f (length / d.sectorSize)).script d
      else .done (.error .invalidParameter, d) := by
  by_cases covers : d.Covers start length <;> simp [guardSpan, span?_eq_ite suits, covers]

/-- The third guard reads the status once, and goes by the answer. -/
theorem script_guardWritable_bind (f : Unit → DiskM α) :
    (guardWritable >>= f).script d =
      .send .readStatus1 fun reply => follow f (writableAnswer reply, d) := by
  simp only [guardWritable, script_bind, script_onFlash, Driver.script_isProtected,
    Script.send_bind, Script.done_bind]
  congr 1
  funext reply
  cases reply with
  | error e => rfl
  | ok reply =>
    by_cases clear : (StatusRegister.ofReply reply).protection = 0
    · simp [protectionAnswer, writableAnswer, clear]
    · simp only [protectionAnswer, writableAnswer, bne_iff_ne.mpr clear, if_neg clear,
        Script.done_bind, follow_ok, script_throw]

theorem script_trim_bind {start stop : Nat} (f : Unit → DiskM α) :
    (trim start stop >>= f).script d =
      if stop < start ∨ d.sectorCount < stop then .done (.error .invalidParameter, d)
      else (do guardWritable; trimFrom 0 (stop - start) start >>= f).script d := by
  rw [← bind_assoc, script_bind _ f, trim, script_bind get, script_get, Script.done_bind, follow_ok]
  split
  · rfl
  · exact (script_bind _ f d).symm.trans (by rw [bind_assoc])

/-- The status reads the register of a flash that is ready, and goes by the answer. -/
theorem run_status (d : Disk) :
    status.run d =
      if d.flash.state = .ready then
        .send .readStatus1 fun reply => .done (statusFlags reply, d)
      else .done (.notInitialised, d) := by
  have asked : (onFlash Driver.isProtected).run d =
      .send .readStatus1 fun reply => .done (protectionAnswer reply, d) := by
    show (Driver.isProtected.script d.flash).bind _ = _
    rw [Driver.script_isProtected]
    rfl
  rw [status, StateT.run_bind, StateT.run_get, Script.pure_eq, Script.bind_eq, Script.done_bind]
  by_cases ready : d.flash.state = .ready
  · rw [if_pos ready, if_pos ready, StateT.run_bind, asked, Script.bind_eq, Script.send_bind]
    congr 1
    funext reply
    cases reply with
    | error e => rfl
    | ok reply =>
      by_cases clear : (StatusRegister.ofReply reply).protection = 0
      · simp [protectionAnswer, statusFlags, clear]
      · simp only [protectionAnswer, statusFlags, bne_iff_ne.mpr clear, if_neg clear]
        rfl
  · rw [if_neg ready, if_neg ready]
    rfl

end Disk

/-! ### What the guards make of an operation -/

namespace DiskOperation

variable {d : Disk} {operation : DiskOperation}

/-- How an operation of the disk goes, whatever the replies: the guards refuse it, or it is sent on
its way. -/
inductive Guards (d : Disk) (operation : DiskOperation) : Script (DiskOutcome × Disk) → Prop
  | unready {outcome} (guarded : operation.Guarded) (unready : d.flash.state ≠ .ready)
      (error : outcome.error? = some .notReady) : Guards d operation (.done (outcome, d))
  | misplaced {outcome} (ready : d.flash.state = .ready) (misplaced : operation.Misplaced d)
      (error : outcome.error? = some .invalidParameter) : Guards d operation (.done (outcome, d))
  /-- A change goes by the answer to the status read. -/
  | check {next} (ready : d.flash.state = .ready) (placed : ¬ operation.Misplaced d)
      (changes : operation.Changes)
      (refuses : ∀ reply e, writableAnswer reply = .error e →
        ∃ outcome : DiskOutcome, next reply = .done (outcome, d) ∧ outcome.error? = some e)
      (admits : ∀ reply, writableAnswer reply = .ok () →
        (next reply).Always Instruction.Plain fun p => p.1.BreaksOff) :
      Guards d operation (.send .readStatus1 next)
  | pass {script} (ready : operation.Guarded → d.flash.state = .ready)
      (placed : ¬ operation.Misplaced d) (harmless : ¬ operation.Changes)
      (ends : script.Always Instruction.Looks fun p => p.1.BreaksOff) : Guards d operation script

theorem run_wrap {α : Type} (wrap : Except DiskError α → DiskOutcome) (op : DiskM α) (d : Disk) :
    (wrap <$> ExceptT.run op : StateT Disk Script DiskOutcome).run d =
      (op.script d).bind fun p => .done (wrap p.1, p.2) := rfl

/-- What breaks off in the flash does so when its outcome is wrapped up. -/
theorem always_wrap {α : Type} {P : Instruction → Prop} {op : DiskM α}
    {wrap : Except DiskError α → DiskOutcome}
    (ends : op.Always P d (fun _ _ => True) fun e _ => ∃ n, e = .failed n)
    (ok : ∀ a, (wrap (.ok a)).error? = none) (error : ∀ e, (wrap (.error e)).error? = some e) :
    ((op.script d).bind fun p => .done (wrap p.1, p.2)).Always P fun p => p.1.BreaksOff := by
  refine (Script.always_bind _ _).mpr (Script.Always.mono ends (fun _ => id) ?_)
  rintro ⟨e | a, d'⟩ ended e' failed
  · cases (error e).symm.trans failed
    exact ended
  · nomatch (ok a).symm.trans failed

/-- A change that the first two guards let pass. -/
theorem guards_check {α : Type} {op : DiskM α} {f : Unit → DiskM α}
    {wrap : Except DiskError α → DiskOutcome} (ready : d.flash.state = .ready)
    (placed : ¬ operation.Misplaced d) (changes : operation.Changes)
    (sends : op.script d = (do Disk.guardWritable; f ()).script d)
    (ends : (f ()).Always Instruction.Plain d (fun _ _ => True) fun e _ => ∃ n, e = .failed n)
    (ok : ∀ a, (wrap (.ok a)).error? = none) (error : ∀ e, (wrap (.error e)).error? = some e) :
    Guards d operation ((op.script d).bind fun p => .done (wrap p.1, p.2)) := by
  rw [sends, Disk.script_guardWritable_bind, Script.send_bind]
  refine .check ready placed changes (fun reply e refused => ?_) fun reply admitted => ?_
  · refine ⟨wrap (.error e), ?_, error e⟩
    rw [refused]
    rfl
  · rw [admitted]
    exact always_wrap ends ok error

/-- An operation behind the first guard. -/
theorem guards_of_ready {α : Type} {op : DiskM α} {wrap : Except DiskError α → DiskOutcome}
    (guarded : operation.Guarded)
    (behind : operation.run = (wrap <$> ExceptT.run (do Disk.guardReady; op)))
    (error : ∀ e, (wrap (.error e)).error? = some e)
    (rest : d.flash.state = .ready →
      Guards d operation ((op.script d).bind fun p => .done (wrap p.1, p.2))) :
    Guards d operation (operation.run.run d) := by
  rw [behind, run_wrap, Disk.script_guardReady_bind]
  by_cases ready : d.flash.state = .ready
  · rw [if_pos ready]
    exact rest ready
  · rw [if_neg ready]
    exact .unready guarded ready (error _)

section

variable (suits : d.flash.layout.Suits d.flash.options.eraseUnit)

include suits

theorem guards_read (start length : Nat) :
    Guards d (.read start length) ((read start length).run.run d) := by
  refine guards_of_ready trivial rfl (fun _ => rfl) fun ready => ?_
  rw [Disk.script_guardSpan_bind suits]
  by_cases covers : d.Covers start length
  · rw [if_pos covers]
    refine .pass (fun _ => ready) (not_not_intro covers) id
      (always_wrap ?_ (fun _ => rfl) fun _ => rfl)
    exact (always_bind _ _).mpr (Disk.readFrom_breaksOff suits covers.2)
  · rw [if_neg covers]
    exact .misplaced ready covers rfl

theorem guards_write (start : Nat) (data : Bytes) :
    Guards d (.write start data) ((write start data).run.run d) := by
  refine guards_of_ready trivial rfl (fun _ => rfl) fun ready => ?_
  rw [Disk.script_guardSpan_bind suits]
  by_cases covers : d.Covers start data.length
  · rw [if_pos covers]
    refine guards_check (f := fun _ => do
      Disk.writeFrom 0 (data.length / d.sectorSize) start data
      return data.length / d.sectorSize) ready (not_not_intro covers) trivial rfl ?_
      (fun _ => rfl) fun _ => rfl
    exact (always_bind _ _).mpr (Disk.writeFrom_breaksOff _ _ _ _)
  · rw [if_neg covers]
    exact .misplaced ready covers rfl

end

theorem guards_control (command : DiskCommand) :
    Guards d (.control command) ((control command).run.run d) := by
  refine guards_of_ready trivial rfl (fun _ => rfl) fun ready => ?_
  cases command with
  | sync | sectorCount | sectorSize | blockSize => exact .pass (fun _ => ready) id id nofun
  | trim start stop =>
    show Guards d _ (((Disk.trim start stop >>= fun _ => pure DiskAnswer.done).script d).bind _)
    rw [Disk.script_trim_bind]
    by_cases misplaced : stop < start ∨ d.sectorCount < stop
    · rw [if_pos misplaced]
      exact .misplaced ready misplaced rfl
    · rw [if_neg misplaced]
      refine guards_check (f := fun _ => do
        Disk.trimFrom 0 (stop - start) start
        return DiskAnswer.done) ready misplaced trivial rfl ?_ (fun _ => rfl) fun _ => rfl
      exact (always_bind _ _).mpr (Disk.trimFrom_breaksOff _ _ _)

/-- Every operation goes by the guards. -/
theorem guards (suits : d.flash.layout.Suits d.flash.options.eraseUnit)
    (operation : DiskOperation) : Guards d operation (operation.run.run d) := by
  cases operation with
  | geometry => exact .pass nofun id id nofun
  | status | startUp =>
    have looks := (Script.always_bind _ _).mp (Disk.always_status (d := d))
    exact .pass nofun id id ((Script.always_bind _ _).mpr
      (looks.mono (fun _ => id) fun _ _ => nofun))
  | read start length => exact guards_read suits start length
  | write start data => exact guards_write suits start data
  | control command => exact guards_control command

end DiskOperation

/-! ### The status read -/

theorem statusFlags_ok_eq_writeProtected_iff {reply : Bytes} :
    statusFlags (.ok reply) = .writeProtected ↔ (StatusRegister.ofReply reply).protection ≠ 0 := by
  rw [statusFlags]
  split
  · next clear => exact iff_of_false (by decide) fun set => set clear
  · next set => exact iff_of_true rfl set

theorem statusFlags_ok_ne (reply : Bytes) : statusFlags (.ok reply) ≠ .notInitialised := by
  rw [statusFlags]
  split <;> decide

theorem writableAnswer_eq_writeProtected_iff {reply : Reply} :
    writableAnswer reply = .error .writeProtected ↔
      ∃ bytes, reply = .ok bytes ∧ (StatusRegister.ofReply bytes).protection ≠ 0 := by
  cases reply with
  | error e => simp [writableAnswer]
  | ok bytes =>
    by_cases clear : (StatusRegister.ofReply bytes).protection = 0 <;>
      simp [writableAnswer, clear]

theorem writableAnswer_cases (reply : Reply) :
    writableAnswer reply = .ok () ∨ writableAnswer reply = .error .writeProtected ∨
      writableAnswer reply = .error (.failed 0) := by
  cases reply with
  | error e => exact .inr (.inr rfl)
  | ok bytes =>
    by_cases clear : (StatusRegister.ofReply bytes).protection = 0 <;>
      simp [writableAnswer, clear]

namespace Chip

/-- The chip holds and shows what it did, but for how long it is still busy. -/
structure Unharmed (c c' : Chip) : Prop where
  memory : c'.memory = c.memory
  writeEnabled : c'.writeEnabled = c.writeEnabled
  protectBits : c'.protectBits = c.protectBits
  quadEnabled : c'.quadEnabled = c.quadEnabled
  poweredDown : c'.poweredDown = c.poweredDown

theorem Alike.unharmed {c c' : Chip} (h : c.Alike c') : c.Unharmed c' := by
  obtain ⟨_, _, _, rfl, -⟩ := h
  exact ⟨rfl, rfl, rfl, rfl, rfl⟩

/-- Protection shows in the status register. -/
theorem protection_status1_ne_zero {c : Chip} (placed : c.Placed) (protects : c.protectBits ≠ 0) :
    (StatusRegister.mk c.status1).protection ≠ 0 := by
  have field : c.status1 &&& Status1.blockProtect = c.protectBits := by
    rw [← c.kept_status1 placed, UInt8.and_assoc]
    rfl
  -- the field starts at bit 2, so it is a multiple of four
  have whole : c.protectBits.toNat % 2 ^ 2 = 0 := by
    rw [← show c.protectBits &&& Status1.blockProtect = _ from placed, UInt8.toNat_and,
      Nat.and_mod_two_pow]
    exact Nat.and_zero _
  intro clear
  have shifted : c.protectBits.toNat >>> 2 = 0 := by
    rw [StatusRegister.protection, field] at clear
    exact congrArg UInt8.toNat clear
  rw [Nat.shiftRight_eq_div_pow] at shifted
  exact protects (UInt8.toNat_inj.mp (show _ = 0 by omega))

end Chip

namespace Bench

variable {b : Bench}

/-- A status read does no harm, whether it is heard or not. -/
theorem unharmed_readStatus1 (b : Bench) : b.chip.Unharmed (b.send .readStatus1).2.chip := by
  rcases b.send_cases (i := .readStatus1) trivial with ⟨-, -, alike⟩ | ⟨-, alike⟩
  · exact alike.unharmed
  · have same := alike.unharmed
    rw [Chip.obey_readStatus1] at same
    split at same
    · exact same
    · exact ⟨same.memory, same.writeEnabled, same.protectBits, same.quadEnabled,
        same.poweredDown⟩

/-- A protected chip does not show itself writable. One that sleeps shows ones. -/
theorem refused_of_protected (placed : b.chip.Placed) (protects : b.chip.protectBits ≠ 0) :
    ∃ e, writableAnswer (b.poll 0) = .error e := by
  rcases b.send_cases (i := .readStatus1) trivial with ⟨-, unheard, -⟩ | ⟨answer, -⟩
  · exact ⟨.failed 0, by rw [show b.poll 0 = _ from unheard]; rfl⟩
  · refine ⟨.writeProtected, writableAnswer_eq_writeProtected_iff.mpr ⟨_, answer, ?_⟩⟩
    rw [Chip.obey_readStatus1]
    split
    · exact (by decide : (StatusRegister.ofReply [0xFF]).protection ≠ 0)
    · exact Chip.protection_status1_ne_zero placed protects

end Bench

/-! ### Sessions -/

namespace Session

variable {s : Session} {d : Disk}

theorem step_disk_eq (found : s.device.disk? = some d) (operation : DiskOperation) :
    s.step (.disk operation) = (.disk ((operation.run.run d).run s.bench).1.1,
      ⟨s.compareBuffer, s.device.withDisk ((operation.run.run d).run s.bench).1.2,
        ((operation.run.run d).run s.bench).2⟩) := by
  simp only [step, onDisk, found]

theorem requestsSent_diskEvents (found : s.device.disk? = some d) (operation : DiskOperation) :
    requestsSent (s.diskEvents operation) =
      requestsSent ((operation.run.run d).exchanges s.bench) := by
  simp only [diskEvents, found, requestsSent_append]
  exact List.append_nil _

/-- What comes of an operation at the guards of the disk. -/
structure Refuses (s : Session) (d : Disk) (operation : DiskOperation) (outcome : DiskOutcome)
    (s' : Session) : Prop where
  notReady : outcome.error? = some .notReady ↔ operation.Guarded ∧ d.flash.state ≠ .ready
  invalidParameter : outcome.error? = some .invalidParameter ↔
    d.flash.state = .ready ∧ operation.Misplaced d
  writeProtected : outcome.error? = some .writeProtected ↔
    d.flash.state = .ready ∧ ¬ operation.Misplaced d ∧ operation.Changes ∧
      ∃ reply, s.bench.poll 0 = .ok reply ∧ (StatusRegister.ofReply reply).protection ≠ 0
  /-- The first two guards leave everything as it was, and send nothing. -/
  early : outcome.error? = some .notReady ∨ outcome.error? = some .invalidParameter →
    s' = s ∧ requestsSent (s.diskEvents operation) = []
  /-- The third one only reads the status. -/
  late : outcome.error? = some .writeProtected →
    requestsSent (s.diskEvents operation) = [s.bench.link.request .readStatus1] ∧
      s' = { s with bench := s.bench.polled 1 } ∧ s.bench.chip.Unharmed s'.bench.chip

theorem refuses_of_guards {script : Script (DiskOutcome × Disk)} {operation : DiskOperation}
    (found : s.device.disk? = some d) (guards : operation.Guards d script)
    (sent : requestsSent (s.diskEvents operation) = requestsSent (script.exchanges s.bench)) :
    s.Refuses d operation (script.run s.bench).1.1
      ⟨s.compareBuffer, s.device.withDisk (script.run s.bench).1.2, (script.run s.bench).2⟩ := by
  have same := Device.withDisk_self found
  cases guards with
  | @unready outcome guarded unready error =>
    exact ⟨by simp [error, guarded, unready], by simp [error, unready], by simp [error, unready],
      fun _ => ⟨by simp [same], sent⟩, by simp [error]⟩
  | @misplaced outcome ready misplaced error =>
    exact ⟨by simp [error, ready], by simp [error, ready, misplaced],
      by simp [error, misplaced], fun _ => ⟨by simp [same], sent⟩, by simp [error]⟩
  | @check next ready placed changes refuses admits =>
    have sent : requestsSent (s.diskEvents operation) = s.bench.link.request .readStatus1 ::
        requestsSent ((next (s.bench.poll 0)).exchanges (s.bench.polled 1)) := sent
    have shown : (d.flash.state = .ready ∧ ¬ operation.Misplaced d ∧ operation.Changes ∧
        ∃ reply, s.bench.poll 0 = .ok reply ∧ (StatusRegister.ofReply reply).protection ≠ 0) ↔
          writableAnswer (s.bench.poll 0) = .error .writeProtected :=
      ⟨fun h => writableAnswer_eq_writeProtected_iff.mpr h.2.2.2,
        fun h => ⟨ready, placed, changes, writableAnswer_eq_writeProtected_iff.mp h⟩⟩
    show s.Refuses d operation ((next (s.bench.poll 0)).run (s.bench.polled 1)).1.1
      ⟨_, s.device.withDisk ((next (s.bench.poll 0)).run (s.bench.polled 1)).1.2,
        ((next (s.bench.poll 0)).run (s.bench.polled 1)).2⟩
    rcases writableAnswer_cases (s.bench.poll 0) with answer | answer | answer
    · obtain ⟨notReady, invalidParameter, writeProtected⟩ :=
        ((admits _ answer).run (s.bench.polled 1)).not_refused
      refine ⟨⟨fun h => absurd h notReady, fun h => absurd ready h.2⟩,
        ⟨fun h => absurd h invalidParameter, fun h => absurd h.2 placed⟩, ?_,
        fun h => (h.elim notReady invalidParameter).elim, fun h => absurd h writeProtected⟩
      rw [shown, answer]
      exact ⟨fun h => absurd h writeProtected, nofun⟩
    · obtain ⟨outcome, done, error⟩ := refuses _ _ answer
      rw [done] at sent ⊢
      exact ⟨by simp [error, ready], by simp [error, placed], by rw [shown, answer]; simp [error],
        by simp [error], fun _ => ⟨sent, by simp [same], s.bench.unharmed_readStatus1⟩⟩
    · obtain ⟨outcome, done, error⟩ := refuses _ _ answer
      rw [done]
      exact ⟨by simp [error, ready], by simp [error, placed], by rw [shown, answer]; simp [error],
        by simp [error], by simp [error]⟩
  | pass ready placed harmless ends =>
    obtain ⟨notReady, invalidParameter, writeProtected⟩ := (ends.run s.bench).not_refused
    refine ⟨⟨fun h => absurd h notReady, fun h => absurd (ready h.1) h.2⟩,
      ⟨fun h => absurd h invalidParameter, fun h => absurd h.2 placed⟩,
      ⟨fun h => absurd h writeProtected, fun h => absurd h.2.2.1 harmless⟩,
      fun h => (h.elim notReady invalidParameter).elim, fun h => absurd h writeProtected⟩

/-! ### Protected disks -/

/-- No operation of the disk disturbs a protected chip. -/
theorem undisturbed_of_protected {script : Script (DiskOutcome × Disk)} {operation : DiskOperation}
    {b : Bench} (guards : operation.Guards d script) (placed : b.chip.Placed)
    (protects : b.chip.protectBits ≠ 0) : b.chip.Undisturbed (script.run b).2.chip := by
  cases guards with
  | unready | misplaced => exact .refl _
  | @check next _ _ _ refuses _ =>
    obtain ⟨e, answer⟩ := Bench.refused_of_protected placed protects
    obtain ⟨outcome, done, -⟩ := refuses _ _ answer
    show b.chip.Undisturbed ((next (b.poll 0)).run (b.send .readStatus1).2).2.chip
    rw [done]
    exact b.undisturbed_send (i := .readStatus1) trivial
  | pass _ _ _ ends =>
    exact ends.respects (I := fun b' => b.chip.Undisturbed b'.chip)
      (fun b' i looks kept => kept.trans (b'.undisturbed_send (Instruction.Looks.passive looks)))
      (fun _ _ kept => kept) (.refl _)

theorem undisturbed_disk_of_protected (recognised : s.Recognised) (placed : s.bench.chip.Placed)
    (protects : s.bench.chip.protectBits ≠ 0) (operation : DiskOperation) :
    s.bench.chip.Undisturbed (s.step (.disk operation)).2.bench.chip := by
  cases found : s.device.disk? with
  | none =>
    simp only [step, onDisk, found]
    exact .refl _
  | some d =>
    have suits := (recognised.driver _ (Device.driver?_of_disk? found)).2.suits
    rw [step_disk_eq found]
    exact undisturbed_of_protected (operation.guards suits) placed protects

theorem undisturbed_step_of_protected (recognised : s.Recognised) (placed : s.bench.chip.Placed)
    (protects : s.bench.chip.protectBits ≠ 0) {a : Action} (onDisk : a.OnDisk) :
    s.bench.chip.Undisturbed (s.step a).2.bench.chip := by
  cases a with
  | disk operation => exact undisturbed_disk_of_protected recognised placed protects operation
  | join first second =>
    have same := undisturbed_disk_of_protected recognised placed protects first
    rw [step_join]
    exact same.trans (undisturbed_disk_of_protected (recognised.step _) (placed_step placed _)
      (same.protectBits ▸ protects) second)
  | _ => exact onDisk.elim

/-- While some block-protect bit is set no sequence of operations of the disk changes a cell. -/
theorem memory_run_of_protected (recognised : s.Recognised) (placed : s.bench.chip.Placed)
    (protects : s.bench.chip.protectBits ≠ 0) {actions : List Action}
    (onDisk : ∀ a ∈ actions, a.OnDisk) :
    (s.run actions).bench.chip.memory = s.bench.chip.memory := by
  refine (run_preserves (I := fun w => w.Recognised ∧ w.bench.chip.Placed ∧
    w.bench.chip.protectBits ≠ 0 ∧ w.bench.chip.memory = s.bench.chip.memory) ?_
    ⟨recognised, placed, protects, rfl⟩).2.2.2
  intro w a mem ⟨recognised, placed, protects, memory⟩
  have same := undisturbed_step_of_protected recognised placed protects (onDisk a mem)
  exact ⟨recognised.step a, placed_step placed a, same.protectBits ▸ protects,
    same.memory.trans memory⟩

/-! ### The flags -/

/-- The flags tell what the guards are going to say. -/
structure Foretells (s : Session) (d : Disk) (flags : DriveFlags) : Prop where
  notInitialised : ∀ operation outcome s', operation.Guarded →
    s.step (.disk operation) = (.disk outcome, s') →
    (flags = .notInitialised ↔ outcome.error? = some .notReady)
  writeProtected : ∀ operation outcome s', operation.Changes → ¬ operation.Misplaced d →
    s.step (.disk operation) = (.disk outcome, s') →
    (flags = .writeProtected ↔ outcome.error? = some .writeProtected)
  complete : flags = .notInitialised ∨ flags = .writeProtected ∨ flags = .ready

theorem step_asksStatus (found : s.device.disk? = some d) {operation : DiskOperation}
    (asks : operation.run = .status <$> Disk.status) : ∃ s', s.step (.disk operation) =
      (.disk (.status (if d.flash.state = .ready then statusFlags (s.bench.poll 0)
        else .notInitialised)), s') := by
  have run : operation.run.run d = (Disk.status.run d).bind fun p => .done (.status p.1, p.2) := by
    rw [asks]
    rfl
  rw [step_disk_eq found, run, Disk.run_status]
  by_cases ready : d.flash.state = .ready
  · rw [if_pos ready, if_pos ready]
    exact ⟨_, rfl⟩
  · rw [if_neg ready, if_neg ready]
    exact ⟨_, rfl⟩

/-- Every operation goes by the guards. -/
theorem refuses_step (recognised : s.Recognised) (found : s.device.disk? = some d)
    (operation : DiskOperation) : ∃ outcome s',
      s.step (.disk operation) = (.disk outcome, s') ∧ s.Refuses d operation outcome s' :=
  have suits := (recognised.driver _ (Device.driver?_of_disk? found)).2.suits
  ⟨_, _, step_disk_eq found operation, refuses_of_guards found (operation.guards suits)
    (requestsSent_diskEvents found operation)⟩

/-- A status read that does not fail shows what the guards go by. -/
theorem foretells_statusFlags (recognised : s.Recognised) (found : s.device.disk? = some d)
    (answered : d.flash.state = .ready → ∃ reply, s.bench.poll 0 = .ok reply) :
    s.Foretells d (if d.flash.state = .ready then statusFlags (s.bench.poll 0)
      else .notInitialised) := by
  have refuses {operation : DiskOperation} {outcome : DiskOutcome} {s' : Session}
      (step : s.step (.disk operation) = (.disk outcome, s')) :
      s.Refuses d operation outcome s' := by
    obtain ⟨outcome', s'', step', refuses⟩ := refuses_step recognised found operation
    cases step.symm.trans step'
    exact refuses
  by_cases ready : d.flash.state = .ready
  · obtain ⟨reply, answer⟩ := answered ready
    rw [if_pos ready, answer]
    refine ⟨fun operation outcome s' guarded step => ?_,
      fun operation outcome s' changes placed step => ?_, ?_⟩
    · exact iff_of_false (statusFlags_ok_ne reply) fun h => ((refuses step).notReady.mp h).2 ready
    · rw [(refuses step).writeProtected, statusFlags_ok_eq_writeProtected_iff]
      refine ⟨fun set => ⟨ready, placed, changes, reply, answer, set⟩, ?_⟩
      rintro ⟨-, -, -, reply', answer', set⟩
      cases answer.symm.trans answer'
      exact set
    · rw [statusFlags]
      split
      · exact .inr (.inr rfl)
      · exact .inr (.inl rfl)
  · rw [if_neg ready]
    refine ⟨fun operation outcome s' guarded step => ?_,
      fun operation outcome s' changes placed step => ?_, .inl rfl⟩
    · exact iff_of_true rfl ((refuses step).notReady.mpr ⟨guarded, ready⟩)
    · exact iff_of_false (by decide) fun h => ready ((refuses step).writeProtected.mp h).1

/-- The protection bits are where they belong in every state. -/
theorem Reached.placed (reached : s.Reached) : s.bench.chip.Placed := by
  obtain ⟨id, link, compareBuffer, options, actions, rfl⟩ := reached
  exact placed_run (s := create id link compareBuffer options) UInt8.zero_and actions

/-- What the guards of a disk refuse, and nothing else, is refused as such, in their order and
without harm. A protected disk is not changed, and the flags foretell the guards. -/
theorem disk_refusals (reached : s.Reached) (found : s.device.disk? = some d) :
    (∀ operation, ∃ outcome s',
      s.step (.disk operation) = (.disk outcome, s') ∧ s.Refuses d operation outcome s') ∧
    (s.bench.chip.protectBits ≠ 0 → ∀ actions : List Action, (∀ a ∈ actions, a.OnDisk) →
      (s.run actions).bench.chip.memory = s.bench.chip.memory) ∧
    ((d.flash.state = .ready → ∃ reply, s.bench.poll 0 = .ok reply) →
      ∀ asks : DiskOperation, asks = .status ∨ asks = .startUp → ∃ flags s',
        s.step (.disk asks) = (.disk (.status flags), s') ∧ s.Foretells d flags) := by
  have recognised := reached.recognised
  refine ⟨refuses_step recognised found, fun protects actions onDisk =>
    memory_run_of_protected recognised reached.placed protects onDisk,
    fun answered asks either => ?_⟩
  have run : asks.run = .status <$> Disk.status := by
    rcases either with rfl | rfl <;> rfl
  obtain ⟨s', step⟩ := step_asksStatus found run
  exact ⟨_, s', step, foretells_statusFlags recognised found answered⟩

/-- A shared disk of 256 sectors whose chip is protected. -/
def protectedDisk : Session :=
  (create ⟨0xEF, 0x40, 0x14⟩ .direct .standard .standard).run
    [.flash .identify, .intoDisk ⟨none⟩, .share, .configure (.protection 5)]

/-- A write to it is refused for the protection, one that leaves the disk for that, and nothing
changes a cell. -/
theorem protected_disk_refuses : ∃ written s₁ beyond s₂ flags s₃,
    protectedDisk.step (.disk (.write 3 (List.replicate 4096 0))) = (.disk written, s₁) ∧
    written.error? = some .writeProtected ∧
    s₁ = { protectedDisk with bench := protectedDisk.bench.polled 1 } ∧
    protectedDisk.step (.disk (.write 256 (List.replicate 4096 0))) = (.disk beyond, s₂) ∧
    beyond.error? = some .invalidParameter ∧ s₂ = protectedDisk ∧
    protectedDisk.step (.disk .status) = (.disk (.status flags), s₃) ∧ flags = .writeProtected ∧
    (protectedDisk.run [.disk (.control (.trim 0 256)),
      .join (.write 3 []) .status]).bench.chip.memory = protectedDisk.bench.chip.memory := by
  obtain ⟨d, found, ready, size, count, bits, shown⟩ : ∃ d, protectedDisk.device.disk? = some d ∧
      d.flash.state = .ready ∧ d.sectorSize = 4096 ∧ d.sectorCount = 256 ∧
      protectedDisk.bench.chip.protectBits = 0x14 ∧ protectedDisk.bench.poll 0 = .ok [0x14] :=
    ⟨_, rfl, rfl, rfl, rfl, rfl, rfl⟩
  have reached : protectedDisk.Reached := ⟨_, _, _, _, _, rfl⟩
  obtain ⟨refusals, unchanged, status⟩ := disk_refusals reached found
  obtain ⟨written, s₁, step₁, refuses₁⟩ := refusals (.write 3 (List.replicate 4096 0))
  obtain ⟨beyond, s₂, step₂, refuses₂⟩ := refusals (.write 256 (List.replicate 4096 0))
  obtain ⟨flags, s₃, step₃, foretells⟩ := status (fun _ => ⟨_, shown⟩) .status (.inl rfl)
  have covers (start : Nat) : d.Covers start (List.replicate 4096 (0 : UInt8)).length ↔
      start + 1 ≤ 256 := by
    rw [Disk.Covers, List.length_replicate, size, count]
    exact and_iff_right (Nat.dvd_refl 4096)
  have placed : ¬ (DiskOperation.write 3 (List.replicate 4096 0)).Misplaced d :=
    not_not_intro ((covers 3).mpr (by decide))
  have writeProtected : written.error? = some .writeProtected :=
    refuses₁.writeProtected.mpr ⟨ready, placed, trivial, _, shown, by decide⟩
  have misplaced : beyond.error? = some .invalidParameter :=
    refuses₂.invalidParameter.mpr ⟨ready, fun inside => absurd ((covers 256).mp inside) (by decide)⟩
  exact ⟨written, s₁, beyond, s₂, flags, s₃, step₁, writeProtected,
    (refuses₁.late writeProtected).2.1, step₂, misplaced, (refuses₂.early (.inr misplaced)).1,
    step₃, (foretells.writeProtected (.write _ _) _ _ trivial placed step₁).mpr writeProtected,
    unchanged (by rw [bits]; decide) _ (by simp [Action.OnDisk])⟩

end Session

end SerialFlash
