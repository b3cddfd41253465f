import SerialFlash.Operation
import SerialFlash.Proofs.Settling

/-!
What an operation does to the driver, and to the disk around it. Most operations settle. An
erase that has been begun leaves the driver erasing until the end is seen, the power states
are entered and left by one operation each, and the rest is identification, the only
operation that learns something. `Moves` has one rule for each of these, and every operation
follows one of them, whatever the chip replies. The operations of a disk all settle.
-/

namespace SerialFlash

open Procedure

/-! ### The moves of a driver -/

namespace FlashOperation

/-- Starts an erase and does not wait for it. -/
def Begins : FlashOperation → Prop
  | eraseAll | eraseSector _ => True
  | _ => False

/-- Asks for the end of an erase. -/
def Asks : FlashOperation → Prop
  | eraseProgress | finishErase => True
  | _ => False

/-- Never succeeds without a change of the driver. -/
def Commits : FlashOperation → Prop
  | identify | eraseAll | eraseSector _ | powerDown | releasePowerDown => True
  | _ => False

/-- The instructions that the operation may send. -/
def Says : FlashOperation → Instruction → Prop
  | powerDown => (· = .powerDown)
  | releasePowerDown => (· = .releasePowerDown)
  | _ => Instruction.KeepsPower

/-- The operation takes the first driver with that result to the second one. -/
inductive Moves :
    FlashOperation → Driver → Except (DriverError BusError) FlashValue → Driver → Prop
  | keep {operation : FlashOperation} {d v} (h : ¬ operation.Commits) : Moves operation d (.ok v) d
  | fail {operation d} {e : DriverError BusError} (other : operation ≠ .identify)
      (cause : e.cause ≠ .timeout) : Moves operation d (.error e) d
  | giveUp {operation} {d : Driver} {e : DriverError BusError} (other : operation ≠ .identify)
      (ready : d.state = .ready) (cause : e.cause = .timeout) :
      Moves operation d (.error e) { d with state := .failed }
  | begin {operation : FlashOperation} {d : Driver} (begins : operation.Begins)
      (ready : d.state = .ready) : Moves operation d (.ok .nothing) { d with state := .erasing }
  | finish {operation : FlashOperation} {d : Driver} {r} (asks : operation.Asks)
      (erasing : d.state = .erasing) (cause : ∀ e, r = .error e → e.cause ≠ .timeout) :
      Moves operation d r { d with state := .ready }
  | expire {d : Driver} (erasing : d.state = .erasing) :
      Moves .finishErase d (.error .timeout) { d with state := .failed }
  | sleep {d : Driver} (ready : d.state = .ready) :
      Moves .powerDown d (.ok .nothing) { d with state := .notReady }
  | wake {d : Driver} (asleep : d.state = .notReady) (identified : d.isIdentified) :
      Moves .releasePowerDown d (.ok .nothing) { d with state := .ready }
  | refuse {d : Driver} (erasing : d.state = .erasing) :
      Moves .identify d (.error (.busy .erasing)) d
  | unheard {d : Driver} {error} (idle : d.state ≠ .erasing) :
      Moves .identify d (.error (.bus error)) d
  | unlisted {d : Driver} {id : Identity} (idle : d.state ≠ .erasing)
      (unlisted : id.capacity? = none) :
      Moves .identify d (.error (.unknownDevice id))
        { d with identity := id, layout := .unknown d.options.eraseUnit.size, state := .notReady }
  /-- The quad-enable sequence of a listed device has failed. -/
  | unfit {d : Driver} {id : Identity} {size} {e : DriverError BusError}
      (idle : d.state ≠ .erasing) (listed : id.capacity? = some size)
      (cause : e.cause = .timeout → e = .timeout) :
      Moves .identify d (.error e)
        { d with
          identity := id
          layout := .unknown d.options.eraseUnit.size
          state := if e.cause = .timeout then .failed else .notReady }
  | identified {d : Driver} {id : Identity} {size} (idle : d.state ≠ .erasing)
      (listed : id.capacity? = some size) :
      Moves .identify d (.ok (.layout (.tile size d.options.eraseUnit.size)))
        { d with
          identity := id
          layout := .tile size d.options.eraseUnit.size
          state := .ready }

variable {operation : FlashOperation} {d : Driver}

/-- What settles keeps the driver, fails or gives it up. -/
theorem always_of_settles {α : Type} {op : FlashM α} {f : α → FlashValue}
    (settles : Driver.Settles op Instruction.Plain d) (h : ¬ operation.Commits) :
    (f <$> op).Always operation.Says d (fun v => Moves operation d (.ok v))
      fun e => Moves operation d (.error e) := by
  have other : operation ≠ .identify := by
    rintro rfl
    exact h trivial
  have spoken (i : Instruction) (plain : i.Plain) : operation.Says i := by
    cases operation with
    | powerDown | releasePowerDown => exact absurd trivial h
    | _ => exact plain.keepsPower
  rw [always_map]
  refine Procedure.Always.mono settles spoken ?_ ?_
  · rintro _ _ rfl
    exact .keep h
  · intro e d' ended
    unfold Driver.FailsTo at ended
    split at ended
    · next cause =>
      obtain ⟨ready, rfl⟩ := ended
      exact .giveUp other ready cause
    · next cause =>
      obtain rfl := ended
      exact .fail other cause

theorem always_of_looking {α : Type} {op : FlashM α} {f : α → FlashValue}
    (settles : Driver.Settles op Instruction.Looks d) (h : ¬ operation.Commits) :
    (f <$> op).Always operation.Says d (fun v => Moves operation d (.ok v))
      fun e => Moves operation d (.error e) :=
  always_of_settles (settles.mono fun _ => Instruction.Looks.plain) h

theorem always_of_begun {op : FlashM Unit}
    (begun : op.Always Instruction.Plain d
      (fun _ d' => d.state = .ready ∧ d' = { d with state := .erasing })
      fun e d' => d' = d ∧ e.cause ≠ .timeout) (begins : operation.Begins) :
    (silent op).Always operation.Says d (fun v => Moves operation d (.ok v))
      fun e => Moves operation d (.error e) := by
  have other : operation ≠ .identify := by
    rintro rfl
    exact begins
  have spoken (i : Instruction) (plain : i.Plain) : operation.Says i := by
    cases operation <;> first | exact plain.keepsPower | exact begins.elim
  rw [silent, always_map]
  refine begun.mono spoken ?_ ?_
  · rintro _ _ ⟨ready, rfl⟩
    exact .begin begins ready
  · rintro e _ ⟨rfl, cause⟩
    exact .fail other cause

theorem always_eraseProgress (rest : d.state.AtRest) :
    (FlashValue.erase <$> Driver.eraseProgress).Always Instruction.KeepsPower d
      (fun v => Moves .eraseProgress d (.ok v)) fun e => Moves .eraseProgress d (.error e) := by
  have spoken (i : Instruction) (looks : i.Looks) := looks.plain.keepsPower
  rw [always_map]
  by_cases erasing : d.state = .erasing
  · refine (Driver.always_eraseProgress_of_erasing erasing).mono spoken ?_ ?_
    · intro progress d' ended
      cases progress with
      | done => exact ended ▸ .finish trivial erasing nofun
      | running _ => exact ended ▸ .keep id
    · rintro e _ ⟨rfl, cause⟩
      exact .finish trivial erasing fun _ same => by cases same; exact cause
  · refine (Driver.always_eraseProgress_of_not_erasing rest erasing).mono spoken ?_ ?_
    · rintro progress _ ⟨-, rfl⟩
      exact .keep id
    · rintro e _ ⟨rfl, cause⟩
      exact .fail nofun cause

theorem always_finishErase (rest : d.state.AtRest) :
    (silent Driver.finishErase).Always Instruction.KeepsPower d
      (fun v => Moves .finishErase d (.ok v)) fun e => Moves .finishErase d (.error e) := by
  by_cases erasing : d.state = .erasing
  · rw [silent, always_map]
    refine (Driver.always_finishErase_of_erasing erasing).mono
      (fun _ looks => looks.plain.keepsPower) ?_ ?_
    · rintro _ _ rfl
      exact .finish trivial erasing nofun
    · rintro e _ ⟨rfl, timeout⟩
      by_cases cause : e.cause = .timeout
      · rw [if_pos cause, timeout cause]
        exact .expire erasing
      · rw [if_neg cause]
        exact .finish trivial erasing fun _ same => by cases same; exact cause
  · have keeps : ¬ FlashOperation.finishErase.Commits := id
    exact always_of_looking (Driver.settles_finishErase rest erasing) keeps

theorem always_identify :
    (FlashValue.layout <$> Driver.identify).Always Instruction.KeepsPower d
      (fun v => Moves .identify d (.ok v)) fun e => Moves .identify d (.error e) := by
  simp only [Driver.identify, always_map, always_bind, always_get, always_ite, always_throw,
    Driver.always_ask, always_modify]
  refine ⟨fun erasing => .refuse erasing, fun idle => ⟨trivial, fun reply => ?_, fun _ =>
    .unheard idle⟩⟩
  cases listed : (Identity.ofBytes reply).capacity? with
  | none => exact .unlisted idle listed
  | some size =>
    simp only [always_bind, always_get, always_ite, always_tryCatch, always_modify, always_pure]
    refine ⟨fun _ => Driver.always_ensureQuad.imp ?_ ?_, fun _ => .identified idle listed⟩
    · rintro _ _ rfl
      exact .identified idle listed
    · rintro e _ ⟨rfl, cause⟩
      have moved := Moves.unfit (d := d) (e := e) idle listed cause
      have same : e.isTimeout = decide (e.cause = .timeout) := by
        cases e with
        | interrupted completed stop => cases stop <;> first | rfl | cases cause rfl
        | _ => rfl
      simpa [Driver.forget, same] using moved

/-- Every operation is one of the moves, whatever the chip replies. -/
theorem always_run (operation : FlashOperation) (rest : d.state.AtRest) :
    operation.run.Always operation.Says d (fun v => Moves operation d (.ok v))
      fun e => Moves operation d (.error e) := by
  cases operation with
  | identify => exact always_identify
  | read offset length | norRead offset length =>
    exact always_of_looking (Driver.settles_read offset length) id
  | program offset data | norWrite offset data =>
    exact always_of_settles (Driver.settles_program offset data) id
  | eraseAll => exact always_of_begun (Driver.always_beginErase trivial) trivial
  | eraseSector sector => exact always_of_begun (Driver.always_beginEraseSector sector) trivial
  | eraseProgress => exact always_eraseProgress rest
  | finishErase => exact always_finishErase rest
  | verify sector => exact always_of_looking (Driver.settles_checkErased sector) id
  | status =>
    exact always_of_looking ((Driver.Settles.ask (i := .readStatus1) trivial).bind
      fun _ => .pure _) id
  | isProtected => exact always_of_looking Driver.settles_isProtected id
  | uniqueId =>
    exact always_of_looking (.guardReady fun _ =>
      (Driver.Settles.ask (i := .readUniqueId) trivial).bind fun _ => .pure _) id
  | powerDown =>
    simp only [run, silent, Driver.enterPowerDown, always_map, always_bind,
      Driver.always_guardReady, Driver.always_ask, Driver.always_setState]
    exact ⟨fun ready => ⟨rfl, fun _ => .sleep ready, fun _ => .fail (by rintro ⟨⟩) (by rintro ⟨⟩)⟩,
      fun _ => .fail (by rintro ⟨⟩) (by rintro ⟨⟩)⟩
  | releasePowerDown =>
    simp only [run, silent, Driver.leavePowerDown, always_map, always_bind, always_get]
    split
    · next asleep =>
      simp only [Bool.and_eq_true, decide_eq_true_eq] at asleep
      simp only [always_bind, Driver.always_ask, always_sleep, Driver.always_setState]
      exact ⟨rfl, fun _ => .wake asleep.1 asleep.2, fun _ => .fail (by rintro ⟨⟩) (by rintro ⟨⟩)⟩
    · exact .fail (by rintro ⟨⟩) (by rintro ⟨⟩)
  | norErase start stop => exact always_of_settles (Driver.settles_norErase start stop) id

end FlashOperation

/-! ### Disks -/

namespace Disk

variable {α β : Type} {P : Instruction → Prop} {d d' : Disk}

/-- Nothing has happened to the disk, or its flash was ready and has been given up. -/
def Survives (d d' : Disk) : Prop :=
  d' = d ∨ d.flash.state = .ready ∧ d' = { d with flash := { d.flash with state := .failed } }

theorem Survives.refl (d : Disk) : d.Survives d :=
  .inl rfl

theorem Survives.trans {d'' : Disk} (h : d.Survives d') (h' : d'.Survives d'') :
    d.Survives d'' := by
  rcases h with rfl | ⟨ready, rfl⟩
  · exact h'
  · rcases h' with rfl | ⟨ready', -⟩
    · exact .inr ⟨ready, rfl⟩
    · nomatch ready'

theorem Survives.of_fails {e : DriverError BusError} {flash : Driver}
    (h : d.flash.FailsTo e flash) : d.Survives { d with flash } := by
  unfold Driver.FailsTo at h
  split at h
  · exact .inr ⟨h.1, by rw [h.2]⟩
  · exact .inl (by rw [h])

/-- Whatever the replies, the operation leaves the disk as it was, or fails and has given up the
flash at most. -/
def Settles (op : DiskM α) (P : Instruction → Prop) (d : Disk) : Prop :=
  op.Always P d (fun _ d' => d' = d) fun _ => d.Survives

theorem Settles.bind {op : DiskM α} {f : α → DiskM β} (first : Settles op P d)
    (rest : ∀ a, Settles (f a) P d) : Settles (op >>= f) P d := by
  rw [Settles, always_bind]
  refine first.imp ?_ fun _ _ => id
  rintro a _ rfl
  exact rest a

theorem Settles.pure (a : α) : Settles (Pure.pure a) P d := rfl

theorem Settles.throw (e : DiskError) : Settles (MonadExcept.throw e : DiskM α) P d :=
  .refl d

/-- The rule for an operation of the flash that settles. -/
theorem always_onFlash {op : FlashM α} (h : Driver.Settles op P d.flash)
    {good : Except (DriverError BusError) α → Disk → Prop} {bad : DiskError → Disk → Prop}
    (done : ∀ a, good (.ok a) d) (failed : ∀ e d', d.Survives d' → good (.error e) d') :
    (liftM (onFlash op) : DiskM _).Always P d good bad := by
  rw [Driver.always_onFlash]
  refine Procedure.Always.imp h ?_ fun e flash ended => failed e _ (.of_fails ended)
  rintro a _ rfl
  exact done a

theorem settles_guardReady : Settles guardReady P d := by
  simp only [Settles, guardReady, always_bind, always_get, always_ite, always_pure, always_throw]
  exact ⟨fun _ => trivial, fun _ => .refl d⟩

theorem settles_guardSpan (start length : Nat) : Settles (guardSpan start length) P d := by
  rw [Settles, guardSpan, always_bind, always_get]
  split
  · exact Settles.pure _
  · exact Settles.throw _

theorem settles_guardWritable : Settles guardWritable Instruction.Looks d := by
  rw [Settles, guardWritable, always_bind]
  refine always_onFlash Driver.settles_isProtected (fun isProtected => ?_) fun _ d' survives =>
    survives
  cases isProtected with
  | false => exact Settles.pure _
  | true => exact Settles.throw _

theorem settles_readFrom (completed count sector : Nat) :
    Settles (readFrom completed count sector) Instruction.Looks d := by
  induction count generalizing completed sector with
  | zero => exact .pure _
  | succ count ih =>
    rw [Settles, readFrom, always_bind, always_get]
    split
    · exact Settles.throw _
    · rw [always_bind]
      refine always_onFlash (Driver.settles_read _ _) (fun bytes => ?_) fun _ _ survives => survives
      exact (ih (completed + 1) (sector + 1)).bind fun _ => .pure _

theorem settles_read (start length : Nat) : Settles (read start length) Instruction.Looks d :=
  settles_guardReady.bind fun _ => (settles_guardSpan _ _).bind fun _ =>
    (settles_readFrom _ _ _).bind fun _ => .pure _

theorem settles_writeFrom (completed count sector : Nat) (data : Bytes) :
    Settles (writeFrom completed count sector data) Instruction.Plain d := by
  induction count generalizing completed sector data with
  | zero => exact .pure _
  | succ count ih =>
    rw [Settles, writeFrom, always_bind, always_get, always_bind]
    exact always_onFlash (Driver.settles_replaceSector _ _ _) (fun _ => ih _ _ _)
      fun _ d' survives => survives

theorem settles_looking {op : DiskM α} (h : Settles op Instruction.Looks d) :
    Settles op Instruction.Plain d :=
  Procedure.Always.mono h (fun _ => Instruction.Looks.plain) (fun _ _ => id) fun _ _ => id

theorem settles_write (start : Nat) (data : Bytes) :
    Settles (write start data) Instruction.Plain d :=
  settles_guardReady.bind fun _ => (settles_guardSpan _ _).bind fun _ =>
    (settles_looking settles_guardWritable).bind fun _ => (settles_writeFrom _ _ _ _).bind
      fun _ => .pure _

theorem settles_trimFrom (completed count sector : Nat) :
    Settles (trimFrom completed count sector) Instruction.Plain d := by
  induction count generalizing completed sector with
  | zero => exact .pure _
  | succ count ih =>
    rw [Settles, trimFrom, always_bind, always_get, always_bind]
    exact always_onFlash (Driver.settles_eraseUnder _ _ _) (fun _ => ih _ _)
      fun _ d' survives => survives

theorem settles_trim (start stop : Nat) : Settles (trim start stop) Instruction.Plain d := by
  rw [Settles, trim, always_bind, always_get, always_ite]
  exact ⟨fun _ => Survives.refl d, fun _ => (settles_looking settles_guardWritable).bind
    fun _ => settles_trimFrom _ _ _⟩

theorem settles_control (command : DiskCommand) :
    Settles (control command) Instruction.Plain d := by
  refine settles_guardReady.bind fun _ => ?_
  cases command with
  | sync => exact .pure _
  | sectorCount | sectorSize | blockSize => exact rfl
  | trim start stop => exact (settles_trim start stop).bind fun _ => .pure _

/-- A status has no error of its own, but it may have cost the flash. -/
theorem always_status :
    (liftM status : DiskM DriveFlags).Always Instruction.Looks d (fun _ => d.Survives)
      fun _ _ => False := by
  rw [status, always_liftM_bind]
  show Always (liftM (if d.flash.state = .ready then _ else _)) _ d _ _
  split
  · rw [always_liftM_bind]
    refine always_onFlash Driver.settles_isProtected (fun isProtected => ?_) fun _ d' survives =>
      survives
    cases isProtected <;> exact .refl d
  · exact .refl d

end Disk

/-- Every operation of a disk leaves it as it was, or has given up its flash. -/
theorem DiskOperation.always_run (operation : DiskOperation) (d : Disk) :
    (liftM operation.run : DiskM DiskOutcome).Always Instruction.Plain d (fun _ => d.Survives)
      fun _ _ => False := by
  have wrapped {α : Type} {op : DiskM α} (f : Except DiskError α → DiskOutcome)
      (settles : Disk.Settles op Instruction.Plain d) :
      (liftM (f <$> ExceptT.run op) : DiskM DiskOutcome).Always Instruction.Plain d
        (fun _ => d.Survives) fun _ _ => False := by
    rw [always_liftM_run]
    exact settles.imp (fun _ _ same => .inl same) fun _ _ survives => survives
  cases operation with
  | status | startUp =>
    rw [run, map_eq_pure_bind, always_liftM_bind]
    exact Disk.always_status.mono (fun _ => Instruction.Looks.plain) (fun _ _ survives => survives)
      fun _ _ => id
  | geometry => exact .refl d
  | read start length => exact wrapped .read (Disk.settles_looking (Disk.settles_read _ _))
  | write start data => exact wrapped .write (Disk.settles_write _ _)
  | control command => exact wrapped .control (Disk.settles_control _)

end SerialFlash
