import SerialFlash.Nor
import SerialFlash.Proofs.Attunement
import SerialFlash.Proofs.Replies

/-!
Operations that settle. Whatever the chip replies, they leave the driver as it was, or they
time out and give it up. That is so of everything that reads, programs or erases to the end,
also of the loops made of such steps. Beginning an erase, asking for its end and setting the
quad-enable bit are the other steps, and what they do to the driver is stated beside them.
-/

namespace SerialFlash

open Procedure

namespace Driver

variable {P : Instruction → Prop} {α β : Type} {d : Driver} {op : FlashM α}

/-- How a failure leaves a driver: after a timeout a ready one is given up, otherwise it is as
it was. -/
def FailsTo (d : Driver) (e : DriverError BusError) (d' : Driver) : Prop :=
  if e.cause = .timeout then d.state = .ready ∧ d' = { d with state := .failed } else d' = d

/-- Whatever the replies, the operation leaves the driver as it was, or fails and leaves it as
a failure does. -/
def Settles (op : FlashM α) (P : Instruction → Prop) (d : Driver) : Prop :=
  op.Always P d (fun _ d' => d' = d) d.FailsTo

theorem failsTo_of_cause {e : DriverError BusError} (h : e.cause ≠ .timeout) : d.FailsTo e d := by
  rw [FailsTo, if_neg h]

theorem failsTo_outOfBounds : d.FailsTo .outOfBounds d :=
  failsTo_of_cause nofun

theorem failsTo_misaligned : d.FailsTo .misaligned d :=
  failsTo_of_cause nofun

/-- The rest state of a failure. -/
theorem failsTo_rest {state : DriverState} (ready : d.state = .ready) (e : DriverError BusError) :
    d.FailsTo e { ({ d with state } : Driver) with
      state := if e.cause = .timeout then .failed else .ready } := by
  unfold FailsTo
  split
  · exact ⟨ready, rfl⟩
  · rw [← ready]

namespace Settles

theorem mono {P' : Instruction → Prop} (h : Settles op P d) (sent : ∀ i, P i → P' i) :
    Settles op P' d :=
  Procedure.Always.mono h sent (fun _ _ => id) fun _ _ => id

theorem pure (a : α) : Settles (Pure.pure a) P d := rfl

theorem throw {e : DriverError BusError} (h : e.cause ≠ .timeout) :
    Settles (MonadExcept.throw e : FlashM α) P d :=
  failsTo_of_cause h

theorem bind {f : α → FlashM β} (first : Settles op P d) (rest : ∀ a, Settles (f a) P d) :
    Settles (op >>= f) P d := by
  rw [Settles, always_bind]
  refine first.imp ?_ fun _ _ => id
  rintro a _ rfl
  exact rest a

/-- An operation that only a ready driver accepts. -/
theorem guardReady (h : d.state = .ready → Settles op P d) :
    Settles (do Driver.guardReady; op) P d := by
  rw [Settles, always_bind, always_guardReady]
  exact ⟨h, fun _ => failsTo_of_cause nofun⟩

theorem ask {i : Instruction} (sent : P i) : Settles (Driver.ask i) P d := by
  rw [Settles, always_ask]
  exact ⟨sent, fun _ => rfl, fun _ => failsTo_of_cause nofun⟩

theorem sectorStart (sector : Nat) : Settles (Driver.sectorStart sector) P d := by
  simp only [Settles, Driver.sectorStart, always_bind, always_get]
  split
  · exact (rfl : d = d)
  · exact failsTo_outOfBounds

end Settles

/-- Between two states a ready driver may do what leaves it alone. -/
theorem settles_resting {state : DriverState} (ready : d.state = .ready)
    (inner : op.Always P { d with state } (fun _ d' => d' = { d with state })
      fun _ d' => d' = { d with state }) :
    Settles (do setState state; resting op) P d := by
  simp only [Settles, always_bind, always_setState, always_resting]
  refine inner.imp ?_ ?_
  · rintro _ _ rfl
    rw [← ready]
  · rintro e _ rfl
    exact failsTo_rest ready e

/-! ### Status -/

theorem always_readStatus1 :
    readStatus1.Always Instruction.Looks d (fun _ d' => d' = d) fun e d' =>
      d' = d ∧ ∃ error, e = .bus error := by
  simp [readStatus1, Instruction.Looks]

theorem settles_isProtected : Settles isProtected Instruction.Looks d :=
  ((Settles.ask trivial).bind fun _ => .pure _).bind fun _ => .pure _

/-- A wait leaves the driver alone, and fails on the bus or after too many polls. -/
theorem always_awaitIdleWithin (options : DriverOptions) (polls : Nat) :
    (awaitIdleWithin options polls).Always Instruction.Looks d (fun _ d' => d' = d) fun e d' =>
      d' = d ∧ (e = .timeout ∨ ∃ error, e = .bus error) := by
  induction polls with
  | zero => exact ⟨rfl, .inl rfl⟩
  | succ polls ih =>
    have poll : (do
        let status ← readStatus1
        if status.isBusy then awaitIdleWithin options polls : FlashM Unit).Always
          Instruction.Looks d (fun _ d' => d' = d) fun e d' =>
            d' = d ∧ (e = .timeout ∨ ∃ error, e = .bus error) := by
      rw [always_bind]
      refine always_readStatus1.imp ?_ fun _ _ ended => ⟨ended.1, .inr ended.2⟩
      rintro status _ rfl
      rw [always_ite]
      exact ⟨fun _ => ih, fun _ => rfl⟩
    rw [awaitIdleWithin, always_ite, always_bind, always_sleep]
    exact ⟨fun _ => poll, fun _ => poll⟩

theorem always_awaitIdle :
    awaitIdle.Always Instruction.Looks d (fun _ d' => d' = d) fun e d' =>
      d' = d ∧ (e = .timeout ∨ ∃ error, e = .bus error) := by
  rw [awaitIdle, always_bind, always_get]
  exact always_awaitIdleWithin _ _

/-! ### The array -/

theorem settles_read (offset length : Nat) : Settles (read offset length) Instruction.Looks d := by
  refine .guardReady fun ready => ?_
  simp only [Settles, always_bind, always_get, always_ite, always_throw, always_pure]
  refine ⟨fun _ => ⟨fun _ => trivial, fun _ => ?_⟩, fun _ => failsTo_outOfBounds⟩
  have asked : (ask (.readArray offset length)).Always Instruction.Looks
      { d with state := .reading } (fun _ d' => d' = { d with state := .reading })
      fun _ d' => d' = { d with state := .reading } := by
    rw [always_ask]
    exact ⟨trivial, fun _ => rfl, fun _ => rfl⟩
  have settled := settles_resting ready asked
  rwa [Settles, always_bind] at settled

theorem always_programPiece (p : Piece) :
    (programPiece p).Always Instruction.Plain d (fun _ d' => d' = d) fun _ d' => d' = d := by
  simp only [programPiece, writeEnable, always_bind, always_ask, always_pure]
  refine ⟨trivial, fun _ => ⟨trivial, fun _ => ?_, fun _ => trivial⟩, fun _ => trivial⟩
  exact always_awaitIdle.mono (fun _ => Instruction.Looks.plain) (fun _ _ => id)
    fun _ _ => And.left

theorem always_programPieces (done : Nat) (pieces : List Piece) :
    (programPieces done pieces).Always Instruction.Plain d (fun _ d' => d' = d)
      fun _ d' => d' = d := by
  induction pieces generalizing done with
  | nil => exact rfl
  | cons p rest ih =>
    rw [programPieces, always_bind, always_tryCatch]
    refine (always_programPiece p).imp ?_ fun _ _ same => same
    rintro _ _ rfl
    exact ih _

theorem settles_program (offset : Nat) (data : Bytes) :
    Settles (program offset data) Instruction.Plain d := by
  refine .guardReady fun ready => ?_
  simp only [Settles, always_bind, always_get, always_ite, always_throw]
  refine ⟨fun _ => ?_, fun _ => failsTo_outOfBounds⟩
  have settled := settles_resting ready
    (always_programPieces (d := { d with state := .programming }) 0 (splitPages offset data))
  rwa [Settles, always_bind] at settled

theorem always_checkFrom (erased : UInt8) (step chunks offset : Nat) :
    (checkFrom erased step chunks offset).Always Instruction.Looks d (fun _ d' => d' = d)
      fun _ d' => d' = d := by
  induction chunks generalizing offset with
  | zero => exact rfl
  | succ chunks ih =>
    rw [checkFrom, always_bind, always_ask]
    refine ⟨trivial, fun reply => ?_, fun _ => rfl⟩
    split
    · exact rfl
    · exact ih _

theorem settles_checkErased (sector : Nat) :
    Settles (checkErased sector) Instruction.Looks d := by
  refine .guardReady fun ready => .bind (.sectorStart sector) fun start => ?_
  refine settles_resting ready ?_
  rw [always_bind, always_get, checkRange, always_bind, always_get]
  exact always_checkFrom _ _ _ _

/-! ### Erases -/

/-- An erase is begun by a ready driver, or nothing happens to it. -/
theorem always_beginErase {i : Instruction} (plain : i.Plain) :
    (beginErase i).Always Instruction.Plain d
      (fun _ d' => d.state = .ready ∧ d' = { d with state := .erasing })
      fun e d' => d' = d ∧ e.cause ≠ .timeout := by
  simp only [beginErase, writeEnable, always_bind, always_guardReady, always_ask, always_setState,
    always_pure]
  refine ⟨fun ready => ?_, fun _ => ⟨trivial, by rintro ⟨⟩⟩⟩
  exact ⟨trivial, fun _ => ⟨plain, fun _ => ⟨ready, trivial⟩, fun _ => ⟨trivial, by rintro ⟨⟩⟩⟩,
    fun _ => ⟨trivial, by rintro ⟨⟩⟩⟩

theorem always_beginEraseSector (sector : Nat) :
    (beginEraseSector sector).Always Instruction.Plain d
      (fun _ d' => d.state = .ready ∧ d' = { d with state := .erasing })
      fun e d' => d' = d ∧ e.cause ≠ .timeout := by
  rw [beginEraseSector, always_bind, always_guardReady]
  refine ⟨fun ready => ?_, fun _ => ⟨rfl, by rintro ⟨⟩⟩⟩
  simp only [sectorStart, always_bind, always_get]
  split
  · exact always_beginErase trivial
  · exact ⟨rfl, by rintro ⟨⟩⟩

/-- A question that finds an erase running ends in the erase still running, or in a ready
driver. -/
theorem always_eraseProgress_of_erasing (erasing : d.state = .erasing) :
    eraseProgress.Always Instruction.Looks d
      (fun progress d' =>
        match progress with
        | .done => d' = { d with state := .ready }
        | .running _ => d' = d)
      fun e d' => d' = { d with state := .ready } ∧ e.cause ≠ .timeout := by
  simp only [eraseProgress, always_bind, always_get, erasing, always_liftM_ask]
  refine ⟨trivial, fun reply => ?_⟩
  cases reply with
  | error e => exact ⟨rfl, by rintro ⟨⟩⟩
  | ok reply =>
    simp only [always_ite, always_pure, always_bind, always_setState]
    exact ⟨fun _ => trivial, fun _ => trivial⟩

/-- With no erase running, a question changes nothing. -/
theorem always_eraseProgress_of_not_erasing (rest : d.state.AtRest) (h : d.state ≠ .erasing) :
    eraseProgress.Always Instruction.Looks d (fun progress d' => progress = .done ∧ d' = d)
      fun e d' => d' = d ∧ e.cause ≠ .timeout := by
  rw [eraseProgress, always_bind, always_get]
  cases state : d.state with
  | erasing => exact absurd state h
  | reading | programming => rw [state] at rest; exact rest.elim
  | ready => exact ⟨rfl, rfl⟩
  | notReady | failed => exact ⟨rfl, by rintro ⟨⟩⟩

theorem always_finishWithin_of_erasing (erasing : d.state = .erasing) (remaining : Nat) :
    (finishWithin remaining).Always Instruction.Looks d
      (fun _ d' => d' = { d with state := .ready })
      fun e d' => d' = { d with state := if e.cause = .timeout then .failed else .ready } ∧
        (e.cause = .timeout → e = .timeout) := by
  induction remaining with
  | zero =>
    rw [finishWithin, always_bind]
    refine (always_eraseProgress_of_erasing erasing).imp (fun progress d' ended => ?_) ?_
    · cases progress with
      | done => exact ended
      | running _ =>
        obtain rfl := ended
        rw [always_resting, always_throw]
        exact ⟨rfl, fun _ => rfl⟩
    · rintro e _ ⟨rfl, cause⟩
      rw [if_neg cause]
      exact ⟨rfl, fun timeout => absurd timeout cause⟩
  | succ remaining ih =>
    rw [finishWithin, always_bind]
    refine (always_eraseProgress_of_erasing erasing).imp (fun progress d' ended => ?_) ?_
    · cases progress with
      | done => exact ended
      | running retryAfter =>
        obtain rfl := ended
        simp only [always_bind, always_sleep]
        exact ih
    · rintro e _ ⟨rfl, cause⟩
      rw [if_neg cause]
      exact ⟨rfl, fun timeout => absurd timeout cause⟩

theorem always_finishErase_of_erasing (erasing : d.state = .erasing) :
    finishErase.Always Instruction.Looks d (fun _ d' => d' = { d with state := .ready })
      fun e d' => d' = { d with state := if e.cause = .timeout then .failed else .ready } ∧
        (e.cause = .timeout → e = .timeout) := by
  rw [finishErase, always_bind, always_get]
  exact always_finishWithin_of_erasing erasing _

theorem settles_finishErase (rest : d.state.AtRest) (h : d.state ≠ .erasing) :
    Settles finishErase Instruction.Looks d := by
  rw [Settles, finishErase, always_bind, always_get]
  have asked := always_eraseProgress_of_not_erasing rest h
  cases d.options.eraseTimeout <;> rw [finishWithin, always_bind]
  all_goals
    refine asked.imp ?_ ?_
    · rintro _ _ ⟨rfl, rfl⟩
      rfl
    · rintro e _ ⟨rfl, cause⟩
      exact failsTo_of_cause cause

/-- From its start to its end an erase settles. -/
theorem settles_eraseToEnd {begins : FlashM Unit}
    (begun : begins.Always Instruction.Plain d
      (fun _ d' => d.state = .ready ∧ d' = { d with state := .erasing })
      fun e d' => d' = d ∧ e.cause ≠ .timeout) :
    Settles (do begins; finishErase) Instruction.Plain d := by
  rw [Settles, always_bind]
  refine begun.imp ?_ ?_
  · rintro _ _ ⟨ready, rfl⟩
    refine (always_finishErase_of_erasing rfl).mono (fun _ => Instruction.Looks.plain) ?_ ?_
    · rintro _ _ rfl
      rw [← ready]
    · rintro e _ ⟨rfl, -⟩
      exact failsTo_rest ready e
  · rintro e _ ⟨rfl, cause⟩
    exact failsTo_of_cause cause

theorem settles_eraseFrom (units offset : Nat) :
    Settles (Nor.eraseFrom units offset) Instruction.Plain d := by
  induction units generalizing offset with
  | zero => exact .pure _
  | succ units ih =>
    have erased := settles_eraseToEnd (d := d)
      (always_beginErase (i := .eraseSector .sector4K offset) trivial)
    have both := erased.bind fun _ => ih (Word32.satAdd offset Nor.eraseSize)
    rwa [bind_assoc] at both

theorem settles_norErase (start stop : Nat) :
    Settles (Nor.erase start stop) Instruction.Plain d := by
  simp only [Settles, Nor.erase, always_bind, always_get, always_ite, always_throw]
  exact ⟨fun _ => failsTo_outOfBounds,
    fun _ => ⟨fun _ => settles_eraseFrom _ _, fun _ => failsTo_misaligned⟩⟩

theorem settles_eraseRun (verify : Bool) (count sector : Nat) :
    Settles (Disk.eraseRun verify count sector) Instruction.Plain d := by
  induction count generalizing sector with
  | zero => exact .pure _
  | succ count ih =>
    have erased := settles_eraseToEnd (always_beginEraseSector (d := d) sector)
    have both := erased.bind fun _ => show Settles (do
        if verify then checkErased sector
        Disk.eraseRun verify count (sector + 1)) Instruction.Plain d by
      cases verify with
      | false => exact ih _
      | true =>
        exact ((settles_checkErased sector).mono fun _ => Instruction.Looks.plain).bind
          fun _ => ih _
    rwa [bind_assoc] at both

theorem settles_eraseUnder (perSector sector : Nat) (verify : Bool) :
    Settles (Disk.eraseUnder perSector sector verify) Instruction.Plain d := by
  unfold Disk.eraseUnder
  split
  · exact .throw nofun
  · exact (settles_eraseRun _ _ _).bind fun _ => .sectorStart _

theorem settles_replaceSector (perSector sector : Nat) (data : Bytes) :
    Settles (Disk.replaceSector perSector sector data) Instruction.Plain d :=
  (settles_eraseUnder _ _ _).bind fun _ => settles_program _ _

/-! ### Identification -/

/-- The quad-enable sequence leaves the driver alone, and times out only in its wait. -/
theorem always_ensureQuad :
    ensureQuad.Always Instruction.KeepsPower d (fun _ d' => d' = d) fun e d' =>
      d' = d ∧ (e.cause = .timeout → e = .timeout) := by
  have unheard (error : BusError) : (DriverError.bus error).cause = .timeout →
      DriverError.bus error = .timeout := by rintro ⟨⟩
  simp only [ensureQuad, readStatus2, readStatus1, writeEnable, always_bind, always_ask,
    always_pure, always_ite, always_throw, Instruction.KeepsPower, true_and]
  refine ⟨fun _ => ⟨fun _ => ⟨fun _ => ⟨fun _ => ⟨fun _ => ?_, unheard⟩, unheard⟩, unheard⟩,
    fun _ => trivial⟩, unheard⟩
  refine always_awaitIdle.mono (fun _ looks => looks.plain.keepsPower) ?_ ?_
  · rintro _ _ rfl
    exact ⟨fun _ => ⟨fun _ => ⟨rfl, by rintro ⟨⟩⟩, fun _ => rfl⟩, fun error => ⟨rfl, unheard error⟩⟩
  · rintro e _ ⟨rfl, rfl | ⟨error, rfl⟩⟩
    · exact ⟨rfl, fun _ => rfl⟩
    · exact ⟨rfl, unheard error⟩

end Driver

end SerialFlash
