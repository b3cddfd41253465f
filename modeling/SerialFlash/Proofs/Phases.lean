import SerialFlash.Proofs.StateMachine
import SerialFlash.Proofs.Tracking

/-!
The order on the wires. Everything that changes the array or a status register goes out directly
behind a write enable that the chip has taken, nothing else does, and then the driver only looks
at the status until the chip is found idle, a look fails, or the wait is given up. An automaton
with three phases reads this off the events one by one. Between two operations it never stands
behind a write enable, and it only waits if the driver takes its chip for erasing, so an erase may
be begun by one operation and waited for by others with any calls in between.
-/

namespace SerialFlash

open Procedure

/-! ### Phases -/

/-- The opcodes of page programs, erases and status writes. -/
def writeOpcodes : List UInt8 :=
  [0x02, 0x32, 0x20, 0xD8, 0xC7, 0x01]

namespace Event

/-- A page program, an erase or a status write. -/
def writes : Event → Bool
  | exchanged request _ => writeOpcodes.contains request.opcode
  | returned _ => false

/-- A write enable that has succeeded. -/
def enables : Event → Bool
  | exchanged request (.ok _) => request.opcode == 0x06
  | _ => false

def succeeds : Event → Bool
  | exchanged _ (.ok _) => true
  | _ => false

/-- Sends nothing but a read of status register 1. -/
def looks : Event → Bool
  | exchanged request _ => request.opcode == 0x05
  | returned _ => true

/-- Ends a wait: a read of status register 1 that shows an idle chip or fails, or a timeout. -/
def endsWait : Event → Bool
  | exchanged request (.ok reply) =>
      request.opcode == 0x05 && !(StatusRegister.ofReply reply).isBusy
  | exchanged request (.error _) => request.opcode == 0x05
  | returned timedOut => timedOut

end Event

/-- Where the driver stands: nothing is under way, a write enable has been taken, or the chip is at
work. -/
inductive Phase where
  | free
  | enabled
  | waiting
  deriving DecidableEq

/-- The phase after an event that is in order. -/
def Phase.next : Phase → Event → Option Phase
  | free, e => if e.writes then none else if e.enables then some enabled else some free
  | enabled, e =>
      if e.writes then (if e.succeeds then some waiting else some free) else none
  | waiting, e =>
      if e.endsWait then some free else if e.looks then some waiting else none

namespace Phase

variable {l : Link} {i : Instruction} {k k' : Phase} {e : Event}

theorem free_or_waiting (rest : k ≠ .enabled) : k = .free ∨ k = .waiting := by
  cases k with
  | enabled => exact absurd rfl rest
  | free => exact .inl rfl
  | waiting => exact .inr rfl

/-- What does not write needs no write enable. -/
theorem next_free (passive : i.Passive) (other : i ≠ .writeEnable) (reply : Reply) :
    next .free (.exchanged (l.request i) reply) = some .free := by
  cases i with
  | writeEnable => exact absurd rfl other
  | writeStatus | programPage | eraseSector | eraseChip => exact passive.elim
  | readArray address length =>
    rcases l with _ | _ | ⟨_ | _ | _⟩ <;> cases reply <;> rfl
  | _ => cases reply <;> rfl

theorem next_free_looks (looks : i.Looks) (reply : Reply) :
    next .free (.exchanged (l.request i) reply) = some .free := by
  refine next_free looks.passive ?_ reply
  rintro rfl
  exact looks

/-- Looking at the chip keeps the phase free. -/
theorem looks_stays (k : Phase) (i : Instruction) (reply : Reply) (free : k = .free)
    (looks : i.Looks) :
    ∃ k', next k (.exchanged (l.request i) reply) = some k' ∧ k' = .free := by
  subst free
  exact ⟨.free, next_free_looks looks reply, rfl⟩

theorem next_enabled (active : ¬ i.Passive) (reply : Reply) :
    next .enabled (.exchanged (l.request i) reply) =
      some (match reply with
        | .ok _ => .waiting
        | .error _ => .free) := by
  cases i with
  | writeStatus | eraseChip => cases reply <;> rfl
  | programPage address data => rcases l with _ | _ | ⟨_ | _ | _⟩ <;> cases reply <;> rfl
  | eraseSector unit address => cases unit <;> cases reply <;> rfl
  | _ => exact absurd trivial active

theorem next_waiting (reply : Bytes) :
    next .waiting (.exchanged (l.request .readStatus1) (.ok reply)) =
      some (if (StatusRegister.ofReply reply).isBusy then .waiting else .free) := by
  have known : next .waiting (.exchanged (l.request .readStatus1) (.ok reply)) =
      if !(StatusRegister.ofReply reply).isBusy then some .free else some .waiting := rfl
  rw [known]
  cases (StatusRegister.ofReply reply).isBusy <;> rfl

/-- A look at the status is always in order but behind a write enable. -/
theorem next_readStatus1 (rest : k ≠ .enabled) (reply : Reply) :
    ∃ k', next k (.exchanged (l.request .readStatus1) reply) = some k' ∧ k' ≠ .enabled := by
  cases k with
  | enabled => exact absurd rfl rest
  | free => exact ⟨.free, next_free_looks (i := .readStatus1) trivial reply, nofun⟩
  | waiting =>
    cases reply with
    | error e => exact ⟨.free, rfl, nofun⟩
    | ok reply =>
      refine ⟨_, next_waiting reply, ?_⟩
      split <;> nofun

theorem next_waiting_error (e : BusError) :
    next .waiting (.exchanged (l.request .readStatus1) (.error e)) = some .free := rfl

end Phase

/-! ### Operations of a driver -/

namespace Driver

variable {α β : Type} {l : Link} {k : Phase} {d : Driver} {op : FlashM α}

/-- From a free phase the operation keeps to the order. A success leaves nothing to wait for, and a
failure only if it is a timeout. -/
def Orderly (l : Link) (op : FlashM α) (d : Driver) : Prop :=
  op.Tracks l (passPauses Phase.next) d .free (fun _ d' k => d' = d ∧ k = .free) fun e d' k =>
    d.FailsTo e d' ∧ (k = .free ∨ k = .waiting ∧ e.cause = .timeout)

namespace Orderly

/-- What settles only has to be looked at for its phases. -/
theorem of_settles {P : Instruction → Prop} (settles : Settles op P d)
    (tracks : op.Tracks l (passPauses Phase.next) d .free (fun _ _ k => k = .free) fun e _ k =>
      k = .free ∨ k = .waiting ∧ e.cause = .timeout) : Orderly l op d :=
  (Tracks.and tracks settles).mono (fun _ _ _ => And.symm) fun _ _ _ => And.symm

theorem of_looks (settles : Settles op Instruction.Looks d) : Orderly l op d := by
  have tracks := Always.tracks settles (Phase.looks_stays (l := l)) rfl
  exact of_settles settles (tracks.mono (fun _ _ _ => And.right) fun _ _ _ ended => .inl ended.2)

theorem pure (a : α) : Orderly l (Pure.pure a : FlashM α) d :=
  ⟨rfl, rfl⟩

theorem throw {e : DriverError BusError} (h : e.cause ≠ .timeout) :
    Orderly l (MonadExcept.throw e : FlashM α) d :=
  ⟨failsTo_of_cause h, .inl rfl⟩

theorem bind {f : α → FlashM β} (first : Orderly l op d) (rest : ∀ a, Orderly l (f a) d) :
    Orderly l (op >>= f) d :=
  Tracks.bind_same first rest

end Orderly

/-- A wait ends with the phase, unless it is given up. -/
theorem tracks_awaitIdleWithin (options : DriverOptions) (polls : Nat) :
    (awaitIdleWithin options polls).Tracks l (passPauses Phase.next) d .waiting
      (fun _ _ k => k = .free) fun e _ k => k = .free ∨ k = .waiting ∧ e.cause = .timeout := by
  induction polls with
  | zero => exact .inr ⟨rfl, rfl⟩
  | succ polls ih =>
    have poll : (do
        let status ← readStatus1
        if status.isBusy then awaitIdleWithin options polls : FlashM Unit).Tracks l
          (passPauses Phase.next) d .waiting (fun _ _ k => k = .free) fun e _ k =>
            k = .free ∨ k = .waiting ∧ e.cause = .timeout := by
      simp only [readStatus1, tracks_bind, tracks_ask, tracks_ite, tracks_pure]
      refine ⟨fun reply => ⟨_, Phase.next_waiting reply, fun busy => ?_, fun idle => ?_⟩, fun e =>
        ⟨_, Phase.next_waiting_error e, .inl rfl⟩⟩
      · rw [if_pos busy]
        exact ih
      · rw [if_neg idle]
    rw [awaitIdleWithin, tracks_ite, tracks_bind, tracks_sleep]
    exact ⟨fun _ => poll, fun _ => poll⟩

theorem tracks_awaitIdle :
    awaitIdle.Tracks l (passPauses Phase.next) d .waiting (fun _ _ k => k = .free) fun e _ k =>
      k = .free ∨ k = .waiting ∧ e.cause = .timeout := by
  rw [awaitIdle, tracks_bind, tracks_get]
  exact tracks_awaitIdleWithin _ _

/-- An instruction that writes, behind its write enable. -/
theorem tracks_enabled {i : Instruction} (active : ¬ i.Passive)
    {good : Bytes → Driver → Phase → Prop} {bad : DriverError BusError → Driver → Phase → Prop}
    (unheard : ∀ e, bad (.bus e) d .free) (sent : ∀ reply, good reply d .waiting) :
    writeEnable.Tracks l (passPauses Phase.next) d .free
      (fun _ d k => (ask i).Tracks l (passPauses Phase.next) d k good bad) bad := by
  simp only [writeEnable, tracks_bind, tracks_ask, tracks_pure]
  refine ⟨fun reply => ⟨.enabled, rfl, fun reply => ?_, fun e => ?_⟩, fun e => ⟨.free, rfl, ?_⟩⟩
  · exact ⟨.waiting, Phase.next_enabled active _, sent reply⟩
  · exact ⟨.free, Phase.next_enabled active _, unheard e⟩
  · exact unheard e

/-- A write of its own, from its write enable to the end of its wait. -/
theorem tracks_awaited {i : Instruction} (active : ¬ i.Passive) :
    (do
      writeEnable
      let _ ← ask i
      awaitIdle : FlashM Unit).Tracks l (passPauses Phase.next) d .free (fun _ _ k => k = .free)
        fun e _ k => k = .free ∨ k = .waiting ∧ e.cause = .timeout := by
  simp only [tracks_bind]
  exact tracks_enabled active (fun _ => .inl rfl) fun _ => tracks_awaitIdle

theorem tracks_programPieces (done : Nat) (pieces : List Piece) :
    (programPieces done pieces).Tracks l (passPauses Phase.next) d .free (fun _ _ k => k = .free)
      fun e _ k => k = .free ∨ k = .waiting ∧ e.cause = .timeout := by
  induction pieces generalizing done d with
  | nil => exact rfl
  | cons p rest ih =>
    rw [programPieces, tracks_bind, tracks_tryCatch]
    refine (tracks_awaited (i := .programPage p.address p.data) id).mono ?_ ?_
    · rintro _ d' _ rfl
      exact ih _
    · rintro e _ k ended
      rw [tracks_throw]
      split
      · exact ended
      · exact ended

theorem orderly_program (offset : Nat) (data : Bytes) : Orderly l (program offset data) d := by
  refine .of_settles (settles_program offset data) ?_
  simp only [program, tracks_bind, tracks_guardReady, tracks_get, tracks_ite, tracks_throw,
    tracks_setState, tracks_resting]
  exact ⟨fun _ => ⟨fun _ => tracks_programPieces _ _, fun _ => .inl trivial⟩, fun _ => .inl trivial⟩

/-! ### Erases -/

/-- An erase that has begun has the chip at work, and the driver knows. -/
theorem tracks_beginErase {i : Instruction} (plain : i.Plain) (active : ¬ i.Passive) :
    (beginErase i).Tracks l (passPauses Phase.next) d .free
      (fun _ d' k => k = .waiting ∧ d.state = .ready ∧ d' = { d with state := .erasing })
      fun e d' k => k = .free ∧ d' = d ∧ e.cause ≠ .timeout := by
  have tracks : (beginErase i).Tracks l (passPauses Phase.next) d .free (fun _ _ k => k = .waiting)
      fun _ _ k => k = .free := by
    simp only [beginErase, tracks_bind, tracks_guardReady, tracks_setState]
    exact ⟨fun _ => tracks_enabled active (fun _ => rfl) fun _ => rfl, fun _ => trivial⟩
  exact tracks.and (always_beginErase plain)

theorem tracks_beginEraseSector (sector : Nat) :
    (beginEraseSector sector).Tracks l (passPauses Phase.next) d .free
      (fun _ d' k => k = .waiting ∧ d.state = .ready ∧ d' = { d with state := .erasing })
      fun e d' k => k = .free ∧ d' = d ∧ e.cause ≠ .timeout := by
  rw [beginEraseSector, tracks_bind, tracks_guardReady]
  refine ⟨fun ready => ?_, fun _ => ⟨rfl, rfl, by rintro ⟨⟩⟩⟩
  simp only [sectorStart, tracks_bind, tracks_get]
  split
  · exact tracks_beginErase trivial id
  · exact ⟨rfl, rfl, by rintro ⟨⟩⟩

/-- A question about an erase that finds it over ends the wait. -/
theorem tracks_eraseProgress_of_erasing (erasing : d.state = .erasing) (rest : k ≠ .enabled) :
    eraseProgress.Tracks l (passPauses Phase.next) d k
      (fun progress d' k' =>
        match progress with
        | .done => k' = .free ∧ d' = { d with state := .ready }
        | .running _ => k' ≠ .enabled ∧ d' = d)
      fun e d' k' => k' = .free ∧ d' = { d with state := .ready } ∧ e.cause ≠ .timeout := by
  simp only [eraseProgress, tracks_bind, tracks_get, erasing, tracks_liftM_ask]
  rintro (e | reply)
  · cases k with
    | enabled => exact absurd rfl rest
    | free | waiting => exact ⟨.free, rfl, rfl, rfl, by rintro ⟨⟩⟩
  · simp only [tracks_ite, tracks_pure, tracks_bind, tracks_setState]
    cases k with
    | enabled => exact absurd rfl rest
    | free => exact ⟨.free, rfl, fun _ => ⟨by rintro ⟨⟩, trivial⟩, fun _ => ⟨rfl, trivial⟩⟩
    | waiting =>
      refine ⟨_, Phase.next_waiting reply, fun busy => ?_, fun idle => ?_⟩
      · rw [if_pos busy]
        exact ⟨by rintro ⟨⟩, trivial⟩
      · rw [if_neg idle]
        exact ⟨rfl, trivial⟩

theorem tracks_finishWithin_of_erasing (erasing : d.state = .erasing) (remaining : Nat)
    (rest : k ≠ .enabled) :
    (finishWithin remaining).Tracks l (passPauses Phase.next) d k (fun _ _ k' => k' = .free)
      fun e _ k' => k' = .free ∨ k' = .waiting ∧ e.cause = .timeout := by
  induction remaining generalizing k with
  | zero =>
    rw [finishWithin, tracks_bind]
    refine (tracks_eraseProgress_of_erasing erasing rest).mono ?_ fun _ _ _ ended => .inl ended.1
    intro progress d' k' ended
    cases progress with
    | done => exact ended.1
    | running _ =>
      rw [tracks_resting, tracks_throw]
      exact (Phase.free_or_waiting ended.1).imp_right fun waiting => ⟨waiting, rfl⟩
  | succ remaining ih =>
    rw [finishWithin, tracks_bind]
    refine (tracks_eraseProgress_of_erasing erasing rest).mono ?_ fun _ _ _ ended => .inl ended.1
    intro progress d' k' ended
    cases progress with
    | done => exact ended.1
    | running retryAfter =>
      obtain ⟨rest', rfl⟩ := ended
      simp only [tracks_bind, tracks_sleep]
      exact ih rest'

/-- The wait for an erase ends with the phase, unless it is given up. -/
theorem tracks_finishErase_of_erasing (erasing : d.state = .erasing) (rest : k ≠ .enabled) :
    finishErase.Tracks l (passPauses Phase.next) d k
      (fun _ d' k' => k' = .free ∧ d' = { d with state := .ready })
      fun e d' k' => (k' = .free ∨ k' = .waiting ∧ e.cause = .timeout) ∧
        d' = { d with state := if e.cause = .timeout then .failed else .ready } ∧
        (e.cause = .timeout → e = .timeout) := by
  have tracks : finishErase.Tracks l (passPauses Phase.next) d k (fun _ _ k' => k' = .free)
      fun e _ k' => k' = .free ∨ k' = .waiting ∧ e.cause = .timeout := by
    rw [finishErase, tracks_bind, tracks_get]
    exact tracks_finishWithin_of_erasing erasing _ rest
  exact tracks.and (always_finishErase_of_erasing erasing)

/-- From its start to its end an erase is in order. -/
theorem orderly_eraseToEnd {begins : FlashM Unit}
    (begun : begins.Tracks l (passPauses Phase.next) d .free
      (fun _ d' k => k = .waiting ∧ d.state = .ready ∧ d' = { d with state := .erasing })
      fun e d' k => k = .free ∧ d' = d ∧ e.cause ≠ .timeout) :
    Orderly l (do begins; finishErase) d := by
  rw [Orderly, tracks_bind]
  refine begun.mono ?_ ?_
  · rintro _ _ _ ⟨rfl, ready, rfl⟩
    have waited := tracks_finishErase_of_erasing (l := l) (k := .waiting)
      (d := { d with state := .erasing }) rfl nofun
    refine waited.mono ?_ ?_
    · rintro _ _ _ ⟨rfl, rfl⟩
      exact ⟨by rw [← ready], rfl⟩
    · rintro e _ k ⟨phase, rfl, -⟩
      exact ⟨failsTo_rest ready e, phase⟩
  · rintro e _ _ ⟨rfl, rfl, cause⟩
    exact ⟨failsTo_of_cause cause, .inl rfl⟩

theorem orderly_eraseFrom (units offset : Nat) : Orderly l (Nor.eraseFrom units offset) d := by
  induction units generalizing offset with
  | zero => exact .pure _
  | succ units ih =>
    have erased := orderly_eraseToEnd (l := l) (d := d)
      (tracks_beginErase (i := .eraseSector .sector4K offset) trivial id)
    have both := erased.bind fun _ => ih (Word32.satAdd offset Nor.eraseSize)
    rwa [bind_assoc] at both

theorem orderly_norErase (start stop : Nat) : Orderly l (Nor.erase start stop) d := by
  simp only [Orderly, Nor.erase, tracks_bind, tracks_get, tracks_ite, tracks_throw]
  exact ⟨fun _ => ⟨failsTo_outOfBounds, .inl trivial⟩,
    fun _ => ⟨fun _ => orderly_eraseFrom _ _, fun _ => ⟨failsTo_misaligned, .inl trivial⟩⟩⟩

theorem orderly_eraseRun (verify : Bool) (count sector : Nat) :
    Orderly l (Disk.eraseRun verify count sector) d := by
  induction count generalizing sector with
  | zero => exact .pure _
  | succ count ih =>
    have erased := orderly_eraseToEnd (tracks_beginEraseSector (l := l) (d := d) sector)
    have both := erased.bind fun _ => show Orderly l (do
        if verify then checkErased sector
        Disk.eraseRun verify count (sector + 1)) d by
      cases verify with
      | false => exact ih _
      | true => exact (Orderly.of_looks (settles_checkErased sector)).bind fun _ => ih _
    rwa [bind_assoc] at both

theorem orderly_eraseUnder (perSector sector : Nat) (verify : Bool) :
    Orderly l (Disk.eraseUnder perSector sector verify) d := by
  unfold Disk.eraseUnder
  split
  · exact .throw nofun
  · exact (orderly_eraseRun _ _ _).bind fun _ => .of_looks (.sectorStart _)

theorem orderly_replaceSector (perSector sector : Nat) (data : Bytes) :
    Orderly l (Disk.replaceSector perSector sector data) d :=
  (orderly_eraseUnder _ _ _).bind fun _ => orderly_program _ _

/-! ### Identification -/

/-- An instruction that needs no write enable. -/
theorem tracks_ask_free {i : Instruction} (passive : i.Passive) (other : i ≠ .writeEnable)
    {good : Bytes → Driver → Phase → Prop} {bad : DriverError BusError → Driver → Phase → Prop}
    (answered : ∀ reply, good reply d .free) (unheard : ∀ e, bad (.bus e) d .free) :
    (ask i).Tracks l (passPauses Phase.next) d .free good bad :=
  tracks_ask.mpr ⟨fun reply => ⟨.free, Phase.next_free passive other _, answered reply⟩,
    fun e => ⟨.free, Phase.next_free passive other _, unheard e⟩⟩

theorem tracks_ensureQuad :
    ensureQuad.Tracks l (passPauses Phase.next) d .free (fun _ _ k => k = .free) fun e _ k =>
      k = .free ∨ k = .waiting ∧ e.cause = .timeout := by
  simp only [ensureQuad, readStatus2, readStatus1, tracks_bind, tracks_pure, tracks_ite,
    tracks_throw]
  refine tracks_ask_free (i := .readStatus2) trivial (by simp)
    (fun second => ⟨fun _ => ?_, fun _ => ?_⟩) fun _ => .inl rfl
  · refine tracks_ask_free (i := .readStatus1) trivial (by simp) (fun first => ?_) fun _ => .inl rfl
    refine tracks_enabled id (fun _ => .inl rfl) fun _ => ?_
    refine tracks_awaitIdle.mono ?_ fun _ _ _ ended => ended
    rintro _ d' _ rfl
    exact tracks_ask_free (i := .readStatus2) trivial (by simp)
      (fun latched => ⟨fun _ => .inl rfl, fun _ => rfl⟩) fun _ => .inl rfl
  · trivial

theorem tracks_identify :
    identify.Tracks l (passPauses Phase.next) d .free (fun _ _ k => k = .free) fun e _ k =>
      k = .free ∨ k = .waiting ∧ e.cause = .timeout := by
  simp only [identify, tracks_bind, tracks_get, tracks_ite, tracks_throw, tracks_modify]
  refine ⟨fun _ => .inl trivial, fun _ => ?_⟩
  refine tracks_ask_free (i := .readId) trivial (by simp) (fun reply => ?_) fun _ => .inl rfl
  split
  · exact .inl rfl
  · simp only [tracks_bind, tracks_get, tracks_ite, tracks_tryCatch, tracks_modify, tracks_pure]
    refine ⟨fun _ => tracks_ensureQuad.mono (fun _ _ _ ended => ended) fun e d' k ended => ?_,
      fun _ => trivial⟩
    exact ended

end Driver

namespace Phase

variable {k : Phase} {d : Driver}

/-- The driver knows of everything that is under way. -/
def Suits (k : Phase) (d : Driver) : Prop :=
  k = .free ∨ k = .waiting ∧ d.state = .erasing

theorem Suits.ne_enabled (h : k.Suits d) : k ≠ .enabled := by
  rcases h with rfl | ⟨rfl, -⟩ <;> nofun

theorem suits_of_erasing (rest : k ≠ .enabled) (erasing : d.state = .erasing) : k.Suits d :=
  (free_or_waiting rest).imp_right fun waiting => ⟨waiting, erasing⟩

end Phase

namespace FlashOperation

variable {l : Link} {k : Phase} {d : Driver}

/-- A driver that is not ready only looks at the status, unless it is to identify its chip, to ask
for the end of an erase or to wake the chip up. -/
theorem always_run_of_unready {operation : FlashOperation} (identify : operation ≠ .identify)
    (asks : ¬ operation.Asks) (release : operation ≠ .releasePowerDown)
    (unready : d.state ≠ .ready) :
    operation.run.Always (· = .readStatus1) d (fun _ d' => d' = d) fun _ d' => d' = d := by
  have refused {α β : Type} (f : α → β) (op : FlashM α) :
      (f <$> do Driver.guardReady; op).Always (· = Instruction.readStatus1) d
        (fun _ d' => d' = d) fun _ d' => d' = d := by
    simp [unready]
  cases operation with
  | identify => exact absurd rfl identify
  | eraseProgress | finishErase => exact absurd trivial asks
  | releasePowerDown => exact absurd rfl release
  | status | isProtected =>
    simp [run, Driver.isProtected, Driver.readStatus1]
  | norErase start stop =>
    simp only [run, silent, Nor.erase, always_map, always_bind, always_get, always_ite,
      always_throw]
    refine ⟨fun _ => trivial, fun _ => ⟨fun _ => ?_, fun _ => trivial⟩⟩
    cases (stop - start) / Nor.eraseSize with
    | zero => exact rfl
    | succ units => simp [Nor.eraseFrom, Driver.beginErase, unready]
  | _ => exact refused _ _

/-- While an erase runs, an operation that does not ask for its end only looks at the status. -/
theorem always_run_of_erasing {operation : FlashOperation} (other : ¬ operation.Asks)
    (erasing : d.state = .erasing) :
    operation.run.Always (· = .readStatus1) d (fun _ d' => d' = d) fun _ d' => d' = d := by
  have unready : d.state ≠ .ready := by rw [erasing]; nofun
  by_cases identify : operation = .identify
  · subst identify
    simp only [run, Driver.identify, always_map, always_bind, always_get, erasing, if_true,
      always_throw]
  by_cases release : operation = .releasePowerDown
  · subst release
    simp [run, silent, Driver.leavePowerDown, erasing]
  exact always_run_of_unready identify other release unready

/-- With an erase running. -/
theorem tracks_run_of_erasing (operation : FlashOperation) (erasing : d.state = .erasing)
    (rest : k ≠ .enabled) :
    operation.run.Tracks l (passPauses Phase.next) d k (fun _ d' k' => k'.Suits d') fun e d' k' =>
      k'.Suits d' ∨ k' = .waiting ∧ e.cause = .timeout := by
  by_cases asks : operation.Asks
  · cases operation with
    | eraseProgress =>
      rw [run, tracks_map]
      refine (Driver.tracks_eraseProgress_of_erasing erasing rest).mono ?_ ?_
      · intro progress d' k' ended
        cases progress with
        | done => exact .inl ended.1
        | running _ =>
          obtain ⟨rest', rfl⟩ := ended
          exact Phase.suits_of_erasing rest' erasing
      · rintro _ _ _ ⟨free, -⟩
        exact .inl (.inl free)
    | finishErase =>
      rw [run, silent, tracks_map]
      refine (Driver.tracks_finishErase_of_erasing erasing rest).mono ?_ ?_
      · rintro _ _ _ ⟨free, -⟩
        exact .inl free
      · rintro _ _ _ ⟨phase, -⟩
        exact phase.imp_left .inl
    | _ => exact asks.elim
  · have stays (k : Phase) (i : Instruction) (reply : Reply) (rest : k ≠ .enabled)
        (looks : i = .readStatus1) :
        ∃ k', Phase.next k (.exchanged (l.request i) reply) = some k' ∧ k' ≠ .enabled := by
      subst looks
      exact Phase.next_readStatus1 rest reply
    refine ((always_run_of_erasing asks erasing).tracks stays rest).mono ?_ ?_
    · rintro _ _ _ ⟨rfl, rest'⟩
      exact Phase.suits_of_erasing rest' erasing
    · rintro _ _ _ ⟨rfl, rest'⟩
      exact .inl (Phase.suits_of_erasing rest' erasing)

/-- What is in order suits its driver at the end. -/
theorem tracks_of_orderly {α : Type} {op : FlashM α} {f : α → FlashValue}
    (orderly : Driver.Orderly l op d) :
    (f <$> op).Tracks l (passPauses Phase.next) d .free (fun _ d' k' => k'.Suits d') fun e d' k' =>
      k'.Suits d' ∨ k' = .waiting ∧ e.cause = .timeout := by
  rw [tracks_map]
  refine Tracks.mono orderly ?_ ?_
  · rintro _ _ _ ⟨-, free⟩
    exact .inl free
  · rintro _ _ _ ⟨-, phase⟩
    exact phase.imp_left .inl

theorem tracks_of_begun {op : FlashM Unit}
    (begun : op.Tracks l (passPauses Phase.next) d .free
      (fun _ d' k => k = .waiting ∧ d.state = .ready ∧ d' = { d with state := .erasing })
      fun e d' k => k = .free ∧ d' = d ∧ e.cause ≠ .timeout) :
    (silent op).Tracks l (passPauses Phase.next) d .free (fun _ d' k' => k'.Suits d') fun e d' k' =>
      k'.Suits d' ∨ k' = .waiting ∧ e.cause = .timeout := by
  rw [silent, tracks_map]
  refine begun.mono ?_ ?_
  · rintro _ _ _ ⟨rfl, -, rfl⟩
    exact .inr ⟨rfl, rfl⟩
  · rintro _ _ _ ⟨rfl, -⟩
    exact .inl (.inl rfl)

/-- An operation keeps to the order, and leaves nothing to be waited for behind the back of its
driver, unless it has given up the wait. -/
theorem tracks_run (operation : FlashOperation) (rest : d.state.AtRest) (suits : k.Suits d) :
    operation.run.Tracks l (passPauses Phase.next) d k (fun _ d' k' => k'.Suits d') fun e d' k' =>
      k'.Suits d' ∨ k' = .waiting ∧ e.cause = .timeout := by
  by_cases erasing : d.state = .erasing
  · exact operation.tracks_run_of_erasing erasing suits.ne_enabled
  obtain rfl := suits.resolve_right fun waiting => erasing waiting.2
  cases operation with
  | identify =>
    rw [run, tracks_map]
    refine Driver.tracks_identify.mono (fun _ _ _ => .inl) fun _ _ _ => ?_
    exact Or.imp_left .inl
  | read offset length | norRead offset length =>
    exact tracks_of_orderly (.of_looks (Driver.settles_read offset length))
  | program offset data | norWrite offset data =>
    exact tracks_of_orderly (Driver.orderly_program offset data)
  | eraseAll => exact tracks_of_begun (Driver.tracks_beginErase trivial id)
  | eraseSector sector => exact tracks_of_begun (Driver.tracks_beginEraseSector sector)
  | eraseProgress =>
    have asked := Driver.always_eraseProgress_of_not_erasing rest erasing
    refine tracks_of_orderly (.of_looks (asked.imp (fun _ _ => And.right) ?_))
    rintro e _ ⟨rfl, cause⟩
    exact Driver.failsTo_of_cause cause
  | finishErase =>
    exact tracks_of_orderly (.of_looks (Driver.settles_finishErase rest erasing))
  | verify sector => exact tracks_of_orderly (.of_looks (Driver.settles_checkErased sector))
  | status =>
    exact tracks_of_orderly (.of_looks ((Driver.Settles.ask (i := .readStatus1) trivial).bind
      fun _ => .pure _))
  | isProtected => exact tracks_of_orderly (.of_looks Driver.settles_isProtected)
  | uniqueId =>
    exact tracks_of_orderly (.of_looks (.guardReady fun _ =>
      (Driver.Settles.ask (i := .readUniqueId) trivial).bind fun _ => .pure _))
  | powerDown =>
    simp only [run, silent, Driver.enterPowerDown, tracks_map, tracks_bind,
      Driver.tracks_guardReady, Driver.tracks_setState]
    exact ⟨fun _ => Driver.tracks_ask_free (i := .powerDown) trivial (by simp) (fun _ => .inl rfl)
      fun _ => .inl (.inl rfl), fun _ => .inl (.inl rfl)⟩
  | releasePowerDown =>
    simp only [run, silent, Driver.leavePowerDown, tracks_map, tracks_bind, tracks_get]
    split
    · simp only [tracks_bind, tracks_sleep, Driver.tracks_setState]
      exact Driver.tracks_ask_free (i := .releasePowerDown) trivial (by simp) (fun _ => .inl rfl)
        fun _ => .inl (.inl rfl)
    · exact .inl (.inl rfl)
  | norErase start stop => exact tracks_of_orderly (Driver.orderly_norErase start stop)

end FlashOperation

/-! ### Disks -/

namespace Disk

variable {α β : Type} {l : Link} {d : Disk} {op : DiskM α}

/-- From a free phase the operation keeps to the order. Only a flash that has been given up leaves
something to wait for. -/
def Orderly (l : Link) (op : DiskM α) (d : Disk) : Prop :=
  op.Tracks l (passPauses Phase.next) d .free (fun _ d' k => d' = d ∧ k = .free) fun _ d' k =>
    k = .free ∨ k = .waiting ∧ d.flash.state = .ready ∧ d'.flash.state = .failed

namespace Orderly

theorem of_looks (settles : Settles op Instruction.Looks d) : Orderly l op d := by
  exact (Always.tracks settles Phase.looks_stays rfl).mono (fun _ _ _ => id)
    fun _ _ _ ended => .inl ended.2

theorem pure (a : α) : Orderly l (Pure.pure a : DiskM α) d :=
  ⟨rfl, rfl⟩

theorem bind {f : α → DiskM β} (first : Orderly l op d) (rest : ∀ a, Orderly l (f a) d) :
    Orderly l (op >>= f) d :=
  Tracks.bind_same first rest

end Orderly

/-- The rule for an operation of the flash after whose failure nothing is sent. -/
theorem orderly_onFlash {op : FlashM α} (h : Driver.Orderly l op d.flash)
    {f : Except (DriverError BusError) α → DiskM β} (done : ∀ a, Orderly l (f (.ok a)) d)
    (failed : ∀ e, ∃ error, f (.error e) = throw error) :
    Orderly l (do let result ← (liftM (onFlash op) : DiskM _); f result) d := by
  rw [Orderly, tracks_bind, Driver.tracks_onFlash]
  refine Tracks.mono h ?_ ?_
  · rintro a _ _ ⟨rfl, rfl⟩
    exact done a
  · rintro e flash k ⟨fails, phase⟩
    obtain ⟨error, thrown⟩ := failed e
    rw [thrown, tracks_throw]
    refine phase.imp_right fun waiting => ⟨waiting.1, ?_⟩
    rw [Driver.FailsTo, if_pos waiting.2] at fails
    exact ⟨fails.1, by rw [fails.2]⟩

theorem orderly_writeFrom (completed count sector : Nat) (data : Bytes) :
    Orderly l (writeFrom completed count sector data) d := by
  induction count generalizing completed sector data with
  | zero => exact .pure _
  | succ count ih =>
    rw [Orderly, writeFrom, tracks_bind, tracks_get]
    exact orderly_onFlash (Driver.orderly_replaceSector _ _ _) (fun _ => ih _ _ _)
      fun _ => ⟨_, rfl⟩

theorem orderly_write (start : Nat) (data : Bytes) : Orderly l (write start data) d :=
  (Orderly.of_looks settles_guardReady).bind fun _ =>
    (Orderly.of_looks (settles_guardSpan _ _)).bind fun _ =>
      (Orderly.of_looks settles_guardWritable).bind fun _ =>
        (orderly_writeFrom _ _ _ _).bind fun _ => .pure _

theorem orderly_trimFrom (completed count sector : Nat) :
    Orderly l (trimFrom completed count sector) d := by
  induction count generalizing completed sector with
  | zero => exact .pure _
  | succ count ih =>
    rw [Orderly, trimFrom, tracks_bind, tracks_get]
    exact orderly_onFlash (Driver.orderly_eraseUnder _ _ _) (fun _ => ih _ _) fun _ => ⟨_, rfl⟩

theorem orderly_trim (start stop : Nat) : Orderly l (trim start stop) d := by
  rw [Orderly, trim, tracks_bind, tracks_get, tracks_ite]
  exact ⟨fun _ => .inl rfl, fun _ => (Orderly.of_looks settles_guardWritable).bind
    fun _ => orderly_trimFrom _ _ _⟩

theorem orderly_control (command : DiskCommand) : Orderly l (control command) d := by
  refine (Orderly.of_looks settles_guardReady).bind fun _ => ?_
  cases command with
  | sync => exact .pure _
  | sectorCount | sectorSize | blockSize => exact ⟨rfl, rfl⟩
  | trim start stop => exact (orderly_trim start stop).bind fun _ => .pure _

end Disk

namespace DiskOperation

variable {l : Link} {k : Phase} {d : Disk}

/-- Over a flash that is not ready nothing is sent. -/
theorem always_run_of_unready (operation : DiskOperation) (unready : d.flash.state ≠ .ready) :
    (liftM operation.run : DiskM DiskOutcome).Always (fun _ => False) d (fun _ d' => d' = d)
      fun _ _ => False := by
  have refused {α β : Type} (f : Except DiskError β → α) (op : DiskM β) :
      (liftM (f <$> ExceptT.run (do Disk.guardReady; op) : StateT Disk Script α) : DiskM α).Always
        (fun _ => False) d (fun _ d' => d' = d) fun _ _ => False := by
    rw [always_liftM_run]
    simp only [Disk.guardReady, always_bind, always_get, always_ite, always_pure, always_throw]
    exact ⟨fun ready => absurd ready unready, fun _ => trivial⟩
  cases operation with
  | geometry => exact rfl
  | status | startUp =>
    rw [run, map_eq_pure_bind, always_liftM_bind, Disk.status, always_liftM_bind]
    show Always (liftM (if d.flash.state = .ready then _ else _)) _ d _ _
    rw [if_neg unready]
    exact rfl
  | read | write | control => exact refused _ _

/-- The same for operations of a disk. -/
theorem tracks_run (operation : DiskOperation) (suits : k.Suits d.flash) :
    (liftM operation.run : DiskM DiskOutcome).Tracks l (passPauses Phase.next) d k
      (fun _ d' k' => k'.Suits d'.flash ∨
        k' = .waiting ∧ d.flash.state = .ready ∧ d'.flash.state = .failed)
      fun _ _ _ => False := by
  by_cases ready : d.flash.state = .ready
  · obtain rfl := suits.resolve_right fun waiting => nomatch ready.symm.trans waiting.2
    have wrapped {α : Type} {op : DiskM α} (f : Except DiskError α → DiskOutcome)
        (orderly : Disk.Orderly l op d) :
        (liftM (f <$> ExceptT.run op) : DiskM DiskOutcome).Tracks l (passPauses Phase.next) d .free
          (fun _ d' k' => k'.Suits d'.flash ∨
            k' = .waiting ∧ d.flash.state = .ready ∧ d'.flash.state = .failed)
          fun _ _ _ => False := by
      rw [tracks_liftM_run]
      exact Tracks.mono orderly (fun _ _ _ ended => .inl (.inl ended.2))
        fun _ _ _ => Or.imp_left .inl
    cases operation with
    | geometry => exact .inl (.inl rfl)
    | status | startUp =>
      have asked : (liftM (DiskOperation.run .status) : DiskM DiskOutcome).Always Instruction.Looks
          d (fun _ => d.Survives) fun _ _ => False := by
        rw [run, map_eq_pure_bind, always_liftM_bind]
        exact Disk.always_status.imp (fun _ _ survives => survives) fun _ _ => id
      exact (asked.tracks Phase.looks_stays rfl).mono (fun _ _ _ ended => .inl (.inl ended.2))
        fun _ _ _ => And.left
    | read start length => exact wrapped .read (.of_looks (Disk.settles_read _ _))
    | write start data => exact wrapped .write (Disk.orderly_write _ _)
    | control command => exact wrapped .control (Disk.orderly_control _)
  · have idle (k' : Phase) (i : Instruction) (reply : Reply) (_ : k' = k) (never : False) :
        ∃ k'', Phase.next k' (.exchanged (l.request i) reply) = some k'' ∧ k'' = k := never.elim
    refine ((operation.always_run_of_unready ready).tracks idle rfl).mono ?_ fun _ _ _ => And.left
    rintro _ _ _ ⟨rfl, rfl⟩
    exact .inl suits

end DiskOperation

end SerialFlash
