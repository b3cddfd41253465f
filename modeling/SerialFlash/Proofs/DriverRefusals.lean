import SerialFlash.Proofs.EraseWaits
import SerialFlash.Proofs.Links
import SerialFlash.Proofs.Speech

/-!
What a driver refuses. Before anything is sent an operation is refused for the state of the driver,
for a place that is not on the device, or for one that is not aligned, and which of these it is can
be read off a table that knows no words and no overflow. Behind these checks nothing ends in such an
error any more, also not a step of an operation that checks again. What is refused, and what has
nothing to do, leaves everything as it was.
-/

namespace SerialFlash

open Procedure

/-- The operation has not been tried. -/
def DriverError.IsRefusal {ε : Type} : DriverError ε → Prop
  | busy _ | outOfBounds | misaligned => True
  | _ => False

/-! ### The table -/

namespace Driver

/-- Only a ready driver looks any further. -/
def refusalUnlessReady (d : Driver) (further : Option (DriverError BusError)) :
    Option (DriverError BusError) :=
  if d.state = .ready then further else some (.busy d.state)

/-- The range has to lie on the device. -/
def refusalOutside (d : Driver) (offset length : Nat) : Option (DriverError BusError) :=
  if d.layout.size < offset + length then some .outOfBounds else none

/-- The sector has to be on the device. -/
def refusalBeyond (d : Driver) (sector : Nat) : Option (DriverError BusError) :=
  if d.layout.sectorCount ≤ sector then some .outOfBounds else none

end Driver

namespace FlashOperation

/-- What the driver refuses an operation with, if it does. -/
def refusal? (d : Driver) : FlashOperation → Option (DriverError BusError)
  | read offset length | norRead offset length =>
      d.refusalUnlessReady (d.refusalOutside offset length)
  | program offset data | norWrite offset data =>
      d.refusalUnlessReady (d.refusalOutside offset data.length)
  | eraseSector sector | verify sector => d.refusalUnlessReady (d.refusalBeyond sector)
  | eraseAll | uniqueId | powerDown => d.refusalUnlessReady none
  | eraseProgress | finishErase =>
      if d.state = .notReady ∨ d.state = .failed then some (.busy d.state) else none
  | identify => if d.state = .erasing then some (.busy d.state) else none
  | releasePowerDown =>
      if d.state = .notReady ∧ d.isIdentified = true then none else some (.busy d.state)
  | norErase start stop =>
      -- the readiness of the driver is asked for last, and by an empty range not at all
      if stop < start ∨ d.layout.size < stop then some .outOfBounds
      else if ¬ (4096 ∣ start ∧ 4096 ∣ stop) then some .misaligned
      else if start = stop then none
      else d.refusalUnlessReady none
  | status | isProtected => none

/-- Has nothing to do. -/
def Vacuous : FlashOperation → Prop
  | read _ length | norRead _ length => length = 0
  | program _ data | norWrite _ data => data = []
  | norErase start stop => start = stop
  | _ => False

theorem isRefusal_of_refusal? {d : Driver} {operation : FlashOperation} {e : DriverError BusError}
    (refused : operation.refusal? d = some e) : e.IsRefusal := by
  cases operation <;>
    grind [refusal?, Driver.refusalUnlessReady, Driver.refusalOutside, Driver.refusalBeyond,
      DriverError.IsRefusal]

end FlashOperation

/-! ### Behind the checks -/

namespace Driver

variable {α β : Type} {d : Driver} {op : FlashM α} {good : α → Driver → Prop}

/-- Whatever the replies, the operation ends in `good`, or fails in another way than to be
refused. -/
def Attempts (op : FlashM α) (d : Driver) (good : α → Driver → Prop) : Prop :=
  op.Always (fun _ => True) d good fun e _ => ¬ e.IsRefusal

theorem Attempts.weaken (h : Attempts op d good) : Attempts op d fun _ _ => True :=
  h.imp (fun _ _ _ => trivial) fun _ _ => id

theorem attempts_readStatus1 : Attempts readStatus1 d fun _ d' => d' = d := by
  simp [Attempts, readStatus1, DriverError.IsRefusal]

theorem attempts_awaitIdle : Attempts awaitIdle d fun _ _ => True := by
  refine always_awaitIdle.mono (fun _ _ => trivial) (fun _ _ _ => trivial) ?_
  rintro e d' ⟨-, rfl | ⟨_, rfl⟩⟩ <;> exact id

theorem attempts_programPieces (done : Nat) (pieces : List Piece) :
    Attempts (programPieces done pieces) d fun _ _ => True := by
  induction pieces generalizing done d with
  | nil => trivial
  | cons p rest ih =>
    have piece : Attempts (programPiece p) d fun _ _ => True := by
      simp only [Attempts, programPiece, writeEnable, always_bind, always_ask, always_pure]
      exact ⟨trivial, fun _ => ⟨trivial, fun _ => attempts_awaitIdle, fun _ => id⟩, fun _ => id⟩
    rw [Attempts, programPieces, always_bind, always_tryCatch]
    refine piece.imp (fun _ _ _ => ih _) fun e _ attempted => ?_
    rw [always_throw]
    split
    · exact attempted
    · exact id

theorem attempts_checkFrom (erased : UInt8) (step chunks offset : Nat) :
    Attempts (checkFrom erased step chunks offset) d fun _ _ => True := by
  induction chunks generalizing offset with
  | zero => trivial
  | succ chunks ih =>
    rw [Attempts, checkFrom, always_bind, always_ask]
    refine ⟨trivial, fun reply => ?_, fun _ => id⟩
    split
    · exact id
    · exact ih _

theorem attempts_beginErase (ready : d.state = .ready) (i : Instruction) :
    Attempts (beginErase i) d fun _ d' => d'.state = .erasing := by
  simp [Attempts, beginErase, writeEnable, ready, DriverError.IsRefusal]

/-- A question that finds the erase running leaves the driver alone. -/
theorem attempts_eraseProgress (awake : ¬ (d.state = .notReady ∨ d.state = .failed)) :
    Attempts eraseProgress d fun progress d' =>
      (progress = .done → d.state = .erasing → d'.state = .ready) ∧
        ∀ retryAfter, progress = .running retryAfter → d' = d := by
  rw [Attempts, eraseProgress, always_bind, always_get]
  cases state : d.state with
  | notReady => exact absurd (.inl state) awake
  | failed => exact absurd (.inr state) awake
  | ready | reading | programming =>
    refine ⟨fun _ erasing => ?_, fun _ running => ?_⟩
    · contradiction
    · contradiction
  | erasing =>
    simp only [always_bind, always_liftM_ask]
    refine ⟨trivial, fun reply => ?_⟩
    cases reply with
    | error e => exact id
    | ok reply =>
      simp only [always_ite, always_pure, always_bind, always_setState]
      refine ⟨fun _ => ⟨fun done => ?_, fun _ _ => trivial⟩,
        fun _ => ⟨fun _ _ => trivial, fun _ running => ?_⟩⟩
      · contradiction
      · contradiction

theorem attempts_finishErase (awake : ¬ (d.state = .notReady ∨ d.state = .failed)) :
    Attempts finishErase d fun _ d' => d.state = .erasing → d'.state = .ready := by
  suffices within : ∀ remaining, Attempts (finishWithin remaining) d fun _ d' =>
      d.state = .erasing → d'.state = .ready by
    rw [Attempts, finishErase, always_bind, always_get]
    exact within _
  intro remaining
  induction remaining with
  | zero =>
    rw [Attempts, finishWithin, always_bind]
    refine (attempts_eraseProgress awake).imp (fun progress d' ended => ?_) fun _ _ => id
    cases progress with
    | done => exact ended.1 rfl
    | running _ => exact (always_resting _).mpr id
  | succ remaining ih =>
    rw [Attempts, finishWithin, always_bind]
    refine (attempts_eraseProgress awake).imp (fun progress d' ended => ?_) fun _ _ => id
    cases progress with
    | done => exact ended.1 rfl
    | running retryAfter =>
      obtain rfl := ended.2 retryAfter rfl
      exact ih

/-- Between two units the driver is ready again. -/
theorem attempts_eraseFrom (ready : d.state = .ready) (units offset : Nat) :
    Attempts (Nor.eraseFrom units offset) d fun _ _ => True := by
  induction units generalizing d offset with
  | zero => trivial
  | succ units ih =>
    simp only [Attempts, Nor.eraseFrom, always_bind]
    refine (attempts_beginErase ready _).imp (fun _ d₁ erasing => ?_) fun _ _ => id
    refine (attempts_finishErase (by rw [erasing]; decide)).imp (fun _ d₂ ended => ?_) fun _ _ => id
    exact ih (ended erasing) _

theorem attempts_ensureQuad : Attempts ensureQuad d fun _ _ => True := by
  simp only [Attempts, ensureQuad, readStatus2, readStatus1, writeEnable, always_bind, always_ask,
    always_pure, always_ite, always_throw, true_and]
  refine ⟨fun _ => ⟨fun _ => ⟨fun _ => ⟨fun _ => ⟨fun _ => ?_, fun _ => id⟩, fun _ => id⟩,
    fun _ => id⟩, fun _ => trivial⟩, fun _ => id⟩
  refine attempts_awaitIdle.imp (fun _ _ _ => ?_) fun _ _ => id
  exact ⟨fun _ => ⟨fun _ => id, fun _ => trivial⟩, fun _ => id⟩

end Driver

/-! ### Every operation goes by the table -/

namespace FlashOperation

variable {α : Type} {d : Driver} {operation : FlashOperation} {op : FlashM α} {f : α → FlashValue}

/-- How an operation goes, whatever the replies: it is refused, it has nothing to do, or it is
tried. -/
inductive Gates (d : Driver) (operation : FlashOperation) :
    Script (Except (DriverError BusError) FlashValue × Driver) → Prop
  | refuse {e} (refused : operation.refusal? d = some e) : Gates d operation (.done (.error e, d))
  | pass {value} (admitted : operation.refusal? d = none) : Gates d operation (.done (.ok value, d))
  | attempt {script} (admitted : operation.refusal? d = none) (busy : ¬ operation.Vacuous)
      (ends : script.Always (fun _ => True) fun p => ∀ e, p.1 = .error e → ¬ e.IsRefusal) :
      Gates d operation script

theorem gates_attempt (admitted : operation.refusal? d = none) (busy : ¬ operation.Vacuous)
    (attempts : Driver.Attempts op d fun _ _ => True) :
    Gates d operation ((f <$> op).script d) := by
  have ends : (f <$> op).Always (fun _ => True) d (fun _ _ => True) fun e _ => ¬ e.IsRefusal :=
    (always_map f op).mpr attempts
  refine .attempt admitted busy (Script.Always.mono ends (fun _ => id) ?_)
  rintro ⟨e | v, d'⟩ ended e' same
  · cases same
    exact ended
  · nomatch same

/-- An operation that only a ready driver accepts. -/
theorem gates_of_ready {further : Option (DriverError BusError)}
    (table : operation.refusal? d = d.refusalUnlessReady further)
    (rest : d.state = .ready → operation.refusal? d = further →
      Gates d operation ((f <$> op).script d)) :
    Gates d operation ((f <$> do Driver.guardReady; op).script d) := by
  by_cases ready : d.state = .ready
  · have same : (f <$> do Driver.guardReady; op).script d = (f <$> op).script d := by
      simp [ready]
    rw [same]
    exact rest ready (by rw [table, Driver.refusalUnlessReady, if_pos ready])
  · have refused : (f <$> do Driver.guardReady; op).script d =
        .done (.error (.busy d.state), d) := by
      simp [ready]
    rw [refused]
    exact .refuse (by rw [table, Driver.refusalUnlessReady, if_neg ready])

section

variable (suits : d.layout.Suits d.options.eraseUnit)

include suits

/-- An operation on a range of the device. -/
theorem gates_of_inside {offset length : Nat}
    (table : operation.refusal? d = d.refusalOutside offset length)
    (rest : operation.refusal? d = none → Gates d operation ((f <$> op).script d)) :
    Gates d operation ((f <$> (do
      unless (← get).layout.covers offset length do
        throw .outOfBounds
      op : FlashM α)).script d) := by
  rw [script_map, script_bind, script_get, Script.done_bind, follow_ok]
  by_cases inside : offset + length ≤ d.layout.size
  · rw [suits.covers_iff.mpr inside]
    exact script_map f op d ▸
      rest (by rw [table, Driver.refusalOutside, if_neg (Nat.not_lt.mpr inside)])
  · rw [Bool.eq_false_iff.mpr fun covers => inside (suits.covers_iff.mp covers)]
    exact .refuse (by rw [table, Driver.refusalOutside, if_pos (Nat.lt_of_not_le inside)])

/-- An operation on a sector of the device. -/
theorem gates_of_sector {sector : Nat} {g : Nat → FlashM α}
    (table : operation.refusal? d = d.refusalBeyond sector)
    (rest : ∀ start, operation.refusal? d = none → Gates d operation ((f <$> g start).script d)) :
    Gates d operation ((f <$> do
      let start ← Driver.sectorStart sector
      g start).script d) := by
  by_cases inside : sector < d.layout.sectorCount
  · have same : (f <$> do
        let start ← Driver.sectorStart sector
        g start).script d = (f <$> g (sector * d.options.eraseUnit.size)).script d := by
      simp [Driver.sectorStart, suits.sectorStart?_eq inside]
    rw [same]
    exact rest _ (by rw [table, Driver.refusalBeyond, if_neg (Nat.not_le.mpr inside)])
  · have refused : (f <$> do
        let start ← Driver.sectorStart sector
        g start).script d = .done (.error .outOfBounds, d) := by
      simp [Driver.sectorStart, suits.sectorStart?_eq_ite, inside]
    rw [refused]
    exact .refuse (by rw [table, Driver.refusalBeyond, if_pos (Nat.le_of_not_lt inside)])

theorem gates_read {offset length : Nat}
    (table : operation.refusal? d = d.refusalUnlessReady (d.refusalOutside offset length))
    (vacuous : operation.Vacuous → length = 0) :
    Gates d operation ((FlashValue.bytes <$> Driver.read offset length).script d) := by
  refine gates_of_ready table fun ready refusal => gates_of_inside suits refusal fun admitted => ?_
  split
  · exact .pass admitted
  · next busy =>
    refine gates_attempt admitted (mt vacuous busy) ?_
    simp [Driver.Attempts, DriverError.IsRefusal]

theorem gates_program {offset : Nat} {data : Bytes}
    (table : operation.refusal? d = d.refusalUnlessReady (d.refusalOutside offset data.length))
    (vacuous : operation.Vacuous → data = []) :
    Gates d operation ((silent (Driver.program offset data)).script d) := by
  refine gates_of_ready table fun ready refusal => gates_of_inside suits refusal fun admitted => ?_
  by_cases busy : data = []
  · have nothing : ((fun _ => FlashValue.nothing) <$> do
        Driver.setState .programming
        Driver.resting (Driver.programPieces 0 (splitPages offset data))).script d =
          .done (.ok .nothing, d) := by
      subst busy
      simp [Driver.programPieces, Driver.restState, Except.map, ← ready]
    rw [nothing]
    exact .pass admitted
  · refine gates_attempt admitted (mt vacuous busy) ?_
    rw [Driver.Attempts, always_bind, Driver.always_setState, Driver.always_resting]
    exact Driver.attempts_programPieces _ _

theorem gates_sector {sector : Nat} {g : Nat → FlashM Unit}
    (table : operation.refusal? d = d.refusalUnlessReady (d.refusalBeyond sector))
    (busy : ¬ operation.Vacuous)
    (attempts : d.state = .ready → ∀ start, Driver.Attempts (g start) d fun _ _ => True) :
    Gates d operation ((silent do
      Driver.guardReady
      let start ← Driver.sectorStart sector
      g start).script d) :=
  gates_of_ready table fun ready refusal => gates_of_sector suits refusal fun start admitted =>
    gates_attempt admitted busy (attempts ready start)

end

/-- An operation that asks for an erase: it needs a driver that has not lost its chip. -/
theorem gates_asking
    (table : operation.refusal? d =
      if d.state = .notReady ∨ d.state = .failed then some (.busy d.state) else none)
    (busy : ¬ operation.Vacuous)
    (refuses : d.state = .notReady ∨ d.state = .failed →
      op.script d = .done (.error (.busy d.state), d))
    (attempts : ¬ (d.state = .notReady ∨ d.state = .failed) →
      Driver.Attempts op d fun _ _ => True) :
    Gates d operation ((f <$> op).script d) := by
  by_cases lost : d.state = .notReady ∨ d.state = .failed
  · rw [script_map, refuses lost]
    exact .refuse (by rw [table, if_pos lost])
  · exact gates_attempt (by rw [table, if_neg lost]) busy (attempts lost)

theorem script_eraseProgress_of_lost (lost : d.state = .notReady ∨ d.state = .failed) :
    Driver.eraseProgress.script d = .done (.error (.busy d.state), d) := by
  rcases lost with state | state <;> simp [Driver.eraseProgress, state]

theorem gates_identify : Gates d .identify (identify.run.script d) := by
  by_cases erasing : d.state = .erasing
  · have refused : identify.run.script d = .done (.error (.busy d.state), d) := by
      simp [run, Driver.identify, erasing]
    rw [refused]
    exact .refuse (by rw [refusal?, if_pos erasing])
  · refine gates_attempt (by rw [refusal?, if_neg erasing]) id ?_
    simp only [Driver.Attempts, Driver.identify, always_bind, always_get, always_ite, always_throw,
      Driver.always_ask, always_modify]
    refine ⟨fun h => absurd h erasing, fun _ => ⟨trivial, fun reply => ?_, fun _ => id⟩⟩
    split
    · exact id
    · simp only [always_bind, always_get, always_ite, always_tryCatch, always_modify, always_pure]
      exact ⟨fun _ => Driver.attempts_ensureQuad.imp (fun _ _ _ => trivial) fun _ _ => id,
        fun _ => trivial⟩

/-- The first unit asks for a ready driver. -/
theorem script_eraseFrom_of_unready (unready : d.state ≠ .ready) (units offset : Nat) :
    (Nor.eraseFrom (units + 1) offset).script d = .done (.error (.busy d.state), d) := by
  simp [Nor.eraseFrom, Driver.beginErase, unready]

theorem gates_norErase (start stop : Nat) :
    Gates d (.norErase start stop) ((norErase start stop).run.script d) := by
  show Gates d _ ((silent (Nor.erase start stop)).script d)
  rw [silent, script_map, Nor.erase, script_bind, script_get, Script.done_bind, follow_ok]
  by_cases outside : stop < start ∨ d.layout.size < stop
  · rw [if_pos outside]
    exact .refuse (by rw [refusal?, if_pos outside])
  rw [if_neg outside]
  by_cases units : 4096 ∣ start ∧ 4096 ∣ stop
  · have aligned : start % Nor.eraseSize = 0 ∧ stop % Nor.eraseSize = 0 :=
      ⟨Nat.mod_eq_zero_of_dvd units.1, Nat.mod_eq_zero_of_dvd units.2⟩
    have further : (norErase start stop).refusal? d =
        if start = stop then none else d.refusalUnlessReady none := by
      rw [refusal?, if_neg outside, if_neg (not_not_intro units)]
    rw [if_pos aligned]
    rw [← script_map]
    by_cases empty : start = stop
    · subst empty
      rw [if_pos rfl] at further
      rw [Nat.sub_self, Nat.zero_div]
      exact .pass further
    · rw [if_neg empty] at further
      by_cases ready : d.state = .ready
      · rw [Driver.refusalUnlessReady, if_pos ready] at further
        exact gates_attempt further empty (Driver.attempts_eraseFrom ready _ _)
      · rw [Driver.refusalUnlessReady, if_neg ready] at further
        obtain ⟨rest, count⟩ : ∃ rest, (stop - start) / Nor.eraseSize = rest + 1 := by
          refine ⟨(stop - start) / Nor.eraseSize - 1, ?_⟩
          unfold Nor.eraseSize sectorSize4K
          omega
        rw [count, script_map, script_eraseFrom_of_unready ready]
        exact .refuse further
  · have misaligned : ¬ (start % Nor.eraseSize = 0 ∧ stop % Nor.eraseSize = 0) := fun aligned =>
      units ⟨Nat.dvd_of_mod_eq_zero aligned.1, Nat.dvd_of_mod_eq_zero aligned.2⟩
    rw [if_neg misaligned]
    exact .refuse (by rw [refusal?, if_neg outside, if_pos units])

theorem gates_releasePowerDown : Gates d .releasePowerDown (releasePowerDown.run.script d) := by
  by_cases asleep : d.state = .notReady ∧ d.isIdentified = true
  · refine gates_attempt (by rw [refusal?, if_pos asleep]) id ?_
    simp [Driver.Attempts, Driver.leavePowerDown, asleep, DriverError.IsRefusal]
  · have refused : releasePowerDown.run.script d = .done (.error (.busy d.state), d) := by
      simp [run, silent, Driver.leavePowerDown, asleep]
    rw [refused]
    exact .refuse (by rw [refusal?, if_neg asleep])

/-- Every operation goes by the table. -/
theorem gates (suits : d.layout.Suits d.options.eraseUnit) (operation : FlashOperation) :
    Gates d operation (operation.run.script d) := by
  cases operation with
  | identify => exact gates_identify
  | read | norRead => exact gates_read suits rfl id
  | program | norWrite => exact gates_program suits rfl id
  | eraseAll =>
    refine gates_of_ready rfl fun ready refusal =>
      gates_attempt refusal id ?_
    simp [Driver.Attempts, Driver.writeEnable, DriverError.IsRefusal]
  | eraseSector sector =>
    refine gates_sector suits rfl id fun ready start => ?_
    rw [Driver.Attempts, always_bind, always_get]
    exact (Driver.attempts_beginErase ready _).weaken
  | verify sector =>
    refine gates_sector suits rfl id fun ready start => ?_
    rw [Driver.Attempts, always_bind, Driver.always_setState, Driver.always_resting]
    exact Driver.attempts_checkFrom _ _ _ _
  | eraseProgress =>
    exact gates_asking rfl id script_eraseProgress_of_lost fun awake =>
      (Driver.attempts_eraseProgress awake).weaken
  | finishErase =>
    refine gates_asking rfl id (fun lost => ?_) fun awake =>
      (Driver.attempts_finishErase awake).weaken
    rw [Driver.finishErase, script_bind, script_get, Script.done_bind, follow_ok]
    cases d.options.eraseTimeout <;>
      rw [Driver.finishWithin, script_bind, script_eraseProgress_of_lost lost] <;> rfl
  | status => exact gates_attempt rfl id Driver.attempts_readStatus1.weaken
  | isProtected =>
    refine gates_attempt rfl id ?_
    simp [Driver.Attempts, Driver.isProtected, Driver.readStatus1, DriverError.IsRefusal]
  | uniqueId | powerDown =>
    refine gates_of_ready rfl fun ready refusal =>
      gates_attempt refusal id ?_
    simp [Driver.Attempts, DriverError.IsRefusal]
  | releasePowerDown => exact gates_releasePowerDown
  | norErase start stop => exact gates_norErase start stop

end FlashOperation

/-! ### Sessions -/

namespace Session

variable {s : Session} {d : Driver} {operation : FlashOperation}

/-- What comes of an operation of the driver at its checks. -/
structure Abides (s : Session) (d : Driver) (operation : FlashOperation)
    (result : Except (DriverError BusError) FlashValue) (s' : Session) : Prop where
  /-- What the table refuses is refused like that, and nothing else is refused. -/
  exact : ∀ e, result = .error e ∧ e.IsRefusal ↔ operation.refusal? d = some e
  /-- With nothing to do nothing can fail. -/
  vacuous : operation.refusal? d = none → operation.Vacuous → ∃ value, result = .ok value
  /-- Nothing is sent, and nothing is waited for. -/
  silent : operation.refusal? d ≠ none ∨ operation.Vacuous → s.moments operation = []
  untouched : operation.refusal? d ≠ none ∨ operation.Vacuous → s' = s

theorem abides_of_gates {script : Script (Except (DriverError BusError) FlashValue × Driver)}
    (found : s.device.driver? = some d) (gates : operation.Gates d script)
    (spends : s.moments operation = script.timeline s.bench) :
    s.Abides d operation (script.run s.bench).1.1
      ⟨s.compareBuffer, s.device.withDriver (script.run s.bench).1.2, (script.run s.bench).2⟩ := by
  have same : (⟨s.compareBuffer, s.device.withDriver d, s.bench⟩ : Session) = s := by
    rw [Device.withDriver_self found]
  cases gates with
  | @refuse e refused =>
    refine ⟨fun e' => ?_, fun admitted => ?_, fun _ => spends, fun _ => same⟩
    · rw [refused, Option.some_inj]
      exact ⟨fun h => Except.error.inj h.1,
        fun h => ⟨congrArg _ h, h ▸ FlashOperation.isRefusal_of_refusal? refused⟩⟩
    · nomatch refused.symm.trans admitted
  | @pass value admitted =>
    refine ⟨fun e' => ?_, fun _ _ => ⟨value, rfl⟩, fun _ => spends, fun _ => same⟩
    rw [admitted]
    exact iff_of_false (fun h => nomatch h.1) nofun
  | attempt admitted busy ends =>
    have early : ¬ (operation.refusal? d ≠ none ∨ operation.Vacuous) := by simp [admitted, busy]
    refine ⟨fun e' => ?_, fun _ vacuous => absurd vacuous busy, fun h => absurd h early,
      fun h => absurd h early⟩
    rw [admitted]
    exact iff_of_false (fun h => ends.run s.bench e' h.1 h.2) nofun

/-- A driver refuses what the table says, and nothing else, and what it refuses or has nothing to do
for leaves everything as it was. -/
theorem driver_refusals (reached : s.Reached) (found : s.device.driver? = some d)
    (operation : FlashOperation) : ∃ result s',
      s.step (.flash operation) = (.flash result, s') ∧ s.Abides d operation result s' := by
  have suits := (reached.recognised.driver d found).2.suits
  refine ⟨_, _, step_flash_eq found operation, abides_of_gates found (operation.gates suits) ?_⟩
  rw [moments, found]

/-- A chip of 1 MiB whose driver is in the middle of an erase. -/
def erasing : Session :=
  (create ⟨0xEF, 0x40, 0x14⟩ .direct .standard .standard).run
    [.flash .identify, .flash (.eraseSector 3)]

/-- It refuses a read for the erase, but an erase through the NOR interface for its place or its
alignment, and accepts one of an empty range. None of this changes anything. -/
theorem erasing_refuses :
    erasing.step (.flash (.read 0 16)) = (.flash (.error (.busy .erasing)), erasing) ∧
    erasing.step (.flash (.norErase 0 4294963200)) = (.flash (.error .outOfBounds), erasing) ∧
    erasing.step (.flash (.norErase 100 8192)) = (.flash (.error .misaligned), erasing) ∧
    (∃ value, erasing.step (.flash (.norErase 8192 8192)) = (.flash (.ok value), erasing)) ∧
    erasing.moments (.norErase 8192 8192) = [] := by
  obtain ⟨d, found, state, size⟩ : ∃ d, erasing.device.driver? = some d ∧ d.state = .erasing ∧
      d.layout.size = 1048576 := ⟨_, rfl, rfl, rfl⟩
  have refusals := driver_refusals (s := erasing) ⟨_, _, _, _, _, rfl⟩ found
  have refuses {operation : FlashOperation} {e : DriverError BusError}
      (refused : operation.refusal? d = some e) :
      erasing.step (.flash operation) = (.flash (.error e), erasing) := by
    obtain ⟨result, s', step, abides⟩ := refusals operation
    obtain ⟨rfl, -⟩ := (abides.exact e).mpr refused
    rw [step, abides.untouched (.inl (by rw [refused]; nofun))]
  have admitted : (FlashOperation.norErase 8192 8192).refusal? d = none := by
    simp [FlashOperation.refusal?, size]
  obtain ⟨result, s', step, abides⟩ := refusals (.norErase 8192 8192)
  obtain ⟨value, rfl⟩ := abides.vacuous admitted rfl
  refine ⟨refuses ?_, refuses ?_, refuses ?_, ⟨value, ?_⟩, abides.silent (.inr rfl)⟩
  · simp [FlashOperation.refusal?, Driver.refusalUnlessReady, state]
  · simp [FlashOperation.refusal?, size]
  · simp [FlashOperation.refusal?, size, Nat.dvd_iff_mod_eq_zero]
  · rw [step, abides.untouched (.inr rfl)]

end Session

end SerialFlash
