import SerialFlash.Operation
import SerialFlash.Proofs.Tracking

/-!
Where an error of the bus comes from. No operation of a driver makes one up: one that fails with a
bus error has had that error as a reply. An automaton that keeps the errors it hears follows every
operation, and at a failure on the bus the error is among them.
-/

namespace SerialFlash

open Procedure

/-- Keeps the bus errors that have come back so far. -/
def Event.hear (heard : List BusError) : Event → Option (List BusError)
  | exchanged _ (.error e) => some (e :: heard)
  | _ => some heard

/-- An error that has been heard was a reply, or had been heard before. -/
theorem Event.exists_exchanged_of_hear {events : List Event} {heard heard' : List BusError}
    (followed : events.foldlM hear heard = some heard') {e : BusError} (late : e ∈ heard') :
    e ∈ heard ∨ ∃ request, .exchanged request (.error e) ∈ events := by
  induction events generalizing heard with
  | nil =>
    cases followed
    exact .inl late
  | cons event rest ih =>
    rw [List.foldlM_cons] at followed
    have later (h : ∃ request, exchanged request (.error e) ∈ rest) :
        ∃ request, exchanged request (.error e) ∈ event :: rest :=
      h.imp fun _ said => List.mem_cons_of_mem _ said
    rcases event with ⟨request, error | reply⟩ | timedOut
    · rcases ih followed with known | said
      · rcases List.mem_cons.mp known with rfl | before
        · exact .inr ⟨request, List.mem_cons_self⟩
        · exact .inl before
      · exact .inr (later said)
    · exact (ih followed).imp_right later
    · exact (ih followed).imp_right later

namespace Driver

variable {α β : Type} {l : Link} {op : FlashM α} {d : Driver}

/-- The operation, if it fails on the bus, does so with an error that it has heard. -/
def Relays (l : Link) (op : FlashM α) : Prop :=
  ∀ d heard, op.Tracks l (passPauses Event.hear) d heard (fun _ _ _ => True) fun e _ heard =>
    ∀ error, e = .bus error → error ∈ heard

namespace Relays

theorem pure (a : α) : Relays l (Pure.pure a : FlashM α) :=
  fun _ _ => trivial

/-- An error that is not one of the bus needs no reply. -/
theorem throw {e : DriverError BusError} (own : ∀ error, e ≠ .bus error) :
    Relays l (MonadExcept.throw e : FlashM α) :=
  fun _ _ error same => absurd same (own error)

theorem get : Relays l (MonadState.get : FlashM Driver) :=
  fun _ _ => trivial

theorem modified (f : Driver → Driver) : Relays l (modify f : FlashM PUnit) :=
  fun _ _ => trivial

theorem sleep (us : Nat) : Relays l (liftM (Script.sleep us) : FlashM Unit) :=
  fun _ _ => (tracks_sleep us).mpr trivial

theorem bind {f : α → FlashM β} (first : Relays l op) (rest : ∀ a, Relays l (f a)) :
    Relays l (op >>= f) := fun d heard =>
  (tracks_bind _ _).mpr ((first d heard).mono (fun a d heard _ => rest a d heard) fun _ _ _ => id)

theorem map (f : α → β) (h : Relays l op) : Relays l (f <$> op) := fun d heard =>
  (tracks_map _ _).mpr ((h d heard).mono (fun _ _ _ => id) fun _ _ _ => id)

theorem ite {c : Prop} [Decidable c] {op' : FlashM α} (yes : Relays l op) (no : Relays l op') :
    Relays l (if c then op else op') := by
  split
  · exact yes
  · exact no

/-- A handler may pass the error on, which has been heard, or put one of its own in its place. -/
theorem tryCatch {handle : DriverError BusError → FlashM α} (h : Relays l op)
    (handled : ∀ e d heard, (∀ error, e = .bus error → error ∈ heard) →
      (handle e).Tracks l (passPauses Event.hear) d heard (fun _ _ _ => True) fun e _ heard =>
        ∀ error, e = .bus error → error ∈ heard) :
    Relays l (MonadExcept.tryCatch op handle) := fun d heard =>
  (tracks_tryCatch _ _).mpr ((h d heard).mono (fun _ _ _ => id) handled)

theorem ask (i : Instruction) : Relays l (ask i) := fun d heard =>
  tracks_ask.mpr ⟨fun _ => ⟨heard, rfl, trivial⟩, fun e =>
    ⟨e :: heard, rfl, fun _ same => by cases same; exact List.mem_cons_self⟩⟩

theorem resting (h : Relays l op) : Relays l (resting op) := fun d heard =>
  (tracks_resting _).mpr ((h d heard).mono (fun _ _ _ => id) fun _ _ _ => id)

theorem guardReady : Relays l guardReady := fun _ _ =>
  tracks_guardReady.mpr ⟨fun _ => trivial, fun _ => nofun⟩

/-! ### Operations -/

theorem readStatus1 : Relays l readStatus1 :=
  .bind (.ask _) fun _ => .pure _

theorem readStatus2 : Relays l readStatus2 :=
  .bind (.ask _) fun _ => .pure _

theorem writeEnable : Relays l writeEnable :=
  .bind (.ask _) fun _ => .pure _

theorem awaitIdleWithin (options : DriverOptions) (polls : Nat) :
    Relays l (awaitIdleWithin options polls) := by
  induction polls with
  | zero => exact .throw nofun
  | succ polls ih =>
    have poll : Relays l (do
        let status ← Driver.readStatus1
        if status.isBusy then Driver.awaitIdleWithin options polls) :=
      .bind .readStatus1 fun _ => .ite ih (.pure _)
    exact .ite (.bind (.sleep _) fun _ => poll) poll

theorem awaitIdle : Relays l awaitIdle :=
  .bind .get fun _ => .awaitIdleWithin _ _

theorem ensureQuad : Relays l ensureQuad :=
  .bind .readStatus2 fun _ => .ite
    (.bind .readStatus1 fun _ => .bind .writeEnable fun _ => .bind (.ask _) fun _ =>
      .bind .awaitIdle fun _ => .bind .readStatus2 fun _ => .ite (.throw nofun) (.pure _))
    (.pure _)

theorem identify : Relays l identify := by
  refine .bind .get fun d => .ite (.throw nofun) (.bind (.ask _) fun reply =>
    .bind (.modified _) fun _ => ?_)
  split
  · exact .bind (.modified _) fun _ => .throw nofun
  · next size _ =>
    have learnt : Relays l (do
        let layout := Layout.tile size (← MonadState.get).options.eraseUnit.size
        modify fun d => { d with layout, state := .ready }
        return layout : FlashM Layout) :=
      .bind .get fun _ => .bind (.modified _) fun _ => .pure _
    refine .bind .get fun d => .ite (.bind (.tryCatch .ensureQuad ?_) fun _ => learnt) learnt
    intro e d heard relayed
    simpa only [forget, tracks_bind, tracks_modify, tracks_throw] using relayed

theorem read (offset length : Nat) : Relays l (read offset length) :=
  .bind .guardReady fun _ => .bind .get fun _ => .ite
    (.ite (.pure _) (.bind (.modified _) fun _ => .resting (.ask _))) (.throw nofun)

theorem programPieces (done : Nat) (pieces : List Piece) :
    Relays l (programPieces done pieces) := by
  induction pieces generalizing done with
  | nil => exact .pure _
  | cons p rest ih =>
    have piece : Relays l (programPiece p) :=
      .bind .writeEnable fun _ => .bind (.ask _) fun _ => .awaitIdle
    refine .bind (.tryCatch piece fun e d heard relayed => ?_) fun _ => ih _
    rw [tracks_throw]
    split
    · exact relayed
    · exact nofun

theorem program (offset : Nat) (data : Bytes) : Relays l (program offset data) :=
  .bind .guardReady fun _ => .bind .get fun _ => .ite
    (.bind (.modified _) fun _ => .resting (.programPieces _ _)) (.throw nofun)

theorem beginErase (i : Instruction) : Relays l (beginErase i) :=
  .bind .guardReady fun _ => .bind .writeEnable fun _ => .bind (.ask _) fun _ => .modified _

theorem sectorStart (sector : Nat) : Relays l (sectorStart sector) := by
  refine .bind .get fun d => ?_
  split
  · exact .pure _
  · exact .throw nofun

theorem beginEraseSector (sector : Nat) : Relays l (beginEraseSector sector) :=
  .bind .guardReady fun _ => .bind (.sectorStart _) fun _ => .bind .get fun _ => .beginErase _

theorem eraseProgress : Relays l eraseProgress := by
  refine .bind .get fun d => ?_
  split
  · intro d heard
    simp only [tracks_bind, tracks_liftM_ask]
    rintro (e | reply)
    · exact ⟨e :: heard, rfl, fun _ same => by cases same; exact List.mem_cons_self⟩
    · simp only [tracks_ite, tracks_pure, tracks_bind, tracks_setState]
      exact ⟨heard, rfl, fun _ => trivial, fun _ => trivial⟩
  · exact .throw (by rintro _ ⟨⟩)
  · exact .throw (by rintro _ ⟨⟩)
  · exact .pure _

theorem finishWithin (remaining : Nat) : Relays l (finishWithin remaining) := by
  induction remaining with
  | zero =>
    refine .bind .eraseProgress fun progress => ?_
    split
    · exact .pure _
    · exact .resting (.throw nofun)
  | succ remaining ih =>
    refine .bind .eraseProgress fun progress => ?_
    split
    · exact .pure _
    · exact .bind (.sleep _) fun _ => ih

theorem finishErase : Relays l finishErase :=
  .bind .get fun _ => .finishWithin _

theorem checkFrom (erased : UInt8) (step chunks offset : Nat) :
    Relays l (checkFrom erased step chunks offset) := by
  induction chunks generalizing offset with
  | zero => exact .pure _
  | succ chunks ih =>
    refine .bind (.ask _) fun reply => ?_
    split
    · exact .throw nofun
    · exact ih _

theorem checkErased (sector : Nat) : Relays l (checkErased sector) :=
  .bind .guardReady fun _ => .bind (.sectorStart _) fun _ => .bind (.modified _) fun _ =>
    .resting (.bind .get fun _ => .bind .get fun _ => .checkFrom _ _ _ _)

theorem eraseFrom (units offset : Nat) : Relays l (Nor.eraseFrom units offset) := by
  induction units generalizing offset with
  | zero => exact .pure _
  | succ units ih => exact .bind (.beginErase _) fun _ => .bind .finishErase fun _ => ih _

theorem norErase (start stop : Nat) : Relays l (Nor.erase start stop) :=
  .bind .get fun _ => .ite (.throw nofun) (.ite (.eraseFrom _ _) (.throw nofun))

theorem uniqueId : Relays l uniqueId :=
  .bind .guardReady fun _ => .bind (.ask _) fun _ => .pure _

theorem enterPowerDown : Relays l enterPowerDown :=
  .bind .guardReady fun _ => .bind (.ask _) fun _ => .modified _

theorem leavePowerDown : Relays l leavePowerDown :=
  .bind .get fun _ => .ite (.bind (.ask _) fun _ => .bind (.sleep _) fun _ => .modified _)
    (.throw nofun)

end Relays

end Driver

namespace FlashOperation

variable {l : Link}

theorem relays_run (operation : FlashOperation) : Driver.Relays l operation.run := by
  cases operation with
  | identify => exact .map _ .identify
  | read offset length | norRead offset length => exact .map _ (.read offset length)
  | program offset data | norWrite offset data => exact .map _ (.program offset data)
  | eraseAll => exact .map _ (.beginErase _)
  | eraseSector sector => exact .map _ (.beginEraseSector sector)
  | eraseProgress => exact .map _ .eraseProgress
  | finishErase => exact .map _ .finishErase
  | verify sector => exact .map _ (.checkErased sector)
  | status => exact .map _ .readStatus1
  | isProtected => exact .map _ (.bind .readStatus1 fun _ => .pure _)
  | uniqueId => exact .map _ .uniqueId
  | powerDown => exact .map _ .enterPowerDown
  | releasePowerDown => exact .map _ .leavePowerDown
  | norErase start stop => exact .map _ (.norErase start stop)

/-- A bus error that an operation reports has come back as a reply. -/
theorem exists_exchanged_of_bus (operation : FlashOperation) {d d' : Driver} {b b' : Bench}
    {e : BusError} (run : (operation.run.script d).run b = ((.error (.bus e), d'), b')) :
    ∃ request, .exchanged request (.error e) ∈ (operation.run.script d).exchanges b := by
  obtain ⟨heard, followed, ended⟩ :=
    Script.Tracks.exchanges (operation.relays_run d []) (b := b) rfl
  rw [run] at ended
  exact (Event.exists_exchanged_of_hear followed (ended e rfl)).resolve_left List.not_mem_nil

end FlashOperation

end SerialFlash
