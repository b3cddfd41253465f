import SerialFlash.Proofs.DiskGeometry
import SerialFlash.Proofs.EraseWaits

/-!
When a driver waits that does not pause between two status polls. An observer is an automaton that
watches what a driver does in time, and may refuse a pause. One that lets every exchange pass lets
every operation pass that waits for no erase, so such an operation has no pause at all. The vigil is
an observer that knows which pause is due: a millisecond behind a status read that finds an erase
unfinished, and three microseconds behind a release from power-down. It lets every operation pass.
-/

namespace SerialFlash

open Procedure

/-! ### Observers -/

namespace Procedure

variable {σ ε ε' α β κ : Type} {l : Link} {next : κ → Moment → Option κ} {I : σ → Prop}

/-- Started in `I`, the procedure is let pass wherever the observer stands, and it ends in `I`. -/
def Timely (l : Link) (next : κ → Moment → Option κ) (I : σ → Prop) (op : Procedure σ ε α) :
    Prop :=
  ∀ s k, I s → op.Tracks l next s k (fun _ s _ => I s) fun _ s _ => I s

namespace Timely

variable {op : Procedure σ ε α}

theorem pure (a : α) : Timely l next I (Pure.pure a : Procedure σ ε α) :=
  fun _ _ h => h

theorem throw (e : ε) : Timely l next I (MonadExcept.throw e : Procedure σ ε α) :=
  fun _ _ h => h

theorem modified {f : σ → σ} (kept : ∀ s, I s → I (f s)) :
    Timely l next I (modify f : Procedure σ ε PUnit) :=
  fun s _ h => kept s h

theorem bind {f : α → Procedure σ ε β} (first : Timely l next I op)
    (rest : ∀ a, Timely l next I (f a)) : Timely l next I (op >>= f) := by
  intro s k h
  rw [tracks_bind]
  exact (first s k h).mono rest fun _ _ _ => id

theorem get_bind {f : σ → Procedure σ ε β} (rest : ∀ s, I s → Timely l next I (f s)) :
    Timely l next I (get >>= f) := by
  intro s k h
  rw [tracks_bind, tracks_get]
  exact rest s h s k h

theorem map (f : α → β) (h : Timely l next I op) : Timely l next I (f <$> op) := by
  intro s k start
  rw [tracks_map]
  exact h s k start

theorem ite {c : Prop} [Decidable c] {op' : Procedure σ ε α} (yes : c → Timely l next I op)
    (no : ¬ c → Timely l next I op') : Timely l next I (if c then op else op') := by
  split
  · next h => exact yes h
  · next h => exact no h

theorem tryCatch {handle : ε → Procedure σ ε α} (h : Timely l next I op)
    (failed : ∀ e, Timely l next I (handle e)) :
    Timely l next I (MonadExcept.tryCatch op handle) := by
  intro s k start
  rw [tracks_tryCatch]
  exact (h s k start).mono (fun _ _ _ => id) failed

/-- A procedure whose outcome is wrapped up as a value. -/
theorem liftM_run {f : Except ε' α → β} {op : Procedure σ ε' α} (h : Timely l next I op) :
    Timely l next I
      (liftM (f <$> ExceptT.run op : StateT σ Script β) : Procedure σ ε β) := by
  intro s k start
  rw [tracks_liftM_run]
  exact h s k start

theorem liftM_bind {op : StateT σ Script α} {f : α → StateT σ Script β}
    (first : Timely l next I (liftM op : Procedure σ ε α))
    (rest : ∀ a, Timely l next I (liftM (f a) : Procedure σ ε β)) :
    Timely l next I (liftM (op >>= f) : Procedure σ ε β) := by
  intro s k h
  rw [Procedure.Tracks, script_liftM_bind]
  exact bind first rest s k h

theorem liftM_get_bind {f : σ → StateT σ Script β}
    (rest : ∀ s, I s → Timely l next I (liftM (f s) : Procedure σ ε β)) :
    Timely l next I (liftM (get >>= f : StateT σ Script β) : Procedure σ ε β) :=
  fun s k h => rest s h s k h

end Timely

end Procedure

/-! ### Steps of a driver -/

/-- The driver does not pause between two status polls. -/
def Driver.Unpaced (d : Driver) : Prop :=
  d.options.pauses = false

/-- The observer refuses no exchange. -/
def LetsExchange {κ : Type} (next : κ → Moment → Option κ) : Prop :=
  ∀ k request reply, ∃ k', next k (.exchanged request reply) = some k'

/-- Refuses every pause. -/
def refusePause (_ : Unit) : Moment → Option Unit
  | .exchanged _ _ => some ()
  | .waited _ => none

theorem refusePause_lets_exchange : LetsExchange refusePause :=
  fun _ _ _ => ⟨(), rfl⟩

theorem pauses_eq_nil {moments : List Moment} {k : Unit}
    (followed : moments.foldlM refusePause () = some k) :
    moments.filterMap Moment.pause? = [] := by
  induction moments with
  | nil => rfl
  | cons m rest ih =>
    cases m with
    | exchanged request reply => exact ih followed
    | waited ns => contradiction

section Driver

open Driver

variable {α κ : Type} {l : Link} {next : κ → Moment → Option κ} (lets : LetsExchange next)

/-- The observer lets the operation of such a driver pass. -/
abbrev Driver.Timely (l : Link) (next : κ → Moment → Option κ) (op : FlashM α) : Prop :=
  Procedure.Timely l next Unpaced op

namespace Driver.Timely

theorem setState (state : DriverState) : Timely l next (Driver.setState state) :=
  .modified fun _ h => h

theorem guardReady : Timely l next Driver.guardReady := by
  intro d k start
  rw [tracks_guardReady]
  exact ⟨fun _ => start, fun _ => start⟩

theorem resting {op : FlashM α} (h : Timely l next op) : Timely l next (Driver.resting op) := by
  intro d k start
  rw [tracks_resting]
  exact h d k start

theorem sectorStart (sector : Nat) : Timely l next (Driver.sectorStart sector) := by
  refine .get_bind fun d _ => ?_
  split
  · exact .pure _
  · exact .throw _

include lets

theorem liftM_ask (i : Instruction) : Timely l next (liftM (Script.ask i) : FlashM Reply) := by
  intro d k start
  rw [tracks_liftM_ask]
  intro reply
  obtain ⟨k', step⟩ := lets k (l.request i) reply
  exact ⟨k', step, start⟩

theorem ask (i : Instruction) : Timely l next (Driver.ask i) := by
  refine .bind (liftM_ask lets i) fun reply => ?_
  cases reply with
  | error e => exact .throw _
  | ok reply => exact .pure _

theorem readStatus1 : Timely l next Driver.readStatus1 :=
  .bind (ask lets _) fun _ => .pure _

theorem isProtected : Timely l next Driver.isProtected :=
  .bind (readStatus1 lets) fun _ => .pure _

theorem readStatus2 : Timely l next Driver.readStatus2 :=
  .bind (ask lets _) fun _ => .pure _

theorem writeEnable : Timely l next Driver.writeEnable :=
  .bind (ask lets _) fun _ => .pure _

theorem awaitIdleWithin {options : DriverOptions} (unpaced : options.pauses = false)
    (polls : Nat) : Timely l next (Driver.awaitIdleWithin options polls) := by
  induction polls with
  | zero => exact .throw _
  | succ polls ih =>
    unfold Driver.awaitIdleWithin
    rw [unpaced]
    exact .bind (readStatus1 lets) fun _ => .ite (fun _ => ih) fun _ => .pure _

theorem awaitIdle : Timely l next Driver.awaitIdle :=
  .get_bind fun _ unpaced => awaitIdleWithin lets unpaced _

theorem ensureQuad : Timely l next Driver.ensureQuad := by
  refine .bind (readStatus2 lets) fun _ => .ite (fun _ => ?_) fun _ => .pure _
  refine .bind (readStatus1 lets) fun _ => .bind (writeEnable lets) fun _ => ?_
  refine .bind (ask lets _) fun _ => .bind (awaitIdle lets) fun _ => ?_
  exact .bind (readStatus2 lets) fun _ => .ite (fun _ => .throw _) fun _ => .pure _

theorem identify : Timely l next Driver.identify := by
  refine .get_bind fun _ _ => .ite (fun _ => .throw _) fun _ => .bind (ask lets _) fun _ => ?_
  refine .bind (.modified fun _ h => h) fun _ => ?_
  have forget (state : DriverState) : Timely l next (Driver.forget state) := .modified fun _ h => h
  split
  · exact .bind (forget _) fun _ => .throw _
  · have finish (capacity : Nat) : Timely l next
        (do
          let layout := Layout.tile capacity (← get).options.eraseUnit.size
          modify fun d => { d with layout, state := .ready }
          return layout : FlashM Layout) :=
      .get_bind fun _ _ => .bind (.modified fun _ h => h) fun _ => .pure _
    refine .get_bind fun _ _ => .ite (fun _ => ?_) fun _ => finish _
    refine .bind (.tryCatch (ensureQuad lets) fun _ => ?_) fun _ => finish _
    exact .bind (forget _) fun _ => .throw _

theorem read (offset length : Nat) : Timely l next (Driver.read offset length) := by
  refine .bind guardReady fun _ => .get_bind fun _ _ => .ite (fun _ => ?_) fun _ => .throw _
  refine .ite (fun _ => .pure _) fun _ => ?_
  exact .bind (setState _) fun _ => resting (ask lets _)

theorem programPieces (done : Nat) (pieces : List Piece) :
    Timely l next (Driver.programPieces done pieces) := by
  induction pieces generalizing done with
  | nil => exact .pure _
  | cons p rest ih =>
    have piece : Timely l next (programPiece p) :=
      .bind (writeEnable lets) fun _ => .bind (ask lets _) fun _ => awaitIdle lets
    exact .bind (.tryCatch piece fun _ => .throw _) fun _ => ih _

theorem program (offset : Nat) (data : Bytes) : Timely l next (Driver.program offset data) := by
  refine .bind guardReady fun _ => .get_bind fun _ _ => .ite (fun _ => ?_) fun _ => .throw _
  exact .bind (setState _) fun _ => resting (programPieces lets _ _)

theorem beginErase (i : Instruction) : Timely l next (Driver.beginErase i) :=
  .bind guardReady fun _ => .bind (writeEnable lets) fun _ => .bind (ask lets _) fun _ => setState _

theorem beginEraseSector (sector : Nat) : Timely l next (Driver.beginEraseSector sector) :=
  .bind guardReady fun _ => .bind (sectorStart sector) fun _ => .get_bind fun _ _ =>
    beginErase lets _

theorem eraseProgress : Timely l next Driver.eraseProgress := by
  refine .get_bind fun d _ => ?_
  split
  · refine .bind (liftM_ask lets _) fun reply => ?_
    split
    · exact .bind (setState _) fun _ => .throw _
    · exact .ite (fun _ => .pure _) fun _ => .bind (setState _) fun _ => .pure _
  · exact .throw _
  · exact .throw _
  · exact .pure _

theorem checkFrom (erased : UInt8) (step chunks offset : Nat) :
    Timely l next (Driver.checkFrom erased step chunks offset) := by
  induction chunks generalizing offset with
  | zero => exact .pure _
  | succ chunks ih =>
    refine .bind (ask lets _) fun reply => ?_
    split
    · exact .throw _
    · exact ih _

theorem checkErased (sector : Nat) : Timely l next (Driver.checkErased sector) := by
  refine .bind guardReady fun _ => .bind (sectorStart sector) fun _ => ?_
  refine .bind (setState _) fun _ => ?_
  exact resting (.get_bind fun _ _ => .get_bind fun _ _ => checkFrom lets _ _ _ _)

theorem uniqueId : Timely l next Driver.uniqueId :=
  .bind guardReady fun _ => .bind (ask lets _) fun _ => .pure _

theorem enterPowerDown : Timely l next Driver.enterPowerDown :=
  .bind guardReady fun _ => .bind (ask lets _) fun _ => setState _

end Driver.Timely

end Driver

/-! ### The vigil -/

/-- What an observer has to know of a driver to tell which pause is due. -/
structure Vigil where
  /-- The chip has taken an erase, and has been asked for nothing but its status since. -/
  erasing : Bool
  /-- In nanoseconds. -/
  due : Option Nat

namespace Vigil

/-- A millisecond is due behind a look at an erase that is unfinished, and three microseconds are
due behind a release from power-down. Any other pause is refused. -/
def next (k : Vigil) : Moment → Option Vigil
  | .exchanged _ (.error _) => some ⟨false, none⟩
  | .exchanged request (.ok reply) =>
      if request.opcode = Opcode.readStatus1.byte then
        some ⟨k.erasing, if k.erasing && (StatusRegister.ofReply reply).isBusy then
          some 1000000 else none⟩
      else if request.opcode = Opcode.releasePowerDown.byte then some ⟨false, some 3000⟩
      else some ⟨opcodeErases request.opcode, none⟩
  | .waited ns => if k.due = some ns then some ⟨k.erasing, none⟩ else none

theorem lets_exchange : LetsExchange next := by
  intro k request reply
  cases reply with
  | error e => exact ⟨_, rfl⟩
  | ok reply =>
    simp only [next]
    split
    · exact ⟨_, rfl⟩
    · split <;> exact ⟨_, rfl⟩

variable {k : Vigil} {l : Link} {d : Driver}

/-- A look at an unfinished erase makes a millisecond due. -/
theorem next_busy (erasing : k.erasing = true) {reply : Reply} (busy : endsWait reply = false) :
    k.next (.exchanged (l.request .readStatus1) reply) = some ⟨true, some 1000000⟩ := by
  cases reply with
  | error e => contradiction
  | ok reply =>
    have set : (StatusRegister.ofReply reply).isBusy = true := by simpa [endsWait] using busy
    show some (Vigil.mk k.erasing _) = _
    rw [erasing, set]
    rfl

/-- Whoever waits for an erase pauses only behind a look that finds it unfinished. -/
theorem tracks_finishWithin (erasing : d.state = .erasing) (since : k.erasing = true)
    (unpaced : d.Unpaced) (remaining : Nat) :
    (Driver.finishWithin remaining).Tracks l next d k (fun _ d' _ => d'.Unpaced)
      fun _ d' _ => d'.Unpaced := by
  unfold Procedure.Tracks
  induction remaining generalizing k with
  | zero =>
    rw [Driver.script_finishWithin erasing]
    intro reply
    obtain ⟨k', step⟩ := lets_exchange k (l.request .readStatus1) reply
    refine ⟨k', step, ?_⟩
    dsimp only
    cases endsWait reply with
    | true => cases reply <;> exact unpaced
    | false => exact unpaced
  | succ remaining ih =>
    rw [Driver.script_finishWithin erasing]
    intro reply
    dsimp only
    cases ended : endsWait reply with
    | true =>
      obtain ⟨k', step⟩ := lets_exchange k (l.request .readStatus1) reply
      refine ⟨k', step, ?_⟩
      cases reply <;> exact unpaced
    | false => exact ⟨_, next_busy since ended, ⟨true, none⟩, rfl, ih rfl⟩

/-- Without an erase there is nothing to wait for. -/
theorem finishWithin_of_not_erasing (other : d.state ≠ .erasing) (remaining : Nat) :
    ∃ r, (Driver.finishWithin remaining).script d = .done (r, d) := by
  cases state : d.state with
  | erasing => exact absurd state other
  | notReady | failed =>
    exact ⟨.error (.busy d.state), by
      cases remaining <;> simp [Driver.finishWithin, Driver.eraseProgress, state]⟩
  | ready | reading | programming =>
    exact ⟨.ok (), by cases remaining <;> simp [Driver.finishWithin, Driver.eraseProgress, state]⟩

/-- The vigil when an operation begins. -/
def start (d : Driver) : Vigil :=
  ⟨d.state = .erasing, none⟩

theorem tracks_finishErase (since : d.state = .erasing → k.erasing = true)
    (unpaced : d.Unpaced) :
    Driver.finishErase.Tracks l next d k (fun _ d' _ => d'.Unpaced) fun _ d' _ => d'.Unpaced := by
  rw [Driver.finishErase, tracks_bind, tracks_get]
  by_cases erasing : d.state = .erasing
  · exact tracks_finishWithin erasing (since erasing) unpaced _
  · obtain ⟨r, done⟩ := finishWithin_of_not_erasing erasing d.options.eraseTimeout
    rw [Procedure.Tracks, done]
    cases r <;> exact unpaced

theorem next_erase {request : Request} (erases : opcodeErases request.opcode = true)
    (reply : Bytes) : k.next (.exchanged request (.ok reply)) = some ⟨true, none⟩ := by
  have notLook : request.opcode ≠ Opcode.readStatus1.byte := fun look => by
    rw [look] at erases
    contradiction
  have notRelease : request.opcode ≠ Opcode.releasePowerDown.byte := fun release => by
    rw [release] at erases
    contradiction
  rw [next, if_neg notLook, if_neg notRelease, erases]

end Vigil

namespace Driver.Timely

variable {l : Link}

/-- An erase that is waited for behind its own beginning. -/
theorem erase {i : Instruction} (erases : opcodeErases (l.request i).opcode = true) :
    Timely l Vigil.next (do Driver.beginErase i; Driver.finishErase) := by
  have sent : Timely l Vigil.next
      (do
        let _ ← Driver.ask i
        Driver.setState .erasing
        Driver.finishErase) := by
    intro d k unpaced
    rw [tracks_bind, tracks_ask]
    refine ⟨fun reply => ⟨_, Vigil.next_erase erases reply, ?_⟩, fun e => ⟨_, rfl, unpaced⟩⟩
    rw [tracks_bind, tracks_setState]
    exact Vigil.tracks_finishErase (fun _ => rfl) unpaced
  simp only [Driver.beginErase, bind_assoc]
  exact .bind guardReady fun _ => .bind (writeEnable Vigil.lets_exchange) fun _ => sent

theorem eraseSector (sector : Nat) :
    Timely l Vigil.next (do Driver.beginEraseSector sector; Driver.finishErase) := by
  simp only [Driver.beginEraseSector, bind_assoc]
  refine .bind guardReady fun _ => .bind (sectorStart sector) fun start => .get_bind fun d _ => ?_
  exact erase (l.erases_eraseSector d.options.eraseUnit start)

theorem eraseFrom (units offset : Nat) : Timely l Vigil.next (Nor.eraseFrom units offset) := by
  induction units generalizing offset with
  | zero => exact .pure _
  | succ units ih =>
    have first : Timely l Vigil.next
        (do Driver.beginErase (.eraseSector .sector4K offset); Driver.finishErase) :=
      erase (l.erases_eraseSector _ _)
    simpa only [Nor.eraseFrom, bind_assoc] using first.bind fun _ => ih _

theorem norErase (start stop : Nat) : Timely l Vigil.next (Nor.erase start stop) :=
  .get_bind fun _ _ => .ite (fun _ => .throw _) fun _ => .ite (fun _ => eraseFrom _ _)
    fun _ => .throw _

theorem leavePowerDown : Timely l Vigil.next Driver.leavePowerDown := by
  refine .get_bind fun d _ => .ite (fun _ => ?_) fun _ => .throw _
  intro d k unpaced
  rw [tracks_bind, tracks_ask]
  exact ⟨fun reply => ⟨_, rfl, ⟨false, none⟩, rfl, unpaced⟩, fun e => ⟨_, rfl, unpaced⟩⟩

theorem eraseRun (verify : Bool) (count sector : Nat) :
    Timely l Vigil.next (Disk.eraseRun verify count sector) := by
  induction count generalizing sector with
  | zero => exact .pure _
  | succ count ih =>
    have rest : Timely l Vigil.next
        (do
          if verify then
            Driver.checkErased sector
          Disk.eraseRun verify count (sector + 1)) := by
      cases verify with
      | true => exact .bind (checkErased Vigil.lets_exchange sector) fun _ => ih _
      | false => exact ih _
    simpa only [Disk.eraseRun, bind_assoc] using (eraseSector sector).bind fun _ => rest

theorem eraseUnder (perSector sector : Nat) (verify : Bool) :
    Timely l Vigil.next (Disk.eraseUnder perSector sector verify) := by
  unfold Disk.eraseUnder
  split
  · exact .throw _
  · exact .bind (eraseRun verify _ _) fun _ => sectorStart _

theorem replaceSector (perSector sector : Nat) (data : Bytes) :
    Timely l Vigil.next (Disk.replaceSector perSector sector data) :=
  .bind (eraseUnder perSector sector true) fun _ => program Vigil.lets_exchange _ _

end Driver.Timely

/-! ### Disks -/

namespace Disk

variable {α κ : Type} {l : Link} {next : κ → Moment → Option κ}

/-- The same for an operation of a disk around such a driver. -/
abbrev Timely (l : Link) (next : κ → Moment → Option κ) (op : DiskM α) : Prop :=
  Procedure.Timely l next (fun d => d.flash.Unpaced) op

namespace Timely

theorem onFlash {op : FlashM α} (h : Driver.Timely l next op) :
    Timely l next (liftM (Disk.onFlash op)) := by
  intro d k unpaced
  rw [Driver.tracks_onFlash]
  exact h d.flash k unpaced

theorem guardReady : Timely l next Disk.guardReady :=
  .get_bind fun _ _ => .ite (fun _ => .pure _) fun _ => .throw _

theorem guardSpan (start length : Nat) : Timely l next (Disk.guardSpan start length) := by
  refine .get_bind fun d _ => ?_
  split
  · exact .pure _
  · exact .throw _

section
variable (lets : LetsExchange next)
include lets

theorem guardWritable : Timely l next Disk.guardWritable := by
  refine .bind (onFlash (Driver.Timely.isProtected lets)) fun isProtected => ?_
  split
  · exact .pure _
  · exact .throw _
  · exact .throw _

theorem readFrom (completed count sector : Nat) :
    Timely l next (Disk.readFrom completed count sector) := by
  induction count generalizing completed sector with
  | zero => exact .pure _
  | succ count ih =>
    refine .get_bind fun d _ => ?_
    split
    · exact .throw _
    · refine .bind (onFlash (Driver.Timely.read lets _ _)) fun bytes => ?_
      split
      · exact .throw _
      · exact .bind (ih _ _) fun _ => .pure _

theorem read (start length : Nat) : Timely l next (Disk.read start length) :=
  .bind guardReady fun _ => .bind (guardSpan start length) fun _ =>
    .bind (readFrom lets _ _ _) fun _ => .pure _

theorem status : Timely l next (liftM Disk.status : DiskM DriveFlags) := by
  refine .liftM_get_bind fun d _ => ?_
  show Timely l next (liftM (if d.flash.state = .ready then _ else _ : StateT Disk Script _))
  split
  · refine .liftM_bind (onFlash (Driver.Timely.isProtected lets)) fun isProtected => ?_
    split <;> exact .pure _
  · exact .pure _

end

theorem writeFrom (completed count sector : Nat) (data : Bytes) :
    Timely l Vigil.next (Disk.writeFrom completed count sector data) := by
  induction count generalizing completed sector data with
  | zero => exact .pure _
  | succ count ih =>
    refine .get_bind fun d _ => .bind (onFlash (.replaceSector _ _ _)) fun result => ?_
    split
    · exact .throw _
    · exact ih _ _ _

theorem write (start : Nat) (data : Bytes) : Timely l Vigil.next (Disk.write start data) :=
  .bind guardReady fun _ => .bind (guardSpan start data.length) fun _ =>
    .bind (guardWritable Vigil.lets_exchange) fun _ => .bind (writeFrom _ _ _ _) fun _ => .pure _

theorem trimFrom (completed count sector : Nat) :
    Timely l Vigil.next (Disk.trimFrom completed count sector) := by
  induction count generalizing completed sector with
  | zero => exact .pure _
  | succ count ih =>
    refine .get_bind fun d _ => .bind (onFlash (.eraseUnder _ _ _)) fun result => ?_
    split
    · exact .throw _
    · exact ih _ _

theorem trim (start stop : Nat) : Timely l Vigil.next (Disk.trim start stop) :=
  .get_bind fun _ _ => .ite (fun _ => .throw _) fun _ =>
    .bind (guardWritable Vigil.lets_exchange) fun _ => trimFrom _ _ _

end Timely

end Disk

/-! ### Operations -/

/-- The operation may wait for an erase, or for the chip to wake up. -/
def FlashOperation.waits : FlashOperation → Bool
  | finishErase | norErase _ _ | releasePowerDown => true
  | _ => false

def DiskOperation.waits : DiskOperation → Bool
  | write _ _ | control (.trim _ _) => true
  | _ => false

section

variable {κ : Type} {l : Link} {next : κ → Moment → Option κ}

theorem FlashOperation.timely_run (lets : LetsExchange next) {operation : FlashOperation}
    (goesOn : operation.waits = false) : Driver.Timely l next operation.run := by
  cases operation with
  | finishErase | norErase | releasePowerDown => contradiction
  | identify => exact .map _ (Driver.Timely.identify lets)
  | read offset length | norRead offset length =>
    exact .map _ (Driver.Timely.read lets offset length)
  | program offset data | norWrite offset data =>
    exact .map _ (Driver.Timely.program lets offset data)
  | eraseAll => exact .map _ (Driver.Timely.beginErase lets .eraseChip)
  | eraseSector sector => exact .map _ (Driver.Timely.beginEraseSector lets sector)
  | eraseProgress => exact .map _ (Driver.Timely.eraseProgress lets)
  | verify sector => exact .map _ (Driver.Timely.checkErased lets sector)
  | status => exact .map _ (Driver.Timely.readStatus1 lets)
  | isProtected => exact .map _ (Driver.Timely.isProtected lets)
  | uniqueId => exact .map _ (Driver.Timely.uniqueId lets)
  | powerDown => exact .map _ (Driver.Timely.enterPowerDown lets)

theorem FlashOperation.tracks_run_vigil (operation : FlashOperation) {d : Driver}
    (unpaced : d.Unpaced) :
    operation.run.Tracks l Vigil.next d (.start d) (fun _ d' _ => d'.Unpaced)
      fun _ d' _ => d'.Unpaced := by
  cases waits : operation.waits with
  | false => exact timely_run Vigil.lets_exchange waits d _ unpaced
  | true =>
    cases operation with
    | finishErase =>
      rw [run, silent, tracks_map]
      exact Vigil.tracks_finishErase (fun erasing => decide_eq_true erasing) unpaced
    | norErase start stop => exact (Driver.Timely.norErase start stop).map _ d _ unpaced
    | releasePowerDown => exact Driver.Timely.leavePowerDown.map _ d _ unpaced
    | _ => contradiction

theorem DiskOperation.timely_run (lets : LetsExchange next) {operation : DiskOperation}
    (goesOn : operation.waits = false) :
    Disk.Timely l next (liftM operation.run : DiskM DiskOutcome) := by
  cases operation with
  | status | startUp =>
    rw [run, map_eq_pure_bind]
    exact .liftM_bind (Disk.Timely.status lets) fun _ => .pure _
  | geometry => exact fun _ _ unpaced => unpaced
  | read start length => exact .liftM_run (Disk.Timely.read lets start length)
  | write => contradiction
  | control command =>
    refine .liftM_run (.bind Disk.Timely.guardReady fun _ => ?_)
    cases command with
    | trim => contradiction
    | sync | blockSize => exact .pure _
    | sectorCount | sectorSize => exact .get_bind fun _ _ => .pure _

/-- An operation of a disk, as the disk runs it. -/
theorem DiskOperation.tracks_of_timely {operation : DiskOperation}
    (timely : Disk.Timely l next (liftM operation.run : DiskM DiskOutcome)) {d : Disk}
    (unpaced : d.flash.Unpaced) (k : κ) :
    (operation.run.run d).Tracks l next (fun p _ => p.2.flash.Unpaced) k := by
  have tracks := timely d k unpaced
  rwa [Procedure.Tracks, script_liftM_state, Script.tracks_bind] at tracks

theorem DiskOperation.timely_run_vigil (operation : DiskOperation) :
    Disk.Timely l Vigil.next (liftM operation.run : DiskM DiskOutcome) := by
  cases waits : operation.waits with
  | false => exact timely_run Vigil.lets_exchange waits
  | true =>
    cases operation with
    | write start data => exact .liftM_run (Disk.Timely.write start data)
    | control command =>
      cases command with
      | trim start stop =>
        exact .liftM_run (.bind Disk.Timely.guardReady fun _ =>
          .bind (Disk.Timely.trim start stop) fun _ => .pure _)
      | _ => contradiction
    | _ => contradiction

end

end SerialFlash
