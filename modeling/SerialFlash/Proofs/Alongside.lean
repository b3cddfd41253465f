import SerialFlash.Operation
import SerialFlash.Proofs.Agreement
import SerialFlash.Proofs.Erasure
import SerialFlash.Proofs.Vocabulary

/-!
Two drivers of the same layout that are meant for other links, or wait in another way between
two status polls. Every operation but an identification is uniform: the two go through it side
by side, and what they say stays inside the device. For an identification they have to be meant
for links that need the same of the chip.

`wired` says that the links do, `paced` that the drivers also wait alike.
-/

namespace SerialFlash

open Procedure

namespace Driver

/-- The same driver for another link, with another pace between status polls. -/
def tuned (d : Driver) (needsQuad pauses : Bool) (pollInterval : Nat) : Driver :=
  { d with needsQuad, options := { d.options with pauses, pollInterval } }

/-- Both drivers have the layout `l`, and they differ in link and pace at most. -/
structure Alongside (wired paced : Prop) (l : Layout) (d d' : Driver) : Prop where
  layout : d.layout = l
  suits : l.Suits d.options.eraseUnit
  tuned : ∃ needsQuad pauses pollInterval, d' = d.tuned needsQuad pauses pollInterval ∧
    (wired → needsQuad = d.needsQuad) ∧
    (paced → pauses = d.options.pauses ∧ pollInterval = d.options.pollInterval)

/-- Two drivers that have some layout in common. -/
def Siblings (wired paced : Prop) (d d' : Driver) : Prop :=
  ∃ l, Alongside wired paced l d d'

/-- Whatever the replies, two drivers of the layout go through the operation side by side, and
say nothing that is outside the device or part of an identification. -/
abbrev Uniform {α : Type} (wired paced : Prop) (l : Layout) (op : FlashM α) : Prop :=
  Procedure.Uniform (fun i => i.Inside l.size ∧ i.Routine) paced (Alongside wired paced l) op

variable {wired paced : Prop} {l : Layout} {d d' : Driver} {α β : Type}

theorem Alongside.setState (h : Alongside wired paced l d d') (state : DriverState) :
    Alongside wired paced l { d with state } { d' with state } := by
  obtain ⟨layout, suits, _, _, _, rfl, link, pace⟩ := h
  exact ⟨layout, suits, _, _, _, rfl, link, pace⟩

theorem Alongside.state_eq (h : Alongside wired paced l d d') : d'.state = d.state := by
  obtain ⟨-, -, _, _, _, rfl, -⟩ := h
  rfl

namespace Uniform

variable {op : FlashM α}

theorem ask {i : Instruction} (inside : i.Inside l.size) (routine : i.Routine) :
    Uniform wired paced l (Driver.ask i) :=
  fun _ _ h => agrees_ask ⟨inside, routine⟩ h

theorem setState (state : DriverState) : Uniform wired paced l (Driver.setState state) :=
  fun _ _ h => agrees_setState state (h.setState state)

theorem resting (h : Uniform wired paced l op) : Uniform wired paced l (Driver.resting op) :=
  fun d d' start => agrees_resting (h d d' start) fun state _ _ after => after.setState state

theorem guardReady (h : Uniform wired paced l op) :
    Uniform wired paced l (do Driver.guardReady; op) :=
  fun d d' start => agrees_guardReady start.state_eq start fun _ => h d d' start

/-! ### Status -/

theorem readStatus1 : Uniform wired paced l Driver.readStatus1 :=
  .bind (ask trivial trivial) fun _ => .pure _

theorem isProtected : Uniform wired paced l Driver.isProtected :=
  .bind readStatus1 fun _ => .pure _

theorem writeEnable : Uniform wired paced l Driver.writeEnable :=
  .bind (ask trivial trivial) fun _ => .pure _

end Uniform

/-- Only the pauses of a wait depend on the pace. -/
theorem agrees_awaitIdleWithin {P : Instruction → Prop} {E : Driver → Driver → Prop}
    (status : P .readStatus1) (start : E d d') {options options' : DriverOptions}
    (pace : paced → options'.pauses = options.pauses ∧ options'.pollInterval = options.pollInterval)
    (polls : Nat) :
    Agrees P paced E (awaitIdleWithin options polls) (awaitIdleWithin options' polls) d d' := by
  induction polls generalizing d d' with
  | zero => exact .throw _ start
  | succ polls ih =>
    have poll : Agrees P paced E
        (do
          let status ← readStatus1
          if status.isBusy then awaitIdleWithin options polls : FlashM Unit)
        (do
          let status ← readStatus1
          if status.isBusy then awaitIdleWithin options' polls : FlashM Unit) d d' := by
      refine .bind (.bind (agrees_ask status start) fun _ _ _ h => .pure _ h) fun status _ _ h => ?_
      exact .ite (fun _ => ih h) fun _ => .pure _ h
    unfold awaitIdleWithin
    exact .paused pace poll

theorem agrees_awaitIdle {P : Instruction → Prop} (status : P .readStatus1)
    (h : Alongside wired paced l d d') :
    Agrees P paced (Alongside wired paced l) awaitIdle awaitIdle d d' := by
  obtain ⟨-, -, _, _, _, rfl, -, pace⟩ := id h
  exact .get_bind (agrees_awaitIdleWithin status h pace d.options.maxPolls)

namespace Uniform

theorem awaitIdle : Uniform wired paced l Driver.awaitIdle :=
  fun _ _ h => agrees_awaitIdle ⟨trivial, trivial⟩ h

/-! ### The array -/

theorem read (offset length : Nat) : Uniform wired paced l (Driver.read offset length) := by
  refine .guardReady fun d d' h => ?_
  obtain ⟨rfl, -, _, _, _, rfl, -⟩ := id h
  refine .get_bind (.ite (fun covered => .ite (fun _ => .pure _ h) fun some => ?_)
    fun _ => .throw _ h)
  have inside : (Instruction.readArray offset length).Inside d.layout.size :=
    ⟨Nat.pos_of_ne_zero some, Layout.le_of_covers covered⟩
  exact Uniform.bind (setState .reading) (fun _ => resting (ask inside trivial)) _ _ h

theorem programPieces {pieces : List Piece} (fits : ∀ p ∈ pieces, p.Fits l.size) (done : Nat) :
    Uniform wired paced l (Driver.programPieces done pieces) := by
  induction pieces generalizing done with
  | nil => exact .pure _
  | cons p rest ih =>
    have piece : Uniform wired paced l (programPiece p) :=
      .bind writeEnable fun _ => .bind (ask (fits p List.mem_cons_self) trivial) fun _ => awaitIdle
    exact .bind (.tryCatch piece fun _ => .throw _) fun _ =>
      ih (fun q mem => fits q (List.mem_cons_of_mem _ mem)) _

theorem program (offset : Nat) (data : Bytes) :
    Uniform wired paced l (Driver.program offset data) := by
  refine .guardReady fun d d' h => ?_
  obtain ⟨rfl, suits, _, _, _, rfl, -⟩ := id h
  refine .get_bind (.ite (fun covered => ?_) fun _ => .throw _ h)
  have fits : ∀ p ∈ splitPages offset data, p.Fits d.layout.size := fun p mem =>
    fits_of_mem_splitPages (Layout.le_of_covers covered) suits.size_lt_limit mem
  exact Uniform.bind (setState .programming) (fun _ => resting (programPieces fits 0)) _ _ h

/-! ### Erases -/

theorem sectorStart_bind {sector : Nat} {f : Nat → FlashM α}
    (rest : ∀ start, l.sectorStart? sector = some start → Uniform wired paced l (f start)) :
    Uniform wired paced l (Driver.sectorStart sector >>= f) := by
  have script (d : Driver) : (Driver.sectorStart sector).script d =
      .done ((d.layout.sectorStart? sector).elim (.error .outOfBounds) .ok, d) := by
    rw [Driver.sectorStart, script_bind, script_get, Script.done_bind, follow_ok]
    cases d.layout.sectorStart? sector <;> rfl
  intro d d' h
  obtain ⟨rfl, -, _, _, _, rfl, -⟩ := id h
  unfold Agrees
  rw [script_bind, script_bind, script, script]
  show Script.Agrees _ _ _ _ (follow f ((d.layout.sectorStart? sector).elim _ _, _))
  cases found : d.layout.sectorStart? sector with
  | none => exact .done ⟨rfl, h⟩
  | some start => exact rest start found _ _ h

theorem sectorStart (sector : Nat) : Uniform wired paced l (Driver.sectorStart sector) := by
  rw [← bind_pure (Driver.sectorStart sector)]
  exact sectorStart_bind fun start _ => .pure start

theorem beginErase {i : Instruction} (inside : i.Inside l.size) (routine : i.Routine) :
    Uniform wired paced l (Driver.beginErase i) :=
  .guardReady (.bind writeEnable fun _ => .bind (ask inside routine) fun _ => setState _)

theorem beginEraseSector (sector : Nat) :
    Uniform wired paced l (Driver.beginEraseSector sector) := by
  refine .guardReady (sectorStart_bind fun start found d d' h => ?_)
  obtain ⟨rfl, suits, _, _, _, rfl, -⟩ := id h
  exact .get_bind (beginErase (suits.inside_of_sectorStart? found) trivial _ _ h)

theorem eraseProgress : Uniform wired paced l Driver.eraseProgress := by
  intro d d' h
  refine .get_bind ?_
  simp only [h.state_eq]
  split
  · refine .bind (agrees_liftM_ask ⟨trivial, trivial⟩ h) fun reply d d' h => ?_
    cases reply with
    | error e => exact Uniform.bind (setState _) (fun _ => .throw _) d d' h
    | ok reply =>
      exact .ite (fun _ => .pure _ h)
        fun _ => Uniform.bind (setState _) (fun _ => .pure _) d d' h
  · exact .throw _ h
  · exact .throw _ h
  · exact .pure _ h

theorem finishWithin (remaining : Nat) : Uniform wired paced l (Driver.finishWithin remaining) := by
  induction remaining with
  | zero =>
    refine .bind eraseProgress fun progress => ?_
    cases progress with
    | done => exact .pure _
    | running _ => exact resting (.throw _)
  | succ remaining ih =>
    refine .bind eraseProgress fun progress => ?_
    cases progress with
    | done => exact .pure _
    | running _ => exact .bind (.sleep _) fun _ => ih

theorem finishErase : Uniform wired paced l Driver.finishErase := by
  intro d d' h
  obtain ⟨-, -, _, _, _, rfl, -⟩ := id h
  exact .get_bind (finishWithin d.options.eraseTimeout _ _ h)

theorem checkFrom (erased : UInt8) {step chunks offset : Nat} (pos : 0 < step)
    (bound : offset + chunks * step ≤ l.size) :
    Uniform wired paced l (Driver.checkFrom erased step chunks offset) := by
  induction chunks generalizing offset with
  | zero => exact .pure _
  | succ chunks ih =>
    rw [Nat.succ_mul] at bound
    have next : Word32.satAdd offset step ≤ offset + step := Nat.min_le_left _ _
    refine .bind (ask ⟨pos, by omega⟩ trivial) fun reply => ?_
    split
    · exact .throw _
    · exact ih (by omega)

theorem checkErased (sector : Nat) : Uniform wired paced l (Driver.checkErased sector) := by
  refine .guardReady (sectorStart_bind fun start found => .bind (setState _) fun _ => resting ?_)
  intro d d' h
  obtain ⟨rfl, suits, _, _, _, rfl, -⟩ := id h
  obtain ⟨-, inside⟩ := suits.inside_of_sectorStart? found
  obtain ⟨chunks, whole⟩ := d.exists_chunks d.options.eraseUnit
  have pos := d.compareBuffer.size_pos
  -- the last chunk ends with the sector, so that not even a check leaves it
  have count : (Word32.satAdd start d.layout.sectorSize - start + d.compareBuffer.size - 1) /
      d.compareBuffer.size ≤ chunks := by
    have stop : Word32.satAdd start d.layout.sectorSize ≤ start + d.layout.sectorSize :=
      Nat.min_le_left _ _
    rw [← Nat.lt_succ_iff, Nat.div_lt_iff_lt_mul pos, Nat.succ_mul, whole, ← suits.sectorSize]
    omega
  refine .get_bind (.get_bind (checkFrom _ pos ?_ _ _ h))
  have length := Nat.mul_le_mul_right d.compareBuffer.size count
  exact Nat.le_trans (Nat.add_le_add_left (whole ▸ length) start) inside

theorem eraseFrom (word : l.size < Word32.limit) {units offset : Nat}
    (aligned : Nor.eraseSize ∣ offset) (bound : offset + units * Nor.eraseSize ≤ l.size) :
    Uniform wired paced l (Nor.eraseFrom units offset) := by
  induction units generalizing offset with
  | zero => exact .pure _
  | succ units ih =>
    rw [Nat.succ_mul] at bound
    have next : Word32.satAdd offset Nor.eraseSize = offset + Nor.eraseSize :=
      Word32.satAdd_of_lt (by omega)
    have inside : (Instruction.eraseSector .sector4K offset).Inside l.size :=
      ⟨aligned, show offset + Nor.eraseSize ≤ l.size by omega⟩
    refine .bind (beginErase inside trivial) fun _ => .bind finishErase fun _ => ?_
    rw [next]
    exact ih (Nat.dvd_add aligned (Nat.dvd_refl _)) (by omega)

theorem norErase (start stop : Nat) : Uniform wired paced l (Nor.erase start stop) := by
  intro d d' h
  obtain ⟨rfl, suits, _, _, _, rfl, -⟩ := id h
  refine .get_bind (.ite (fun _ => .throw _ h) fun ordered => .ite (fun aligned => ?_)
    fun _ => .throw _ h)
  obtain ⟨ordered, inside⟩ : start ≤ stop ∧ stop ≤ d.layout.size := by omega
  obtain ⟨first, last⟩ := aligned
  have whole : (stop - start) / Nor.eraseSize * Nor.eraseSize = stop - start :=
    Nat.div_mul_cancel (Nat.dvd_sub (Nat.dvd_of_mod_eq_zero last) (Nat.dvd_of_mod_eq_zero first))
  exact eraseFrom suits.size_lt_limit (Nat.dvd_of_mod_eq_zero first) (by omega) _ _ h

theorem eraseRun (verify : Bool) (count sector : Nat) :
    Uniform wired paced l (Disk.eraseRun verify count sector) := by
  induction count generalizing sector with
  | zero => exact .pure _
  | succ count ih =>
    refine .bind (beginEraseSector sector) fun _ => .bind finishErase fun _ => ?_
    cases verify with
    | true => exact .bind (checkErased sector) fun _ => ih _
    | false => exact ih _

theorem eraseUnder (perSector sector : Nat) (verify : Bool) :
    Uniform wired paced l (Disk.eraseUnder perSector sector verify) := by
  unfold Disk.eraseUnder
  split
  · exact .throw _
  · exact .bind (eraseRun verify _ _) fun _ => sectorStart _

theorem replaceSector (perSector sector : Nat) (data : Bytes) :
    Uniform wired paced l (Disk.replaceSector perSector sector data) :=
  .bind (eraseUnder perSector sector true) fun offset => program offset data

/-! ### Unique ID and power -/

theorem uniqueId : Uniform wired paced l Driver.uniqueId :=
  .guardReady (.bind (ask trivial trivial) fun _ => .pure _)

theorem enterPowerDown : Uniform wired paced l Driver.enterPowerDown :=
  .guardReady (.bind (ask trivial trivial) fun _ => setState _)

theorem leavePowerDown : Uniform wired paced l Driver.leavePowerDown := by
  intro d d' h
  obtain ⟨-, -, _, _, _, rfl, -⟩ := id h
  refine .get_bind (.ite (fun _ => ?_) fun _ => .throw _ h)
  exact Uniform.bind (ask (i := .releasePowerDown) trivial trivial)
    (fun _ => .bind (.sleep 3) fun _ => setState _) _ _ h

end Uniform

/-! ### Identification -/

theorem agrees_ensureQuad (h : Alongside wired paced l d d') :
    Agrees (fun i => ∀ size, i.Inside size) paced (Alongside wired paced l) ensureQuad ensureQuad
      d d' := by
  have status2 {d d'} (h : Alongside wired paced l d d') :
      Agrees (fun i => ∀ size, i.Inside size) paced (Alongside wired paced l) readStatus2
        readStatus2 d d' :=
    .bind (agrees_ask (fun _ => trivial) h) fun _ _ _ h => .pure _ h
  refine .bind (status2 h) fun second _ _ h => .ite (fun _ => ?_) fun _ => .pure _ h
  refine .bind (.bind (agrees_ask (fun _ => trivial) h) fun _ _ _ h => .pure _ h)
    fun first _ _ h => ?_
  refine .bind (.bind (agrees_ask (fun _ => trivial) h) fun _ _ _ h => .pure _ h)
    fun _ _ _ h => ?_
  refine .bind (agrees_ask (fun _ => trivial) h) fun _ _ _ h => ?_
  refine .bind (agrees_awaitIdle (fun _ => trivial) h) fun _ _ _ h => ?_
  exact .bind (status2 h) fun _ _ _ h => .ite (fun _ => .throw _ h) fun _ => .pure _ h

theorem Alongside.forget (h : Alongside wired paced l d d') (state : DriverState) :
    Alongside wired paced (.unknown d.options.eraseUnit.size)
      { d with layout := .unknown d.options.eraseUnit.size, state }
      { d' with layout := .unknown d'.options.eraseUnit.size, state } := by
  obtain ⟨-, -, _, _, _, rfl, link, pace⟩ := h
  exact ⟨rfl, Layout.suits_unknown _, _, _, _, rfl, link, pace⟩

theorem Alongside.identified (h : Alongside wired paced l d d') (id : Identity) :
    Alongside wired paced l { d with identity := id } { d' with identity := id } := by
  obtain ⟨layout, suits, _, _, _, rfl, link, pace⟩ := h
  exact ⟨layout, suits, _, _, _, rfl, link, pace⟩

theorem Alongside.sized (h : Alongside wired paced l d d') {id : Identity} {capacity : Nat}
    (listed : id.capacity? = some capacity) :
    Alongside wired paced (.tile capacity d.options.eraseUnit.size)
      { d with layout := .tile capacity d.options.eraseUnit.size, state := .ready }
      { d' with layout := .tile capacity d'.options.eraseUnit.size, state := .ready } := by
  obtain ⟨-, -, _, _, _, rfl, link, pace⟩ := h
  exact ⟨rfl, Layout.suits_tile listed _, _, _, _, rfl, link, pace⟩

/-- Drivers for links that need the same of the chip identify it side by side. Nothing that an
identification says has an address. -/
theorem agrees_identify (h : Siblings True paced d d') :
    Agrees (fun i => ∀ size, i.Inside size) paced (Siblings True paced) identify identify d d' := by
  obtain ⟨l, -, -, _, _, _, rfl, -⟩ := id h
  refine .get_bind (.ite (fun _ => .throw _ h) fun _ => ?_)
  refine .bind (agrees_ask (fun _ => trivial) h) fun reply d d' ⟨l, h⟩ => ?_
  refine .bind (.modified ⟨l, h.identified _⟩) fun _ d d' ⟨l, h⟩ => ?_
  split
  · exact .bind (.modified ⟨_, h.forget _⟩) fun _ _ _ h => .throw _ h
  · next capacity listed =>
    have finish {d d'} (h : Siblings True paced d d') :
        Agrees (fun i => ∀ size, i.Inside size) paced (Siblings True paced)
          (do
            let layout := Layout.tile capacity (← get).options.eraseUnit.size
            modify fun d => { d with layout, state := .ready }
            return layout : FlashM Layout)
          (do
            let layout := Layout.tile capacity (← get).options.eraseUnit.size
            modify fun d => { d with layout, state := .ready }
            return layout) d d' := by
      obtain ⟨l, h⟩ := h
      obtain ⟨-, -, _, _, _, rfl, -⟩ := id h
      exact .get_bind (.bind (.modified ⟨_, h.sized listed⟩) fun _ _ _ h => .pure _ h)
    obtain ⟨-, -, _, _, _, rfl, link, -⟩ := id h
    obtain rfl := link trivial
    refine .get_bind (.ite (fun _ => ?_) fun _ => finish ⟨l, h⟩)
    have ensured : Agrees (fun i => ∀ size, i.Inside size) paced (Siblings True paced) ensureQuad
        ensureQuad d _ := (agrees_ensureQuad h).mono (fun _ => id) fun _ _ h => ⟨l, h⟩
    refine .bind (.tryCatch ensured fun e d d' ⟨l, h⟩ => ?_) fun _ _ _ h => finish h
    exact .bind (.modified ⟨_, h.forget _⟩) fun _ _ _ h => .throw _ h

end Driver

/-! ### Disks -/

namespace Disk

variable {wired paced : Prop} {l : Layout} {α : Type}

/-- Disks of one format around drivers of the layout. -/
structure Alongside (wired paced : Prop) (l : Layout) (d d' : Disk) : Prop where
  flash : d.flash.Alongside wired paced l d'.flash
  format : d'.format = d.format

/-- The same for an operation of a disk. -/
abbrev Uniform (wired paced : Prop) (l : Layout) (op : DiskM α) : Prop :=
  Procedure.Uniform (fun i => i.Inside l.size ∧ i.Routine) paced (Alongside wired paced l) op

/-- What a disk looks up does not depend on link and pace. -/
theorem Alongside.eq {d d' : Disk} (h : Alongside wired paced l d d') :
    ∃ needsQuad pauses pollInterval,
      d' = { d with flash := d.flash.tuned needsQuad pauses pollInterval } := by
  obtain ⟨flash', format'⟩ := d'
  obtain ⟨⟨-, -, needsQuad, pauses, pollInterval, rfl, -⟩, rfl⟩ := h
  exact ⟨needsQuad, pauses, pollInterval, rfl⟩

theorem Alongside.sectorSize_eq {d d' : Disk} (h : Alongside wired paced l d d') :
    d'.sectorSize = d.sectorSize := by
  obtain ⟨_, _, _, rfl⟩ := h.eq
  rfl

theorem Alongside.span?_eq {d d' : Disk} (h : Alongside wired paced l d d') (start length : Nat) :
    d'.span? start length = d.span? start length := by
  obtain ⟨_, _, _, rfl⟩ := h.eq
  rfl

theorem Alongside.offsetOf?_eq {d d' : Disk} (h : Alongside wired paced l d d') (sector : Nat) :
    d'.offsetOf? sector = d.offsetOf? sector := by
  rw [offsetOf?, offsetOf?, h.sectorSize_eq]

namespace Uniform

theorem onFlash {op : FlashM α} (h : Driver.Uniform wired paced l op) :
    Uniform wired paced l (liftM (Disk.onFlash op)) :=
  fun d d' start => Driver.agrees_onFlash (h d.flash d'.flash start.flash)
    fun _ _ flash => ⟨flash, start.format⟩

theorem guardReady : Uniform wired paced l Disk.guardReady := by
  intro d d' h
  obtain ⟨_, _, _, rfl⟩ := h.eq
  exact .get_bind (.ite (fun _ => .pure _ h) fun _ => .throw _ h)

theorem guardSpan (start length : Nat) : Uniform wired paced l (Disk.guardSpan start length) := by
  intro d d' h
  refine .get_bind ?_
  simp only [h.span?_eq]
  split
  · exact .pure _ h
  · exact .throw _ h

theorem guardWritable : Uniform wired paced l Disk.guardWritable := by
  refine .bind (onFlash Driver.Uniform.isProtected) fun isProtected => ?_
  split
  · exact .pure _
  · exact .throw _
  · exact .throw _

theorem readFrom (completed count sector : Nat) :
    Uniform wired paced l (Disk.readFrom completed count sector) := by
  induction count generalizing completed sector with
  | zero => exact .pure _
  | succ count ih =>
    intro d d' h
    refine .get_bind ?_
    simp only [h.offsetOf?_eq, h.sectorSize_eq]
    split
    · exact .throw _ h
    · refine Procedure.Uniform.bind (onFlash (Driver.Uniform.read _ d.sectorSize))
        (fun bytes => ?_) _ _ h
      split
      · exact .throw _
      · exact .bind (ih _ _) fun _ => .pure _

theorem read (start length : Nat) : Uniform wired paced l (Disk.read start length) :=
  .bind guardReady fun _ => .bind (guardSpan start length) fun _ =>
    .bind (readFrom _ _ _) fun _ => .pure _

theorem writeFrom (completed count sector : Nat) (data : Bytes) :
    Uniform wired paced l (Disk.writeFrom completed count sector data) := by
  induction count generalizing completed sector data with
  | zero => exact .pure _
  | succ count ih =>
    intro d d' h
    obtain ⟨_, _, _, rfl⟩ := h.eq
    refine .get_bind (Procedure.Uniform.bind
      (onFlash (Driver.Uniform.replaceSector d.flashSectors sector _)) (fun result => ?_) _ _ h)
    split
    · exact .throw _
    · exact ih _ _ _

theorem write (start : Nat) (data : Bytes) : Uniform wired paced l (Disk.write start data) :=
  .bind guardReady fun _ => .bind (guardSpan start data.length) fun _ =>
    .bind guardWritable fun _ => .bind (writeFrom _ _ _ _) fun _ => .pure _

theorem trimFrom (completed count sector : Nat) :
    Uniform wired paced l (Disk.trimFrom completed count sector) := by
  induction count generalizing completed sector with
  | zero => exact .pure _
  | succ count ih =>
    intro d d' h
    obtain ⟨_, _, _, rfl⟩ := h.eq
    refine .get_bind (Procedure.Uniform.bind
      (onFlash (Driver.Uniform.eraseUnder d.flashSectors sector _)) (fun result => ?_) _ _ h)
    split
    · exact .throw _
    · exact ih _ _

theorem trim (start stop : Nat) : Uniform wired paced l (Disk.trim start stop) := by
  intro d d' h
  obtain ⟨_, _, _, rfl⟩ := h.eq
  refine .get_bind (.ite (fun _ => .throw _ h) fun _ => ?_)
  exact Procedure.Uniform.bind guardWritable (fun _ => trimFrom _ _ _) _ _ h

theorem control (command : DiskCommand) : Uniform wired paced l (Disk.control command) := by
  refine .bind guardReady fun _ => ?_
  cases command with
  | sync | blockSize => exact .pure _
  | trim start stop => exact .bind (trim start stop) fun _ => .pure _
  | sectorCount | sectorSize =>
    intro d d' h
    obtain ⟨_, _, _, rfl⟩ := h.eq
    refine .get_bind ?_
    exact .done ⟨rfl, h⟩

theorem status : Uniform wired paced l (liftM Disk.status : DiskM DriveFlags) := by
  intro d d' h
  obtain ⟨_, _, _, rfl⟩ := h.eq
  refine .liftM_get_bind ?_
  show Agrees _ _ _ (liftM (if d.flash.state = .ready then _ else _))
    (liftM (if d.flash.state = .ready then _ else _)) _ _
  split
  · refine .liftM_bind (onFlash Driver.Uniform.isProtected _ _ h) fun isProtected _ _ h => ?_
    split <;> exact .done ⟨rfl, h⟩
  · exact .done ⟨rfl, h⟩

end Uniform

end Disk

/-! ### Operations -/

/-- Every operation of the driver but an identification is uniform. -/
theorem FlashOperation.uniform_run {wired paced : Prop} {l : Layout} {operation : FlashOperation}
    (other : operation ≠ .identify) : Driver.Uniform wired paced l operation.run := by
  cases operation with
  | identify => exact absurd rfl other
  | read offset length | norRead offset length => exact .map _ (Driver.Uniform.read offset length)
  | program offset data | norWrite offset data => exact .map _ (Driver.Uniform.program offset data)
  | eraseAll => exact .map _ (Driver.Uniform.beginErase (i := .eraseChip) trivial trivial)
  | eraseSector sector => exact .map _ (Driver.Uniform.beginEraseSector sector)
  | eraseProgress => exact .map _ Driver.Uniform.eraseProgress
  | finishErase => exact .map _ Driver.Uniform.finishErase
  | verify sector => exact .map _ (Driver.Uniform.checkErased sector)
  | status => exact .map _ Driver.Uniform.readStatus1
  | isProtected => exact .map _ Driver.Uniform.isProtected
  | uniqueId => exact .map _ Driver.Uniform.uniqueId
  | powerDown => exact .map _ Driver.Uniform.enterPowerDown
  | releasePowerDown => exact .map _ Driver.Uniform.leavePowerDown
  | norErase start stop => exact .map _ (Driver.Uniform.norErase start stop)

/-- Drivers side by side go through every operation so; for an identification their links have to
need the same. -/
theorem FlashOperation.agrees_run {wired paced : Prop} {operation : FlashOperation}
    (alike : operation = .identify → wired) {d d' : Driver} (h : d.Siblings wired paced d') :
    Agrees (fun i => i.Fits ∧ (operation ≠ .identify → i.Routine)) paced
      (Driver.Siblings wired paced) operation.run operation.run d d' := by
  by_cases identifies : operation = .identify
  · subst identifies
    obtain rfl : wired = True := eq_true (alike rfl)
    refine ((Driver.agrees_identify h).map _).mono (fun i inside => ?_) fun _ _ => id
    exact ⟨(inside 0).fits (Nat.zero_le _), fun other => absurd rfl other⟩
  · obtain ⟨l, h⟩ := h
    refine (uniform_run identifies d d' h).mono (fun i said => ?_) fun _ _ h => ⟨l, h⟩
    exact ⟨said.1.fits h.suits.bound, fun _ => said.2⟩

/-- The operations of a disk are uniform. -/
theorem DiskOperation.uniform_run {wired paced : Prop} {l : Layout} (operation : DiskOperation) :
    Disk.Uniform wired paced l (liftM operation.run : DiskM DiskOutcome) := by
  cases operation with
  | status | startUp =>
    intro d d' h
    rw [run, map_eq_pure_bind]
    exact .liftM_bind (Disk.Uniform.status d d' h) fun _ _ _ h => .done ⟨rfl, h⟩
  | geometry =>
    intro d d' h
    obtain ⟨_, _, _, rfl⟩ := h.eq
    exact .done ⟨rfl, h⟩
  | read start length => exact fun d d' h => .liftM_run (Disk.Uniform.read start length d d' h)
  | write start data => exact fun d d' h => .liftM_run (Disk.Uniform.write start data d d' h)
  | control command => exact fun d d' h => .liftM_run (Disk.Uniform.control command d d' h)

/-- Two operations in turn are as uniform as each of them. -/
theorem DiskOperation.uniform_runInTurn {wired paced : Prop} {l : Layout}
    (first second : DiskOperation) :
    Disk.Uniform wired paced l (liftM (first.runInTurn second) : DiskM _) :=
  fun d d' h => .liftM_bind (first.uniform_run d d' h) fun _ d d' h =>
    .liftM_bind (second.uniform_run d d' h) fun _ _ _ h => .done ⟨rfl, h⟩

end SerialFlash
