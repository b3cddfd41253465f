import SerialFlash.Proofs.DiskTransfer

/-!
When a write or a trim succeeds. A chip is prompt for its driver if nothing is wrong with
it and it is done with every program and erase within the polls that the driver makes.
On an idle chip that is prompt no step of a write or a trim fails: each one leaves the
chip idle again, and prompt for the next. Only the protection check at the beginning looks
at anything else.
-/

namespace SerialFlash

/-- Nothing keeps a status read from telling how the chip is getting on. -/
structure Chip.Sound (c : Chip) : Prop where
  noFaults : c.faults = .none
  free : c.stuckBusy = false
  placed : c.Placed

/-- No fault is armed, no cell is stuck, and the busy times are within the driver's
patience. -/
structure Chip.Prompt (c : Chip) (options : DriverOptions) : Prop where
  noFaults : c.faults = .none
  free : c.stuckBusy = false
  stuckCells : c.stuckCells = []
  placed : c.Placed
  programBusy : c.programBusy < options.maxPolls
  eraseBusy : c.eraseBusy ≤ options.eraseTimeout

namespace Chip

variable {c c' : Chip} {options : DriverOptions}

theorem Sound.later (h : c.Sound) (later : c.Endures c') : c'.Sound where
  noFaults := later.noFaults h.noFaults
  free := later.stuckBusy.trans h.free
  placed := later.placed h.placed

theorem Prompt.sound (h : c.Prompt options) : c.Sound :=
  ⟨h.noFaults, h.free, h.placed⟩

theorem Prompt.later (h : c.Prompt options) (later : c.Endures c') : c'.Prompt options where
  noFaults := later.noFaults h.noFaults
  free := later.stuckBusy.trans h.free
  stuckCells := later.stuckCells.trans h.stuckCells
  placed := later.placed h.placed
  programBusy := later.programBusy ▸ h.programBusy
  eraseBusy := later.eraseBusy ▸ h.eraseBusy

/-- A chip without protection bits shows none. -/
theorem protection_status1 (unprotected : c.protectBits = 0) :
    (StatusRegister.mk c.status1).protection = 0 := by
  rw [Chip.status1, unprotected]
  cases c.writeEnabled <;> cases c.isBusy <;> rfl

/-- With the protection bits in their place, the busy bit is the chip's own. -/
theorem isBusy_status1_eq (placed : c.Placed) :
    (StatusRegister.mk c.status1).isBusy = c.isBusy := by
  cases busy : c.isBusy with
  | true => exact isBusy_status1 busy
  | false =>
    have clear : c.protectBits &&& Status1.busy = 0 := by
      rw [← show _ = c.protectBits from placed, UInt8.and_assoc]
      exact UInt8.and_zero
    have latch : (if c.writeEnabled then Status1.writeEnableLatch else 0) &&& Status1.busy = 0 := by
      split <;> rfl
    have idle : c.status1 &&& Status1.busy = 0 := by
      rw [status1, busy, ← UInt8.toBitVec_inj, UInt8.toBitVec_and, UInt8.toBitVec_or,
        UInt8.toBitVec_or, BitVec.and_or_distrib_right, BitVec.and_or_distrib_right,
        ← UInt8.toBitVec_and, ← UInt8.toBitVec_and, clear, latch]
      rfl
    rw [StatusRegister.isBusy, idle]
    rfl

theorem endures_busyFor (c : Chip) (reads : Nat) : c.Endures (c.busyFor reads) :=
  ⟨rfl, rfl, rfl, rfl, rfl, rfl, fun placed => placed, fun none => none⟩

end Chip

namespace Procedure

variable {σ ε α β : Type} {s : σ} {b : Bench} {good : α → σ → Bench → Prop}
  {bad : ε → σ → Bench → Prop}

/-- Run from `s` on `b`, the procedure does not fail. -/
def Succeeds (op : Procedure σ ε α) (s : σ) (b : Bench) : Prop :=
  op.Ensures s b (fun _ _ _ => True) fun _ _ _ => False

variable {op : Procedure σ ε α}

theorem Succeeds.ensures (h : op.Succeeds s b) (known : op.Ensures s b good bad) :
    op.Ensures s b good fun _ _ _ => False :=
  (Ensures.and h known).mono (fun _ _ _ => And.right) fun _ _ _ => And.left

theorem Succeeds.exists_run (h : op.Succeeds s b) :
    ∃ a s' b', (op.script s).run b = ((.ok a, s'), b') := by
  unfold Succeeds Ensures at h
  split at h
  · next a s' b' run => exact ⟨a, s', b', run⟩
  · exact h.elim

end Procedure

namespace Driver

open Procedure

variable {unit : EraseUnit} {d : Driver} {b : Bench}

/-! ### Waiting -/

theorem awaitIdleWithin_succeeds (sound : b.chip.Sound) (awake : b.chip.poweredDown = false)
    {polls : Nat} (within : b.chip.busyReads < polls) (pace : DriverOptions) :
    (awaitIdleWithin pace polls).Succeeds d b := by
  induction polls generalizing b with
  | zero => exact absurd within (Nat.not_lt_zero _)
  | succ polls ih =>
    -- one turn of the loop, with or without a pause before it
    have poll {b : Bench} (sound : b.chip.Sound) (awake : b.chip.poweredDown = false)
        (within : b.chip.busyReads < polls + 1) : (do
          let status ← readStatus1
          if status.isBusy then awaitIdleWithin pace polls : FlashM Unit).Succeeds d b := by
      refine (ensures_bind _ _).mpr ((ensures_readStatus1_awake awake).mono ?_
        fun _ _ _ faults => faults sound.noFaults)
      intro status _ b' ended
      obtain ⟨rfl, rfl, chip⟩ := ended
      rw [Chip.isBusy_status1_eq sound.placed, Chip.isBusy_eq sound.free]
      refine (ensures_ite _ _ _).mpr ⟨fun busy => ?_, fun _ => trivial⟩
      have later := (b.chip.endures_busyFor _).trans chip.endures
      obtain ⟨_, _, _, same, -⟩ := chip
      apply ih (sound.later later) (by rw [same]; exact awake)
      rw [same]
      have : 0 < b.chip.busyReads := of_decide_eq_true busy
      show b.chip.busyReads - 1 < polls
      omega
    refine (ensures_ite _ _ _).mpr ⟨fun _ => ?_, fun _ => poll sound awake within⟩
    exact (ensures_bind _ _).mpr ((ensures_sleep _).mpr (poll sound awake within))

theorem awaitIdle_succeeds (sound : b.chip.Sound) (awake : b.chip.poweredDown = false)
    (within : b.chip.busyReads < d.options.maxPolls) : awaitIdle.Succeeds d b :=
  (ensures_bind _ _).mpr (awaitIdleWithin_succeeds sound awake within d.options)

theorem finishWithin_succeeds (erasing : d.state = .erasing) (sound : b.chip.Sound)
    (awake : b.chip.poweredDown = false) {remaining : Nat}
    (within : b.chip.busyReads ≤ remaining) : (finishWithin remaining).Succeeds d b := by
  have progress {b : Bench} (sound : b.chip.Sound) (awake : b.chip.poweredDown = false) :
      eraseProgress.Ensures d b
        (fun progress d' b' => progress = .done ∨ 0 < b.chip.busyReads ∧ d' = d ∧
          (b.chip.busyFor (b.chip.busyReads - 1)).Alike b'.chip)
        fun _ _ _ => False := by
    simp only [eraseProgress, ensures_bind, ensures_get, erasing]
    refine ensures_liftM_ask (i := .readStatus1) trivial
      (fun _ _ faults _ => absurd sound.noFaults faults) fun b' _ chip => ?_
    rw [Chip.obey_readStatus1, if_neg (by simp [awake])] at chip ⊢
    simp only [ensures_ite, ensures_bind, ensures_setState, ensures_pure]
    refine ⟨fun busy => .inr ⟨?_, trivial, chip⟩, fun _ => .inl trivial⟩
    rw [show StatusRegister.ofReply [b.chip.status1] = ⟨b.chip.status1⟩ from rfl,
      Chip.isBusy_status1_eq sound.placed, Chip.isBusy_eq sound.free] at busy
    exact of_decide_eq_true busy
  induction remaining generalizing b with
  | zero =>
    unfold finishWithin
    refine (ensures_bind _ _).mpr ((progress sound awake).mono ?_ fun _ _ _ => False.elim)
    rintro _ _ b' (rfl | ⟨busy, -⟩)
    · trivial
    · omega
  | succ remaining ih =>
    unfold finishWithin
    refine (ensures_bind _ _).mpr ((progress sound awake).mono ?_ fun _ _ _ => False.elim)
    rintro answer _ b' (rfl | ⟨busy, rfl, chip⟩)
    · trivial
    · have later := (b.chip.endures_busyFor _).trans chip.endures
      obtain ⟨_, _, _, same, -⟩ := chip
      have awake' : b'.chip.poweredDown = false := by rw [same]; exact awake
      have within' : b'.chip.busyReads ≤ remaining := by
        rw [same]
        show b.chip.busyReads - 1 ≤ remaining
        omega
      cases answer with
      | done => trivial
      | running retryAfter =>
        refine (ensures_bind _ _).mpr ((ensures_sleep _).mpr ?_)
        exact ih (sound.later later) awake' within'

/-! ### Programs -/

theorem programPiece_succeeds (held : d.Held True unit b) (idle : b.chip.isBusy = false)
    (prompt : b.chip.Prompt d.options) {p : Piece} (fits : p.Fits b.chip.memory.size) :
    (programPiece p).Succeeds d b := by
  obtain ⟨knows, awake⟩ := held.attuned.awake held.active
  have size := knows.size_bounds.2.2
  have some_data := List.length_pos_iff.mpr fits.data_ne_nil
  have legible : (Instruction.programPage p.address p.data).Fits :=
    ⟨by have := fits.bound; omega, fits.data_ne_nil⟩
  simp only [programPiece, Succeeds, ensures_bind]
  refine ensures_enabled legible awake (fun armed _ _ _ => armed prompt.noFaults)
    fun reply b' link chip => ?_
  have later := (b.chip.endures_enabled.trans (Chip.endures_execute _ _)).trans chip.endures
  rw [Chip.enabled_programPage awake (knows.serves trivial), idle,
    if_neg Bool.false_ne_true] at chip
  obtain ⟨_, _, _, same, -⟩ := chip
  refine awaitIdle_succeeds (prompt.sound.later later) ?_ ?_ <;> rw [same]
  · exact awake
  · exact prompt.programBusy

theorem programPieces_succeeds (held : d.Held True unit b) (idle : b.chip.isBusy = false)
    (prompt : b.chip.Prompt d.options) {pieces : List Piece}
    (fits : ∀ p ∈ pieces, p.Fits b.chip.memory.size) (done : Nat) :
    (programPieces done pieces).Succeeds d b := by
  induction pieces generalizing b done with
  | nil => trivial
  | cons p rest ih =>
    have known := (((held_lasts True unit).programPiece p d b held).and (ensures_endures _)).and
      (ensures_programPiece held (fits p List.mem_cons_self))
    have first := (programPiece_succeeds held idle prompt (fits p List.mem_cons_self)).ensures known
    unfold programPieces
    refine (ensures_bind _ _).mpr ((ensures_tryCatch _ _).mpr (first.mono ?_ fun _ _ _ =>
      False.elim))
    intro _ _ b₁ ended
    obtain ⟨⟨held₁, -, endures⟩, rfl, idle₁, -⟩ := ended
    refine ih held₁ idle₁ (prompt.later endures) (fun q mem => ?_) _
    rw [endures.size]
    exact fits q (List.mem_cons_of_mem _ mem)

theorem program_succeeds (settled : d.Settled True unit b) (ready : d.state = .ready)
    (idle : b.chip.isBusy = false) (prompt : b.chip.Prompt d.options) {offset : Nat} {data : Bytes}
    (bound : offset + data.length ≤ b.chip.memory.size) : (program offset data).Succeeds d b := by
  have held := settled.held (by rw [ready]; trivial)
  have knows := held.attuned.knows held.active
  have word := knows.size_lt_limit
  unfold program Succeeds
  simp only [ensures_bind, ensures_get, ensures_ite, ensures_throw, ensures_guardReady,
    ensures_setState, ensures_resting]
  refine ⟨fun _ => ⟨fun _ => ?_, fun outside => outside (knows.covers_iff.mpr bound)⟩,
    fun unready => unready ready⟩
  exact programPieces_succeeds (held.setState .programming trivial) idle prompt
    (fun p mem => fits_of_mem_splitPages bound word mem) 0

/-! ### Verified erases -/

/-- An erase from its start to its end does not fail. -/
theorem eraseToEnd_succeeds {alone : Prop} (settled : d.Settled alone unit b)
    (ready : d.state = .ready) (idle : b.chip.isBusy = false) (sound : b.chip.Sound)
    (within : b.chip.eraseBusy ≤ d.options.eraseTimeout) {i : Instruction} {size address : Nat}
    (fits : i.Fits) (erases : i.erasedUnit? b.chip.memory.size = some (size, address)) :
    (beginErase i >>= fun _ => finishErase).Succeeds d b := by
  have awake := (settled.attuned.awake (by rw [ready]; trivial)).2
  unfold beginErase Succeeds
  simp only [ensures_bind, ensures_guardReady, ensures_setState]
  refine ⟨fun _ => ?_, fun unready => unready ready⟩
  refine ensures_enabled fits awake (fun armed _ _ _ => armed sound.noFaults)
    fun reply b' link chip => ?_
  have later := (b.chip.endures_enabled.trans (Chip.endures_execute _ _)).trans chip.endures
  rw [Chip.enabled_erase awake erases, idle, if_neg Bool.false_ne_true] at chip
  obtain ⟨_, _, _, same, -⟩ := chip
  refine (ensures_bind _ _).mpr (finishWithin_succeeds rfl (sound.later later) ?_ ?_) <;>
    rw [same]
  · exact awake
  · exact within

theorem eraseSector_succeeds {alone : Prop} (settled : d.Settled alone unit b)
    (ready : d.state = .ready) (idle : b.chip.isBusy = false) (sound : b.chip.Sound)
    (within : b.chip.eraseBusy ≤ d.options.eraseTimeout) {sector : Nat}
    (inside : sector < d.layout.sectorCount) :
    (beginEraseSector sector >>= fun _ => finishErase).Succeeds d b := by
  have knows := settled.attuned.knows (by rw [ready]; trivial)
  have bound : sector * unit.size < 16777216 :=
    Nat.lt_of_lt_of_le (settled.attuned.sector_lt knows inside) knows.size_bounds.2.2
  have found : d.layout.sectorStart? sector = some (sector * unit.size) := by
    rw [← settled.attuned.eraseUnit]
    exact knows.sectorStart?_eq_some_iff.mpr ⟨inside, rfl⟩
  have erased := (ensures_bind _ _).mp (eraseToEnd_succeeds settled ready idle sound within
    (i := .eraseSector d.options.eraseUnit (sector * unit.size)) bound rfl)
  unfold beginEraseSector sectorStart Succeeds
  simp only [ensures_bind, ensures_guardReady, ensures_get, found, ensures_pure]
  exact ⟨fun _ => erased, fun unready => unready ready⟩

/-- Nothing is lost, and the sector reads as ones. -/
theorem ensures_eraseSector_prompt (settled : d.Settled True unit b) (ready : d.state = .ready)
    (idle : b.chip.isBusy = false) (prompt : b.chip.Prompt d.options) {sector : Nat}
    (inside : sector < d.layout.sectorCount) :
    (beginEraseSector sector >>= fun _ => finishErase).Ensures d b
      (fun _ d' b' => d' = d ∧ d.Settled True unit b' ∧ b.chip.Endures b'.chip ∧
        b'.chip.isBusy = false ∧
        b'.chip.memory.slice (sector * unit.size) unit.size = List.replicate unit.size erasedByte)
      fun _ _ _ => False := by
  have knows := settled.attuned.knows (by rw [ready]; trivial)
  have bound := settled.attuned.sector_lt knows inside
  refine (eraseSector_succeeds settled ready idle prompt.sound prompt.eraseBusy inside).ensures
    ((ensures_bind _ _).mpr (ensures_eraseSector settled (fun _ _ _ _ => trivial)
      (fun _ _ _ _ _ _ => trivial) fun b' _ _ settled' endures idle' memory => ?_))
  refine ⟨rfl, settled', endures, idle', ?_⟩
  rw [memory, idle, if_neg Bool.false_ne_true, prompt.stuckCells]
  exact Memory.slice_erase (knows.unit_dvd unit) (Nat.dvd_mul_left _ _) bound

theorem checkFrom_succeeds (held : d.Held True unit b) (idle : b.chip.isBusy = false)
    (noFaults : b.chip.faults = .none) {step chunks offset : Nat} (pos : 0 < step)
    (bound : offset + chunks * step ≤ b.chip.memory.size)
    (clean : b.chip.memory.slice offset (chunks * step) =
      List.replicate (chunks * step) erasedByte) :
    (checkFrom erasedByte step chunks offset).Succeeds d b := by
  induction chunks generalizing b offset with
  | zero => trivial
  | succ chunks ih =>
    have knows := held.attuned.knows held.active
    have word := knows.size_lt_limit
    rw [Nat.succ_mul] at bound clean
    have next : Word32.satAdd offset step = offset + step :=
      Word32.satAdd_of_lt (by omega)
    rw [Nat.add_comm (chunks * step), Memory.slice_add, ← List.replicate_append_replicate] at clean
    obtain ⟨chunk, rest⟩ := List.append_inj clean (by simp)
    have known := (((held_lasts True unit).ask (i := .readArray offset step) trivial d b held).and
      (ensures_endures _)).and (ensures_readArray held (by omega) pos)
    unfold checkFrom
    refine (ensures_bind _ _).mpr (known.mono ?_ fun _ _ _ h => h.2 noFaults)
    intro reply _ b₁ ended
    obtain ⟨⟨held₁, -, endures⟩, rfl, rfl, memory, busy⟩ := ended
    have erased : (b.chip.shown offset step).findIdx? (· != erasedByte) = none := by
      rw [Chip.shown_of_idle idle, chunk, List.findIdx?_eq_none_iff]
      intro byte mem
      simp [List.eq_of_mem_replicate mem]
    simp only [erased, next]
    exact ih held₁ (busy.trans idle) (endures.noFaults noFaults) (by rw [memory]; omega)
      (by rw [memory]; exact rest)

theorem checkErased_succeeds (settled : d.Settled True unit b) (ready : d.state = .ready)
    (idle : b.chip.isBusy = false) (noFaults : b.chip.faults = .none) {sector : Nat}
    (inside : sector < d.layout.sectorCount)
    (clean : b.chip.memory.slice (sector * unit.size) unit.size =
      List.replicate unit.size erasedByte) : (checkErased sector).Succeeds d b := by
  have held := settled.held (by rw [ready]; trivial)
  have knows := held.attuned.knows held.active
  have reading := held.setState .reading trivial
  have bound := settled.attuned.sector_le knows inside
  have found := knows.sectorStart?_eq_some_iff.mpr ⟨inside, rfl⟩
  obtain ⟨chunks, whole⟩ := d.exists_chunks unit
  rw [settled.attuned.eraseUnit] at found
  rw [← whole] at bound found clean
  unfold checkErased sectorStart Succeeds
  simp only [ensures_bind, ensures_guardReady, ensures_setState, ensures_resting, ensures_get,
    found, ensures_pure]
  refine ⟨fun _ => ?_, fun unready => unready ready⟩
  rw [settled.attuned.sectorSize, ← whole]
  exact (ensures_checkRange_iff (reading.attuned.knows reading.active) bound).mpr
    (checkFrom_succeeds reading idle noFaults d.compareBuffer.size_pos bound clean)

theorem eraseRun_succeeds (settled : d.Settled True unit b) (ready : d.state = .ready)
    (idle : b.chip.isBusy = false) (prompt : b.chip.Prompt d.options) (verify : Bool)
    {count sector : Nat} (inside : sector + count ≤ d.layout.sectorCount) :
    (Disk.eraseRun verify count sector).Succeeds d b := by
  induction count generalizing b sector with
  | zero => trivial
  | succ count ih =>
    have first : sector < d.layout.sectorCount := by omega
    -- the two operations that erase one sector are known together, so the program is taken apart
    -- behind the second
    have erased := (ensures_bind _ _).mp
      (ensures_eraseSector_prompt settled ready idle prompt first)
    unfold Disk.eraseRun
    refine (ensures_bind _ _).mpr (erased.mono (fun _ _ _ finished => ?_) fun _ _ _ => False.elim)
    refine (ensures_bind _ _).mpr (finished.mono ?_ fun _ _ _ => False.elim)
    intro _ _ b₁ ended
    obtain ⟨rfl, settled₁, endures₁, idle₁, clean⟩ := ended
    cases verify with
    | false =>
      rw [if_neg Bool.false_ne_true]
      exact ih settled₁ idle₁ (prompt.later endures₁) (by omega)
    | true =>
      have checked := (checkErased_succeeds settled₁ ready idle₁ (endures₁.noFaults prompt.noFaults)
        first clean).ensures (((keeps_checkErased sector _ b₁ settled₁).and (ensures_endures _)).and
          (ensures_checkErased settled₁ idle₁ sector))
      rw [if_pos rfl]
      refine (ensures_bind _ _).mpr (checked.mono ?_ fun _ _ _ => False.elim)
      intro _ _ b₂ ended
      obtain ⟨⟨settled₂, -, endures₂⟩, rfl, idle₂, -⟩ := ended
      exact ih settled₂ idle₂ (prompt.later (endures₁.trans endures₂)) (by omega)

end Driver

namespace Disk

open Procedure

variable {unit : EraseUnit} {d : Disk} {b : Bench}

/-! ### Writes -/

theorem eraseUnder_succeeds {flash : Driver} (settled : flash.Settled True unit b)
    (ready : flash.state = .ready) (idle : b.chip.isBusy = false)
    (prompt : b.chip.Prompt flash.options) (verify : Bool) {perSector sector : Nat}
    (pos : 0 < perSector) (bound : (sector + 1) * (perSector * unit.size) ≤ flash.layout.size) :
    (eraseUnder perSector sector verify).Succeeds flash b := by
  have run := (Driver.eraseRun_succeeds settled ready idle prompt verify
    (flashSectors_le settled pos bound)).ensures ((Driver.settles_eraseRun _ _ _).ensures b)
  exact (ensures_eraseUnder settled pos bound
    (run.mono (fun _ _ _ same => ⟨same, trivial⟩) fun _ _ _ => id)).mono
      (fun _ _ _ _ => trivial) fun _ _ _ => id

theorem replaceSector_succeeds {flash : Driver} (settled : flash.Settled True unit b)
    (ready : flash.state = .ready) (idle : b.chip.isBusy = false)
    (prompt : b.chip.Prompt flash.options) {perSector sector : Nat} {data : Bytes}
    (pos : 0 < perSector) (whole : data.length = perSector * unit.size)
    (bound : (sector + 1) * data.length ≤ flash.layout.size) :
    (replaceSector perSector sector data).Succeeds flash b := by
  rw [whole] at bound
  have erased := (eraseUnder_succeeds settled ready idle prompt true pos bound).ensures
    (((Driver.keeps_eraseUnder perSector sector true flash b settled).and (ensures_endures _)).and
      (ensures_eraseUnder settled pos bound (Driver.ensures_eraseRun_verified settled)))
  unfold replaceSector
  refine (ensures_bind _ _).mpr (erased.mono ?_ fun _ _ _ => id)
  intro offset flash b₁ ended
  obtain ⟨⟨settled₁, -, endures⟩, rfl, rfl, idle₁, -⟩ := ended
  refine Driver.program_succeeds settled₁ ready ?_ (prompt.later endures) ?_
  · rw [idle₁]
    simp [Nat.ne_of_gt pos]
  · have knows := settled₁.attuned.knows (by rw [ready]; trivial)
    rw [whole, ← knows.layout_size, ← Nat.succ_mul]
    exact bound

theorem writeFrom_succeeds (laid : d.Laid True unit b) (ready : d.flash.state = .ready)
    (idle : b.chip.isBusy = false) (prompt : b.chip.Prompt d.flash.options)
    {completed count sector : Nat} {data : Bytes} (length : data.length = count * d.sectorSize)
    (bound : (sector + count) * d.sectorSize ≤ d.flash.layout.size) :
    (writeFrom completed count sector data).Succeeds d b := by
  induction count generalizing completed sector data b with
  | zero => trivial
  | succ count ih =>
    have split := sectors_succ_mul sector count d.sectorSize
    rw [split] at bound
    rw [Nat.succ_mul] at length
    have taken : (data.take d.sectorSize).length = d.sectorSize := by
      rw [List.length_take]
      omega
    have whole := taken.trans laid.whole.symm
    have inside : (sector + 1) * (data.take d.sectorSize).length ≤ d.flash.layout.size := by
      rw [taken]
      omega
    have replaced := (replaceSector_succeeds laid.settled ready idle prompt laid.flashSectors_pos
      whole inside).ensures (((Driver.keeps_replaceSector _ _ _ _ _ laid.settled).and
        (ensures_endures _)).and
          (ensures_replaceSector laid.settled laid.flashSectors_pos whole inside))
    rw [writeFrom, Succeeds, ensures_bind, ensures_get, ensures_bind, Driver.ensures_onFlash]
    refine replaced.mono ?_ fun _ _ _ => False.elim
    intro _ flash b₁ ended
    obtain ⟨⟨settled₁, -, endures⟩, rfl, idle₁, -⟩ := ended
    refine ih ⟨settled₁, laid.pos, laid.whole⟩ idle₁ (prompt.later endures) ?_ ?_
    · rw [List.length_drop]
      omega
    · rw [Nat.add_assoc, Nat.add_comm 1, split]
      exact bound

/-- The look at the protection bits finds them clear. -/
theorem isProtected_clear {flash : Driver} (awake : b.chip.poweredDown = false)
    (noFaults : b.chip.faults = .none) (unprotected : b.chip.protectBits = 0) :
    Driver.isProtected.Ensures flash b (fun isProtected _ _ => isProtected = false)
      fun _ _ _ => False := by
  rw [Driver.isProtected, ensures_bind]
  refine (Driver.ensures_readStatus1_awake awake).mono ?_ fun _ _ _ faults => faults noFaults
  intro _ _ b' ended
  obtain ⟨rfl, -, -⟩ := ended
  rw [ensures_pure, Chip.protection_status1 unprotected]
  rfl

/-- The check sees that nothing is protected. -/
theorem guardWritable_succeeds (laid : d.Laid True unit b) (ready : d.flash.state = .ready)
    (noFaults : b.chip.faults = .none) (unprotected : b.chip.protectBits = 0) :
    guardWritable.Succeeds d b := by
  have awake := (laid.settled.attuned.awake (by rw [ready]; trivial)).2
  rw [guardWritable, Succeeds, ensures_bind, Driver.ensures_onFlash]
  refine (isProtected_clear awake noFaults unprotected).mono ?_ fun _ _ _ => False.elim
  rintro _ _ _ rfl
  trivial

/-- A write of an unprotected disk succeeds if its chip is idle and prompt. -/
theorem write_succeeds (laid : d.Laid True unit b) (ready : d.flash.state = .ready)
    (idle : b.chip.isBusy = false) (prompt : b.chip.Prompt d.flash.options)
    (unprotected : b.chip.protectBits = 0) {start n : Nat} {data : Bytes}
    (span : d.span? start data.length = some n) : (write start data).Succeeds d b := by
  obtain ⟨length, inside⟩ := span?_eq_some span
  have writable := (guardWritable_succeeds laid ready prompt.noFaults unprotected).ensures
    (ensures_guardWritable laid ready)
  unfold write Succeeds
  refine (ensures_bind _ _).mpr (ensures_guardReady.mono ?_ fun _ _ _ unready => unready ready)
  intro _ d b ended
  obtain ⟨rfl, rfl, -⟩ := ended
  refine (ensures_bind _ _).mpr ((ensures_guardSpan start data.length).mono ?_ fun _ _ _ none => ?_)
  · intro count d b ended
    obtain ⟨rfl, rfl, span'⟩ := ended
    cases span.symm.trans span'
    refine (ensures_bind _ _).mpr (writable.mono ?_ fun _ _ _ => False.elim)
    intro _ d b₁ ended
    obtain ⟨rfl, laid₁, endures, chip⟩ := ended
    have idle₁ : b₁.chip.isBusy = false := by
      obtain ⟨free, done⟩ := Chip.isBusy_eq_false_iff.mp idle
      rw [chip.isBusy, Chip.isBusy_busyFor free, done]
      rfl
    have written : (writeFrom 0 n start data).Succeeds d b₁ :=
      writeFrom_succeeds laid₁ ready idle₁ (prompt.later endures) length.symm
        (mul_sectorSize_le inside)
    exact (ensures_bind _ _).mpr (written.mono (fun _ _ _ _ => trivial) fun _ _ _ => False.elim)
  · rw [none] at span
    contradiction

/-! ### Trims -/

/-- No sector is left out, and the chip is idle at the end. -/
theorem ensures_trimFrom_prompt (laid : d.Laid True unit b) (ready : d.flash.state = .ready)
    (idle : b.chip.isBusy = false) (prompt : b.chip.Prompt d.flash.options)
    {completed count sector : Nat}
    (bound : (sector + count) * d.sectorSize ≤ d.flash.layout.size) :
    (trimFrom completed count sector).Ensures d b (fun _ _ b' => b'.chip.isBusy = false)
      fun _ _ _ => False := by
  induction count generalizing completed sector b with
  | zero => exact idle
  | succ count ih =>
    have split := sectors_succ_mul sector count d.sectorSize
    rw [split] at bound
    have inside : (sector + 1) * (d.flashSectors * unit.size) ≤ d.flash.layout.size := by
      rw [laid.whole]
      omega
    have erased := (eraseUnder_succeeds laid.settled ready idle prompt false laid.flashSectors_pos
      inside).ensures (((Driver.keeps_eraseUnder _ _ _ _ _ laid.settled).and
        (ensures_endures _)).and (ensures_eraseUnder laid.settled laid.flashSectors_pos inside
          (Driver.ensures_eraseRun laid.settled d.flashSectors (sector * d.flashSectors))))
    rw [trimFrom, ensures_bind, ensures_get, ensures_bind, Driver.ensures_onFlash]
    refine erased.mono ?_ fun _ _ _ => False.elim
    intro _ flash b₁ ended
    obtain ⟨⟨settled₁, -, endures⟩, rfl, -, idle₁, -⟩ := ended
    refine ih ⟨settled₁, laid.pos, laid.whole⟩ ?_ (prompt.later endures) ?_
    · rw [idle₁, idle]
      rfl
    · rw [Nat.add_assoc, Nat.add_comm 1, split]
      exact bound

/-- A trim of an unprotected disk succeeds if its chip is idle and prompt, and leaves it idle. -/
theorem ensures_trim_prompt (laid : d.Laid True unit b) (ready : d.flash.state = .ready)
    (idle : b.chip.isBusy = false) (prompt : b.chip.Prompt d.flash.options)
    (unprotected : b.chip.protectBits = 0) {start stop : Nat} (le : start ≤ stop)
    (inside : stop ≤ d.sectorCount) :
    (trim start stop).Ensures d b (fun _ _ b' => b'.chip.isBusy = false) fun _ _ _ => False := by
  have writable := (guardWritable_succeeds laid ready prompt.noFaults unprotected).ensures
    (ensures_guardWritable laid ready)
  simp only [trim, ensures_bind, ensures_get, ensures_ite, ensures_throw]
  refine ⟨fun outside => by omega, fun _ => writable.mono ?_ fun _ _ _ => False.elim⟩
  intro _ d b₁ ended
  obtain ⟨rfl, laid₁, endures, chip⟩ := ended
  refine ensures_trimFrom_prompt laid₁ ready ?_ (prompt.later endures) ?_
  · rw [chip.isBusy, Chip.isBusy_busyFor prompt.free, (Chip.isBusy_eq_false_iff.mp idle).2]
    rfl
  · rw [Nat.add_sub_cancel' le]
    exact mul_sectorSize_le inside

end Disk

end SerialFlash
