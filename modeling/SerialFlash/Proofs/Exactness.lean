import SerialFlash.Proofs.DiskTransfer
import SerialFlash.Proofs.Speech
import SerialFlash.Unbounded

/-!
No number of a driver or a disk leaves the 32-bit words. What is refused or clamped for being too
large has been refused before, by the bounds of the device: an identified device has at most 24
address bits, and every address or sector number that is computed lies in it or at its end. So each
operation does, on every bench, what it would do if its numbers had no bound.

Two procedures are the same from a state if they do the same on every bench. The rules go along the
way procedures are put together; what is behind a step need only be the same from the states that
the step ends in.
-/

namespace SerialFlash

namespace Procedure

variable {σ ε ε' α β : Type} {s : σ} {op op' : Procedure σ ε α}

/-- Started in `s`, the two do the same, whatever is on the bench. -/
def Same (op op' : Procedure σ ε α) (s : σ) : Prop :=
  ∀ b, (op'.script s).run b = (op.script s).run b

namespace Same

theorem refl (op : Procedure σ ε α) (s : σ) : Same op op s :=
  fun _ => rfl

theorem bind {f f' : α → Procedure σ ε β} (first : Same op op' s)
    (rest : ∀ b, op.Ensures s b (fun a s' _ => Same (f a) (f' a) s') fun _ _ _ => True) :
    Same (op >>= f) (op' >>= f') s := by
  intro b
  have ended := rest b
  unfold Ensures at ended
  rw [script_bind, script_bind, Script.run_bind, Script.run_bind, first b]
  split at ended
  · next run => rw [run]; exact ended _
  · next run => rw [run]; rfl

/-- What would come behind a failure does not matter. -/
theorem throw_bind (e : ε) {f f' : α → Procedure σ ε β} :
    Same ((throw e : Procedure σ ε α) >>= f) ((throw e : Procedure σ ε α) >>= f') s :=
  refl _ s

theorem get_bind {f f' : σ → Procedure σ ε β} (h : Same (f s) (f' s) s) :
    Same (get >>= f) (get >>= f') s := by
  intro b
  simpa using h b

theorem ite {c : Prop} [Decidable c] {op₁ op₁' op₂ op₂' : Procedure σ ε α}
    (yes : c → Same op₁ op₁' s) (no : ¬ c → Same op₂ op₂' s) :
    Same (if c then op₁ else op₂) (if c then op₁' else op₂') s := by
  split
  · next h => exact yes h
  · next h => exact no h

theorem map (f : α → β) (h : Same op op' s) : Same (f <$> op) (f <$> op') s := by
  intro b
  rw [script_map, script_map, Script.run_bind, Script.run_bind, h b]

theorem liftM_bind {op op' : StateT σ Script α} {f f' : α → StateT σ Script β}
    (first : Same (liftM op : Procedure σ ε α) (liftM op') s)
    (rest : ∀ b, Same (liftM (f ((op.run s).run b).1.1) : Procedure σ ε β)
      (liftM (f' ((op.run s).run b).1.1)) ((op.run s).run b).1.2) :
    Same (liftM (op >>= f) : Procedure σ ε β) (liftM (op' >>= f')) s := by
  intro b
  rw [script_liftM_bind, script_liftM_bind]
  exact bind first (fun b => (ensures_liftM_state op).mpr (rest b)) b

/-- Procedures whose outcome is wrapped up as a value. -/
theorem liftM_run {f : Except ε' α → β} {op op' : Procedure σ ε' α} (h : Same op op' s) :
    Same (liftM (f <$> ExceptT.run op : StateT σ Script β) : Procedure σ ε β)
      (liftM (f <$> ExceptT.run op' : StateT σ Script β)) s := by
  intro b
  rw [script_liftM_run, script_liftM_run, Script.run_bind, Script.run_bind, h b]

/-- What never fails is the same if the scripts run alike. -/
theorem of_liftM {op op' : StateT σ Script α}
    (h : Same (liftM op : Procedure σ ε α) (liftM op') s) (b : Bench) :
    (op'.run s).run b = (op.run s).run b := by
  have same := h b
  rw [script_liftM_state, script_liftM_state, Script.run_bind, Script.run_bind] at same
  generalize (op'.run s).run b = ended' at same ⊢
  generalize (op.run s).run b = ended at same ⊢
  obtain ⟨⟨_, _⟩, _⟩ := ended
  cases same
  rfl

end Same

end Procedure

open Procedure

/-! ### The driver -/

namespace Driver

variable {α : Type} {d : Driver}

theorem same_guardReady {op op' : FlashM α} (h : Same op op' d) :
    Same (do guardReady; op) (do guardReady; op') d :=
  .bind (.refl _ _) fun _ => ensures_guardReady.mpr ⟨fun _ => h, fun _ => trivial⟩

theorem same_resting {op op' : FlashM α} (h : Same op op' d) :
    Same (resting op) (resting op') d := by
  intro b
  rw [script_resting, script_resting, Script.run_bind, Script.run_bind, h b]

/-- Behind a step that settles, the driver is as it was. -/
theorem Settles.same_bind {β : Type} {op op' : FlashM α} {P : Instruction → Prop}
    (settles : Settles op P d) (first : Same op op' d) {f f' : α → FlashM β}
    (rest : ∀ a, Same (f a) (f' a) d) : Same (op >>= f) (op' >>= f') d := by
  refine .bind first fun b => (settles.ensures b).mono ?_ fun _ _ _ _ => trivial
  rintro a _ _ rfl
  exact rest a

/-- A piece of data is cut at the same addresses as long as it ends within the words. -/
theorem splitPages_eq {address : Nat} {data : Bytes} (word : address + data.length < Word32.limit) :
    Unbounded.splitPages address data = splitPages address data := by
  fun_induction splitPages address data with
  | case1 address data empty => rw [Unbounded.splitPages, if_pos empty]
  | case2 address data some piece ih =>
    have length : piece.length ≤ data.length := List.length_take_le' _ _
    have next : Word32.satAdd address piece.length = address + piece.length :=
      Word32.satAdd_of_lt (by omega)
    rw [next] at ih
    have rest : address + piece.length + (data.drop (pageRoom address)).length < Word32.limit := by
      rw [Nat.add_assoc, ← List.length_append, List.take_append_drop]
      exact word
    rw [next, Unbounded.splitPages, if_neg some]
    exact congrArg (Piece.mk address piece :: ·) (ih rest)

section

variable (suits : d.layout.Suits d.options.eraseUnit)

include suits

theorem covers_eq (offset length : Nat) :
    Unbounded.covers d.layout offset length = d.layout.covers offset length := by
  rw [Bool.eq_iff_iff, suits.covers_iff, Unbounded.covers, decide_eq_true_iff]

theorem same_read (offset length : Nat) :
    Same (read offset length) (Unbounded.read offset length) d := by
  refine same_guardReady (.get_bind ?_)
  rw [covers_eq suits]
  exact .refl _ _

theorem same_program (offset : Nat) (data : Bytes) :
    Same (program offset data) (Unbounded.program offset data) d := by
  refine same_guardReady (.get_bind ?_)
  rw [covers_eq suits]
  refine .ite (fun covered => ?_) fun _ => .throw_bind _
  have word := Nat.lt_of_le_of_lt (Layout.le_of_covers covered) suits.size_lt_limit
  rw [splitPages_eq word]
  exact .refl _ _

/-- No product of a sector and its size is too large. -/
theorem same_sectorStart (sector : Nat) :
    Same (sectorStart sector) (Unbounded.sectorStart sector) d := by
  refine .get_bind ?_
  rw [suits.sectorStart?_eq_ite, ← suits.sectorSize]
  by_cases inside : sector < d.layout.sectorCount
  · rw [if_pos inside, if_neg (Nat.not_le.mpr inside)]
    exact .refl _ _
  · rw [if_neg inside, if_pos (Nat.le_of_not_lt inside)]
    exact .refl _ _

theorem same_beginEraseSector (sector : Nat) :
    Same (beginEraseSector sector) (Unbounded.beginEraseSector sector) d := by
  refine same_guardReady (.bind (same_sectorStart suits sector) fun b => ?_)
  exact (ensures_trivial _).mono (fun _ d' _ _ => .refl _ d') fun _ _ _ => id

/-- A chunk is as long as it was asked for, so nothing in it is too far out to be told. -/
theorem same_checkFrom (erased : UInt8) {step chunks offset : Nat}
    (bound : offset + chunks * step ≤ d.layout.size) (pos : 0 < step) :
    Same (checkFrom erased step chunks offset) (Unbounded.checkFrom erased step chunks offset)
      d := by
  induction chunks generalizing offset with
  | zero => exact .refl _ _
  | succ chunks ih =>
    have word := suits.size_lt_limit
    have size := suits.bound
    rw [Nat.succ_mul] at bound
    refine .bind (.refl _ d) fun b => ?_
    refine ensures_ask (i := .readArray offset step) (show offset < 16777216 by omega)
      (fun _ _ _ _ => trivial) fun b' _ _ => ?_
    have length : (b.chip.obey b.link (.readArray offset step)).1.length = step := by
      rw [Chip.obey_readArray]
      split <;> simp
    generalize (b.chip.obey b.link (.readArray offset step)).1 = reply at length
    cases found : reply.findIdx? (· != erased) with
    | some k =>
      have inside : k < step := length ▸ (List.findIdx?_eq_some_iff_findIdx_eq.mp found).1
      simp only [Word32.satAdd_of_lt (show offset + k < Word32.limit by omega)]
      exact .refl _ _
    | none =>
      simp only [Word32.satAdd_of_lt (show offset + step < Word32.limit by omega)]
      exact ih (by omega)

theorem same_checkErased (sector : Nat) :
    Same (checkErased sector) (Unbounded.checkErased sector) d := by
  refine same_guardReady (.bind (same_sectorStart suits sector) fun b => ?_)
  refine ensures_sectorStart.mono ?_ fun _ _ _ _ => trivial
  intro start d b ended
  obtain ⟨found, rfl, -⟩ := ended
  obtain ⟨-, inside⟩ := suits.inside_of_sectorStart? found
  have word := suits.size_lt_limit
  have pos := d.compareBuffer.size_pos
  obtain ⟨chunks, whole⟩ := d.exists_chunks d.options.eraseUnit
  refine .bind (.refl _ _) fun b => (ensures_setState _).mpr ?_
  refine same_resting (.get_bind (.get_bind ?_))
  show Same (checkFrom _ d.compareBuffer.size ((Word32.satAdd start d.layout.sectorSize - start +
    d.compareBuffer.size - 1) / d.compareBuffer.size) start) (Unbounded.checkFrom _
      d.compareBuffer.size ((d.layout.sectorSize + d.compareBuffer.size - 1) / d.compareBuffer.size)
      start) _
  have stop : Word32.satAdd start d.layout.sectorSize = start + d.layout.sectorSize := by
    rw [suits.sectorSize]
    exact Word32.satAdd_of_lt (by omega)
  have count :
      (d.layout.sectorSize + d.compareBuffer.size - 1) / d.compareBuffer.size = chunks := by
    rw [suits.sectorSize, ← whole, Nat.add_sub_assoc pos, Nat.add_comm,
      Nat.add_mul_div_right _ _ pos, Nat.div_eq_of_lt (by omega), Nat.zero_add]
  rw [stop, Nat.add_sub_cancel_left, count]
  exact same_checkFrom (d := { d with state := .reading }) suits _ (by rw [whole]; exact inside) pos

/-! ### Runs of erases -/

theorem same_eraseFrom {units offset : Nat}
    (bound : offset + units * Nor.eraseSize ≤ d.layout.size) :
    Same (Nor.eraseFrom units offset) (Unbounded.eraseFrom units offset) d := by
  induction units generalizing offset with
  | zero => exact .refl _ _
  | succ units ih =>
    have word := suits.size_lt_limit
    rw [Nat.succ_mul] at bound
    have next : Word32.satAdd offset Nor.eraseSize = offset + Nor.eraseSize :=
      Word32.satAdd_of_lt (by omega)
    have erased := settles_eraseToEnd (d := d)
      (always_beginErase (i := .eraseSector .sector4K offset) trivial)
    have rest : Same (Nor.eraseFrom units (offset + Nor.eraseSize))
        (Unbounded.eraseFrom units (offset + Nor.eraseSize)) d := ih (by omega)
    have both := erased.same_bind (.refl _ d) fun _ => rest
    rw [bind_assoc, bind_assoc] at both
    rwa [Nor.eraseFrom, Unbounded.eraseFrom, next]

theorem same_norErase (start stop : Nat) :
    Same (Nor.erase start stop) (Unbounded.norErase start stop) d := by
  refine .get_bind (.ite (fun _ => .throw_bind _) fun ordered => .ite (fun aligned => ?_)
    fun _ => .throw_bind _)
  obtain ⟨first, last⟩ := aligned
  have whole : (stop - start) / Nor.eraseSize * Nor.eraseSize = stop - start :=
    Nat.div_mul_cancel (Nat.dvd_sub (Nat.dvd_of_mod_eq_zero last) (Nat.dvd_of_mod_eq_zero first))
  exact same_eraseFrom suits (by omega)

theorem same_eraseRun (verify : Bool) (count sector : Nat) :
    Same (Disk.eraseRun verify count sector) (Unbounded.eraseRun verify count sector) d := by
  induction count generalizing sector with
  | zero => exact .refl _ _
  | succ count ih =>
    have begun : Same (do beginEraseSector sector; finishErase)
        (do Unbounded.beginEraseSector sector; finishErase) d :=
      .bind (same_beginEraseSector suits sector) fun b =>
        (ensures_trivial _).mono (fun _ d' _ _ => .refl _ d') fun _ _ _ => id
    have erased := settles_eraseToEnd (always_beginEraseSector (d := d) sector)
    unfold Disk.eraseRun Unbounded.eraseRun
    cases verify with
    | false =>
      have both := erased.same_bind begun fun _ => ih (sector + 1)
      rwa [bind_assoc, bind_assoc] at both
    | true =>
      have both := erased.same_bind begun fun _ =>
        (settles_checkErased sector).same_bind (same_checkErased suits sector) fun _ =>
          ih (sector + 1)
      rwa [bind_assoc, bind_assoc] at both

/-- The flash sectors under a sector of the disk are counted in words. -/
theorem same_eraseUnder {perSector sector : Nat}
    (word : (sector + 1) * perSector < Word32.limit) (verify : Bool) :
    Same (Disk.eraseUnder perSector sector verify)
      (Unbounded.eraseUnder perSector sector verify) d := by
  rw [Nat.succ_mul] at word
  have first : Word32.mul? sector perSector = some (sector * perSector) :=
    Word32.mul?_eq_some_iff.mpr ⟨by omega, rfl⟩
  have count : Word32.satAdd (sector * perSector) perSector - sector * perSector = perSector := by
    rw [Word32.satAdd_of_lt word, Nat.add_sub_cancel_left]
  simp only [Disk.eraseUnder, first, count]
  exact (settles_eraseRun verify _ _).same_bind (same_eraseRun suits _ _ _) fun _ =>
    same_sectorStart suits _

theorem same_replaceSector {perSector sector : Nat}
    (word : (sector + 1) * perSector < Word32.limit) (data : Bytes) :
    Same (Disk.replaceSector perSector sector data)
      (Unbounded.replaceSector perSector sector data) d :=
  (settles_eraseUnder _ _ _).same_bind (same_eraseUnder suits word true) fun offset =>
    same_program suits offset data

end

end Driver

/-! ### The disk -/

namespace Disk

variable {α β : Type} {d : Disk}

theorem Settles.same_bind {op op' : DiskM α} {P : Instruction → Prop} (settles : Settles op P d)
    (first : Same op op' d) {f f' : α → DiskM β} (rest : ∀ a, Same (f a) (f' a) d) :
    Same (op >>= f) (op' >>= f') d := by
  refine .bind first fun b => (settles.ensures b).mono ?_ fun _ _ _ _ => trivial
  rintro a _ _ rfl
  exact rest a

/-- The rule for an operation of the flash that settles. What comes behind a failure is common. -/
theorem same_onFlash_bind {op op' : FlashM α} {P : Instruction → Prop}
    (settles : Driver.Settles op P d.flash) (same : Same op op' d.flash)
    {f f' : Except (DriverError BusError) α → DiskM β} (done : ∀ a, Same (f (.ok a)) (f' (.ok a)) d)
    (failed : ∀ e, f' (.error e) = f (.error e)) :
    Same (liftM (onFlash op) >>= f) (liftM (onFlash op') >>= f') d := by
  refine .bind (fun b => ?_) fun b => ?_
  · rw [script_onFlash, script_onFlash, Script.run_bind, Script.run_bind, same b]
  · refine (Driver.ensures_onFlash op).mpr ((settles.ensures b).mono ?_ fun e _ _ _ => ?_)
    · rintro a _ _ rfl
      exact done a
    · rw [failed]
      exact .refl _ _

section

variable (suits : d.flash.layout.Suits d.flash.options.eraseUnit)

include suits

theorem same_guardSpan (start length : Nat) :
    Same (guardSpan start length) (Unbounded.guardSpan start length) d := by
  have count : d.sectorCount < Word32.limit :=
    Nat.lt_of_le_of_lt (Nat.div_le_self _ _) suits.size_lt_limit
  refine .get_bind ?_
  by_cases span : length % d.sectorSize = 0 ∧ start + length / d.sectorSize ≤ d.sectorCount
  · have word : start + length / d.sectorSize < Word32.limit := by omega
    have sectors : length / d.sectorSize < Word32.limit := by omega
    simp only [span?, Word32.add?, span, sectors, word, and_self, if_true]
    exact .refl _ _
  · have none : d.span? start length = none := by
      rw [span?, Word32.add?]
      grind
    simp only [none, span, if_false]
    exact .refl _ _

/-- Behind the guard the sectors of a transfer are those of the disk. -/
theorem same_guardSpan_bind {start length : Nat} {f f' : Nat → DiskM β}
    (rest : ∀ count, start + count ≤ d.sectorCount → Same (f count) (f' count) d) :
    Same (guardSpan start length >>= f) (Unbounded.guardSpan start length >>= f') d := by
  refine .bind (same_guardSpan suits start length) fun b => ?_
  refine (ensures_guardSpan start length).mono ?_ fun _ _ _ _ => trivial
  intro count d b ended
  obtain ⟨rfl, -, span⟩ := ended
  exact rest count (span?_eq_some span).2

theorem flashSectors_lt {sector : Nat} (inside : sector < d.sectorCount) :
    (sector + 1) * d.flashSectors < Word32.limit := by
  refine Nat.lt_of_le_of_lt ?_ suits.size_lt_limit
  calc (sector + 1) * d.flashSectors
      ≤ (sector + 1) * d.sectorSize := Nat.mul_le_mul_left _ (Nat.div_le_self _ _)
    _ ≤ d.flash.layout.size := mul_sectorSize_le inside

theorem same_readFrom {completed count sector : Nat} (inside : sector + count ≤ d.sectorCount) :
    Same (readFrom completed count sector) (Unbounded.readFrom completed count sector) d := by
  induction count generalizing completed sector with
  | zero => exact .refl _ _
  | succ count ih =>
    have word : sector * d.sectorSize < Word32.limit :=
      Nat.lt_of_le_of_lt (mul_sectorSize_le (by omega)) suits.size_lt_limit
    refine .get_bind ?_
    simp only [offsetOf?, Word32.mul?, word, if_true]
    refine same_onFlash_bind (Driver.settles_read _ _) (Driver.same_read suits _ _)
      (fun bytes => ?_) fun _ => rfl
    exact (settles_readFrom _ _ _).same_bind (ih (by omega)) fun _ => .refl _ _

theorem same_writeFrom {completed count sector : Nat} {data : Bytes}
    (inside : sector + count ≤ d.sectorCount) :
    Same (writeFrom completed count sector data)
      (Unbounded.writeFrom completed count sector data) d := by
  induction count generalizing completed sector data with
  | zero => exact .refl _ _
  | succ count ih =>
    have word := flashSectors_lt suits (show sector < d.sectorCount by omega)
    exact .get_bind (same_onFlash_bind (Driver.settles_replaceSector _ _ _)
      (Driver.same_replaceSector suits word _) (fun _ => ih (by omega)) fun _ => rfl)

theorem same_trimFrom {completed count sector : Nat} (inside : sector + count ≤ d.sectorCount) :
    Same (trimFrom completed count sector) (Unbounded.trimFrom completed count sector) d := by
  induction count generalizing completed sector with
  | zero => exact .refl _ _
  | succ count ih =>
    have word := flashSectors_lt suits (show sector < d.sectorCount by omega)
    exact .get_bind (same_onFlash_bind (Driver.settles_eraseUnder _ _ _)
      (Driver.same_eraseUnder suits word _) (fun _ => ih (by omega)) fun _ => rfl)

theorem same_read (start length : Nat) :
    Same (read start length) (Unbounded.readSectors start length) d :=
  settles_guardReady.same_bind (P := fun _ => True) (.refl _ _) fun _ =>
    same_guardSpan_bind suits fun _ inside =>
      (settles_readFrom _ _ _).same_bind (same_readFrom suits inside) fun _ => .refl _ _

theorem same_write (start : Nat) (data : Bytes) :
    Same (write start data) (Unbounded.writeSectors start data) d :=
  settles_guardReady.same_bind (P := fun _ => True) (.refl _ _) fun _ =>
    same_guardSpan_bind suits fun _ inside => settles_guardWritable.same_bind (.refl _ _) fun _ =>
      (settles_writeFrom _ _ _ _).same_bind (same_writeFrom suits inside) fun _ => .refl _ _

theorem same_control (command : DiskCommand) :
    Same (control command) (Unbounded.control command) d := by
  cases command with
  | sync | sectorCount | sectorSize | blockSize => exact .refl _ _
  | trim start stop =>
    refine settles_guardReady.same_bind (P := fun _ => True) (.refl _ _) fun _ =>
      (settles_trim start stop).same_bind (.get_bind (.ite (fun _ => .throw_bind _)
        fun ordered => ?_)) fun _ => .refl _ _
    exact settles_guardWritable.same_bind (.refl _ _) fun _ => same_trimFrom suits (by omega)

end

end Disk

/-! ### Operations -/

theorem FlashOperation.same_run (operation : FlashOperation) {d : Driver}
    (suits : d.layout.Suits d.options.eraseUnit) :
    Same operation.run (Unbounded.flash operation) d := by
  cases operation with
  | read offset length | norRead offset length =>
    exact .map _ (Driver.same_read suits offset length)
  | program offset data | norWrite offset data =>
    exact .map _ (Driver.same_program suits offset data)
  | eraseSector sector => exact .map _ (Driver.same_beginEraseSector suits sector)
  | verify sector => exact .map _ (Driver.same_checkErased suits sector)
  | norErase start stop => exact .map _ (Driver.same_norErase suits start stop)
  | _ => exact .refl _ _

theorem DiskOperation.same_run {operation : DiskOperation} {d : Disk}
    (suits : d.flash.layout.Suits d.flash.options.eraseUnit) :
    Same (liftM operation.run : DiskM DiskOutcome) (liftM (Unbounded.disk operation)) d := by
  cases operation with
  | read start length => exact .liftM_run (Disk.same_read suits start length)
  | write start data => exact .liftM_run (Disk.same_write suits start data)
  | control command => exact .liftM_run (Disk.same_control suits command)
  | _ => exact .refl _ _

namespace Session

variable {s : Session}

theorem onDisk_congr {α : Type} {op op' : StateT Disk Script α} (wrap : α → Outcome)
    (same : ∀ d, s.device.disk? = some d → (op'.run d).run s.bench = (op.run d).run s.bench) :
    s.onDisk op' wrap = s.onDisk op wrap := by
  simp only [Session.onDisk]
  cases found : s.device.disk? with
  | none => rfl
  | some d => simp only [same d found]

/-- No step of a session depends on the bound of its numbers. -/
theorem unbounded_step (recognised : s.Recognised) (a : Action) :
    Unbounded.step s a = s.step a := by
  have suits d (found : s.device.driver? = some d) := (recognised.driver d found).2.suits
  cases a with
  | flash operation =>
    cases found : s.device.driver? with
    | none =>
      simp only [Unbounded.step, Session.step, found]
    | some d =>
      have same := operation.same_run (suits d found) s.bench
      simp only [Unbounded.step, Session.step, found, Driver.perform, same]
  | disk operation =>
    exact onDisk_congr _ fun d found =>
      (DiskOperation.same_run (suits _ (Device.driver?_of_disk? found))).of_liftM s.bench
  | join first second =>
    refine onDisk_congr (fun p : DiskOutcome × DiskOutcome => .join p.1 p.2) fun d found =>
      Same.of_liftM (ε := DiskError) ?_ s.bench
    have suits := suits _ (Device.driver?_of_disk? found)
    refine .liftM_bind (DiskOperation.same_run suits) fun b => ?_
    refine .liftM_bind (DiskOperation.same_run ?_) fun _ => .refl _ _
    have survived := first.survives_run d b
    generalize ((first.run.run d).run b).1.2 = d' at survived
    rcases survived with rfl | ⟨-, rfl⟩
    · exact suits
    · exact suits
  | _ => rfl

end Session

end SerialFlash
