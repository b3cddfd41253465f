import SerialFlash.Disk
import SerialFlash.Proofs.Permanence

/-!
How properties of a run are proved. `Ensures op s b good bad` says that the procedure,
started in the state `s` on the bench `b`, ends in `good` if it succeeds and in `bad`
if it fails. There is a rule for each way of putting procedures together, and every
rule but the one for an instruction is an equivalence: what is left to prove after
applying them is what the program does, no more.

An instruction has two ends. If an armed fault fires, the chip has not heard it;
otherwise the chip has obeyed. In both cases its books are not known, which is why the
rule speaks of every chip that differs in them.

An invariant is a property that a procedure `Keeps` however it ends. The invariants
here are not upset by instructions that are gentle on the chip (`Lasts`), so the
procedures made of such instructions keep all of them at once.
-/

namespace SerialFlash

namespace Procedure

variable {σ ε ε' α β : Type} {s : σ} {b : Bench}

/-- Run from `s` on `b`, the procedure ends in `good` or fails in `bad`. -/
def Ensures (op : Procedure σ ε α) (s : σ) (b : Bench) (good : α → σ → Bench → Prop)
    (bad : ε → σ → Bench → Prop) : Prop :=
  match (op.script s).run b with
  | ((.ok a, s), b) => good a s b
  | ((.error e, s), b) => bad e s b

variable {good good' : α → σ → Bench → Prop} {bad bad' : ε → σ → Bench → Prop}

/-- The rule that reads a result off a run. -/
theorem Ensures.of_run {op : Procedure σ ε α} (h : op.Ensures s b good bad) {a : α} {s' : σ}
    {b' : Bench} (run : (op.script s).run b = ((.ok a, s'), b')) : good a s' b' := by
  rwa [Ensures, run] at h

/-- The same for a failure. -/
theorem Ensures.of_failed {op : Procedure σ ε α} (h : op.Ensures s b good bad) {e : ε} {s' : σ}
    {b' : Bench} (run : (op.script s).run b = ((.error e, s'), b')) : bad e s' b' := by
  rwa [Ensures, run] at h

/-- What is said of the run that there is. -/
theorem ensures_run (op : Procedure σ ε α) (s : σ) (b : Bench) :
    op.Ensures s b (fun a s' b' => (op.script s).run b = ((.ok a, s'), b'))
      fun e s' b' => (op.script s).run b = ((.error e, s'), b') := by
  unfold Ensures
  split <;> next run => exact run

theorem ensures_trivial (op : Procedure σ ε α) :
    op.Ensures s b (fun _ _ _ => True) fun _ _ _ => True := by
  unfold Ensures
  split <;> trivial

/-- What both ends have in common holds after the run. -/
theorem Ensures.after {op : Procedure σ ε α} {ended : σ → Bench → Prop}
    (h : op.Ensures s b (fun _ => ended) fun _ => ended) :
    ended ((op.script s).run b).1.2 ((op.script s).run b).2 := by
  unfold Ensures at h
  split at h <;> next run => rwa [run]

theorem Ensures.mono {op : Procedure σ ε α} (h : op.Ensures s b good bad)
    (onGood : ∀ a s b, good a s b → good' a s b) (onBad : ∀ e s b, bad e s b → bad' e s b) :
    op.Ensures s b good' bad' := by
  unfold Ensures at *
  split at h
  · exact onGood _ _ _ h
  · exact onBad _ _ _ h

/-- What is known of a run in two ways is known of it together. -/
theorem Ensures.and {op : Procedure σ ε α} (h : op.Ensures s b good bad)
    (h' : op.Ensures s b good' bad') :
    op.Ensures s b (fun a s b => good a s b ∧ good' a s b) fun e s b =>
      bad e s b ∧ bad' e s b := by
  unfold Ensures at *
  split at h <;> next run => rw [run] at h'; exact ⟨h, h'⟩

@[simp] theorem ensures_pure (a : α) :
    (pure a : Procedure σ ε α).Ensures s b good bad ↔ good a s b := Iff.rfl

@[simp] theorem ensures_throw (e : ε) :
    (throw e : Procedure σ ε α).Ensures s b good bad ↔ bad e s b := Iff.rfl

@[simp] theorem ensures_get {good : σ → σ → Bench → Prop} :
    (get : Procedure σ ε σ).Ensures s b good bad ↔ good s s b := Iff.rfl

@[simp] theorem ensures_modify {good : PUnit → σ → Bench → Prop} (f : σ → σ) :
    (modify f : Procedure σ ε PUnit).Ensures s b good bad ↔ good ⟨⟩ (f s) b := Iff.rfl

@[simp] theorem ensures_bind (op : Procedure σ ε α) (f : α → Procedure σ ε β)
    {good : β → σ → Bench → Prop} :
    (op >>= f).Ensures s b good bad ↔
      op.Ensures s b (fun a s b => (f a).Ensures s b good bad) bad := by
  unfold Ensures
  rw [script_bind, Script.run_bind]
  rcases (op.script s).run b with ⟨⟨_ | _, _⟩, _⟩ <;> rfl

@[simp] theorem ensures_map (f : α → β) (op : Procedure σ ε α) {good : β → σ → Bench → Prop} :
    (f <$> op).Ensures s b good bad ↔ op.Ensures s b (fun a => good (f a)) bad := by
  unfold Ensures
  rw [script_map, Script.run_bind]
  rcases (op.script s).run b with ⟨⟨_ | _, _⟩, _⟩ <;> rfl

/-- A mapped result comes from a result. -/
theorem run_of_map {f : α → β} {op : Procedure σ ε α} {v : β} {s' : σ} {b' : Bench}
    (run : ((f <$> op).script s).run b = ((.ok v, s'), b')) :
    ∃ a, f a = v ∧ (op.script s).run b = ((.ok a, s'), b') := by
  rw [script_map, Script.run_bind] at run
  rcases h : (op.script s).run b with ⟨⟨_ | a, _⟩, _⟩ <;> rw [h] at run <;> cases run
  exact ⟨a, rfl, rfl⟩

@[simp] theorem ensures_ite (c : Prop) [Decidable c] (op op' : Procedure σ ε α) :
    (if c then op else op').Ensures s b good bad ↔
      (c → op.Ensures s b good bad) ∧ (¬ c → op'.Ensures s b good bad) := by
  by_cases h : c <;> simp [h]

@[simp] theorem ensures_tryCatch (op : Procedure σ ε α) (handle : ε → Procedure σ ε α) :
    (tryCatch op handle).Ensures s b good bad ↔
      op.Ensures s b good fun e s b => (handle e).Ensures s b good bad := by
  unfold Ensures
  rw [script_tryCatch, Script.run_bind]
  rcases (op.script s).run b with ⟨⟨_ | _, _⟩, _⟩ <;> rfl

/-- A pause takes time and nothing else. -/
@[simp] theorem ensures_sleep {good : Unit → σ → Bench → Prop} (us : Nat) :
    (liftM (Script.sleep us) : Procedure σ ε Unit).Ensures s b good bad ↔
      good () s (b.wait (us * 1000)) := by
  unfold Ensures
  rw [script_liftM]
  rfl

/-- What cannot fail ends well. -/
@[simp] theorem ensures_liftM_state (op : StateT σ Script α) :
    (liftM op : Procedure σ ε α).Ensures s b good bad ↔
      good ((op.run s).run b).1.1 ((op.run s).run b).1.2 ((op.run s).run b).2 := by
  unfold Ensures
  rw [script_liftM_state, Script.run_bind]
  rfl

theorem ensures_liftM_bind (op : StateT σ Script α) (f : α → StateT σ Script β)
    {good : β → σ → Bench → Prop} :
    (liftM (op >>= f) : Procedure σ ε β).Ensures s b good bad ↔
      (liftM op : Procedure σ ε α).Ensures s b
        (fun a s b => (liftM (f a) : Procedure σ ε β).Ensures s b good bad) bad := by
  rw [← ensures_bind]
  unfold Ensures
  rw [script_liftM_bind]

/-- A procedure whose outcome is wrapped up as a value. -/
@[simp] theorem ensures_liftM_run (f : Except ε' α → β) (op : Procedure σ ε' α)
    {good : β → σ → Bench → Prop} :
    (liftM (f <$> ExceptT.run op : StateT σ Script β) : Procedure σ ε β).Ensures s b good bad ↔
      op.Ensures s b (fun a => good (f (.ok a))) fun e => good (f (.error e)) := by
  unfold Ensures
  rw [script_liftM_run, Script.run_bind]
  rcases (op.script s).run b with ⟨⟨_ | _, _⟩, _⟩ <;> rfl

/-- Whatever is run, the same chip stays on the same link. -/
theorem endures_run (script : Script α) (b : Bench) :
    (script.run b).2.link = b.link ∧ b.chip.Endures (script.run b).2.chip := by
  induction script generalizing b with
  | done value => exact ⟨rfl, .refl _⟩
  | send i next ih =>
    have rest := ih (b.send i).1 (b.send i).2
    exact ⟨rest.1.trans (b.link_send i), (b.endures_send i).trans rest.2⟩
  | pause us next ih => exact ih (b.wait _)

theorem ensures_endures (op : Procedure σ ε α) :
    op.Ensures s b (fun _ _ b' => b'.link = b.link ∧ b.chip.Endures b'.chip)
      fun _ _ b' => b'.link = b.link ∧ b.chip.Endures b'.chip := by
  have same := endures_run (op.script s) b
  unfold Ensures
  split <;> next run => rwa [run] at same

/-- However the procedure ends, the invariant holds then if it held at the start. -/
def Keeps (I : σ → Bench → Prop) (op : Procedure σ ε α) : Prop :=
  ∀ s b, I s b → op.Ensures s b (fun _ => I) fun _ => I

namespace Keeps

variable {I : σ → Bench → Prop} {op op' : Procedure σ ε α}

theorem run (h : Keeps I op) (start : I s b) :
    I ((op.script s).run b).1.2 ((op.script s).run b).2 :=
  (h s b start).after

theorem pure (a : α) : Keeps I (Pure.pure a : Procedure σ ε α) :=
  fun _ _ h => h

theorem throw (e : ε) : Keeps I (MonadExcept.throw e : Procedure σ ε α) :=
  fun _ _ h => h

theorem get : Keeps I (MonadState.get : Procedure σ ε σ) :=
  fun _ _ h => h

theorem bind {f : α → Procedure σ ε β} (first : Keeps I op) (rest : ∀ a, Keeps I (f a)) :
    Keeps I (op >>= f) :=
  fun s b h =>
    (ensures_bind op f).mpr ((first s b h).mono (fun a s b => rest a s b) fun _ _ _ h => h)

theorem map (f : α → β) (h : Keeps I op) : Keeps I (f <$> op) :=
  fun s b i => (ensures_map f op).mpr (h s b i)

theorem ite {c : Prop} [Decidable c] (yes : c → Keeps I op) (no : ¬ c → Keeps I op') :
    Keeps I (if c then op else op') := by
  split
  · next h => exact yes h
  · next h => exact no h

theorem tryCatch {handle : ε → Procedure σ ε α} (h : Keeps I op) (h' : ∀ e, Keeps I (handle e)) :
    Keeps I (MonadExcept.tryCatch op handle) :=
  fun s b i => (ensures_tryCatch op handle).mpr
    ((h s b i).mono (fun _ _ _ h => h) fun e s b => h' e s b)

end Keeps

end Procedure

/-! ### Steps of a driver -/

namespace Driver

open Procedure

variable {α : Type} {d : Driver} {b : Bench} {good : α → Driver → Bench → Prop}
  {bad : DriverError BusError → Driver → Bench → Prop}

@[simp] theorem ensures_setState {good : Unit → Driver → Bench → Prop} (state : DriverState) :
    (setState state).Ensures d b good bad ↔ good () { d with state } b := Iff.rfl

@[simp] theorem ensures_guardReady {good : Unit → Driver → Bench → Prop} :
    guardReady.Ensures d b good bad ↔
      (d.state = .ready → good () d b) ∧ (d.state ≠ .ready → bad (.busy d.state) d b) := by
  unfold Ensures
  rw [script_guardReady]
  by_cases ready : d.state = .ready <;> simp [ready]

@[simp] theorem ensures_resting (op : FlashM α) :
    (resting op).Ensures d b good bad ↔
      op.Ensures d b (fun a d b => good a { d with state := .ready } b)
        fun e d b =>
          bad e { d with state := if e.cause = .timeout then .failed else .ready } b := by
  unfold Ensures
  rw [script_resting, Script.run_bind]
  rcases (op.script d).run b with ⟨⟨_ | _, _⟩, _⟩ <;> rfl

theorem ensures_ask_iff {i : Instruction} {good : Bytes → Driver → Bench → Prop} :
    (ask i).Ensures d b good bad ↔
      match (b.send i).1 with
      | .ok reply => good reply d (b.send i).2
      | .error e => bad (.bus e) d (b.send i).2 := by
  unfold Ensures
  rw [script_ask, Script.run_send]
  rcases (b.send i).1 with _ | _ <;> rfl

/-- An instruction is not heard, or obeyed. -/
theorem ensures_ask {i : Instruction} {good : Bytes → Driver → Bench → Prop} (fits : i.Fits)
    (unheard : ∀ b', b'.link = b.link → b.chip.faults ≠ .none → b.chip.Alike b'.chip →
      bad (.bus .injected) d b')
    (obeyed : ∀ b', b'.link = b.link → (b.chip.obey b.link i).2.Alike b'.chip →
      good (b.chip.obey b.link i).1 d b') :
    (ask i).Ensures d b good bad := by
  unfold Ensures
  rw [script_ask]
  rcases b.send_cases fits with ⟨faults, reply, alike⟩ | ⟨reply, alike⟩
  · rw [Script.run_send, reply]
    exact unheard _ (b.link_send i) faults alike
  · rw [Script.run_send, reply]
    exact obeyed _ (b.link_send i) alike

theorem ensures_liftM_ask {i : Instruction} {good : Reply → Driver → Bench → Prop} (fits : i.Fits)
    (unheard : ∀ b', b'.link = b.link → b.chip.faults ≠ .none → b.chip.Alike b'.chip →
      good (.error .injected) d b')
    (obeyed : ∀ b', b'.link = b.link → (b.chip.obey b.link i).2.Alike b'.chip →
      good (.ok (b.chip.obey b.link i).1) d b') :
    (liftM (Script.ask i) : FlashM Reply).Ensures d b good bad := by
  unfold Ensures
  rw [script_liftM]
  rcases b.send_cases fits with ⟨faults, reply, alike⟩ | ⟨reply, alike⟩
  · simpa [Script.ask, reply] using unheard _ (b.link_send i) faults alike
  · simpa [Script.ask, reply] using obeyed _ (b.link_send i) alike

/-- An operation of the flash, run by the disk around it. -/
@[simp] theorem ensures_onFlash {ε : Type} {disk : Disk} (op : FlashM α)
    {good : Except (DriverError BusError) α → Disk → Bench → Prop} {bad : ε → Disk → Bench → Prop} :
    (liftM (Disk.onFlash op) : Procedure Disk ε _).Ensures disk b good bad ↔
      op.Ensures disk.flash b (fun a flash => good (.ok a) { disk with flash })
        fun e flash => good (.error e) { disk with flash } := by
  unfold Ensures
  rw [Disk.script_onFlash, Script.run_bind]
  rcases (op.script disk.flash).run b with ⟨⟨_ | _, _⟩, _⟩ <;> rfl

/-! ### Invariants -/

/-- The property outlasts pauses and gentle instructions. -/
structure Lasts (I : Driver → Bench → Prop) : Prop where
  send : ∀ d b i, i.Gentle → I d b → I d (b.send i).2
  wait : ∀ d b ns, I d b → I d (b.wait ns)

namespace Lasts

variable {I : Driver → Bench → Prop} (lasts : Lasts I) {i : Instruction}

include lasts

theorem ask (gentle : i.Gentle) : Keeps I (Driver.ask i) := by
  intro d b h
  unfold Ensures
  rw [script_ask, Script.run_send]
  have after := lasts.send d b i gentle h
  rcases (b.send i).1 with _ | _ <;> exact after

theorem liftM_ask (gentle : i.Gentle) : Keeps I (liftM (Script.ask i) : FlashM Reply) :=
  fun d b h => lasts.send d b i gentle h

theorem sleep (us : Nat) : Keeps I (liftM (Script.sleep us) : FlashM Unit) :=
  fun d b h => lasts.wait d b _ h

theorem readStatus1 : Keeps I Driver.readStatus1 :=
  .bind (lasts.ask trivial) fun _ => .pure _

theorem isProtected : Keeps I Driver.isProtected :=
  .bind lasts.readStatus1 fun _ => .pure _

theorem readStatus2 : Keeps I Driver.readStatus2 :=
  .bind (lasts.ask trivial) fun _ => .pure _

theorem writeEnable : Keeps I Driver.writeEnable :=
  .bind (lasts.ask trivial) fun _ => .pure _

theorem awaitIdleWithin (options : DriverOptions) (polls : Nat) :
    Keeps I (Driver.awaitIdleWithin options polls) := by
  induction polls with
  | zero => exact .throw _
  | succ polls ih =>
    have poll : Keeps I (do
        let status ← Driver.readStatus1
        if status.isBusy then Driver.awaitIdleWithin options polls) :=
      .bind lasts.readStatus1 fun _ => .ite (fun _ => ih) fun _ => .pure _
    exact .ite (fun _ => .bind (lasts.sleep _) fun _ => poll) fun _ => poll

theorem awaitIdle : Keeps I Driver.awaitIdle :=
  .bind .get fun _ => lasts.awaitIdleWithin _ _

theorem programPiece (p : Piece) : Keeps I (Driver.programPiece p) :=
  .bind lasts.writeEnable fun _ => .bind (lasts.ask trivial) fun _ => lasts.awaitIdle

theorem programPieces (done : Nat) (pieces : List Piece) :
    Keeps I (Driver.programPieces done pieces) := by
  induction pieces generalizing done with
  | nil => exact .pure _
  | cons p rest ih => exact .bind (.tryCatch (lasts.programPiece p) fun _ => .throw _) fun _ => ih _

theorem checkFrom (erased : UInt8) (step chunks offset : Nat) :
    Keeps I (Driver.checkFrom erased step chunks offset) := by
  induction chunks generalizing offset with
  | zero => exact .pure _
  | succ chunks ih =>
    refine .bind (lasts.ask trivial) fun reply => ?_
    split
    · exact .throw _
    · exact ih _

theorem checkRange (start length : Nat) : Keeps I (Driver.checkRange start length) :=
  .bind .get fun _ => lasts.checkFrom _ _ _ _

end Lasts

end Driver

end SerialFlash
