import SerialFlash.Disk
import SerialFlash.Proofs.Outcome
import SerialFlash.Proofs.Passivity

/-!
What a procedure does whatever the chip replies. A script is a tree that branches on the
replies, so what it sends, and where it ends, can be read off it without a chip:
`Always P good` says that on every branch only instructions in `P` are sent and the end is
in `good`. All rules are equivalences. The judgement holds of a run on any bench, and an
invariant that the instructions in `P` respect is respected by the run.
-/

namespace SerialFlash

namespace Script

variable {α β : Type} {P P' : Instruction → Prop} {good good' : α → Prop}

/-- On every branch only instructions in `P` are sent, and the end is in `good`. -/
def Always (P : Instruction → Prop) (good : α → Prop) : Script α → Prop
  | done value => good value
  | send i next => P i ∧ ∀ reply, (next reply).Always P good
  | pause _ next => next.Always P good

@[simp] theorem always_done (value : α) : (done value).Always P good ↔ good value := Iff.rfl

@[simp] theorem always_send (i : Instruction) (next : Reply → Script α) :
    (send i next).Always P good ↔ P i ∧ ∀ reply, (next reply).Always P good := Iff.rfl

@[simp] theorem always_bind (s : Script α) (f : α → Script β) {good : β → Prop} :
    (s.bind f).Always P good ↔ s.Always P fun a => (f a).Always P good := by
  induction s with
  | done value => exact Iff.rfl
  | send i next ih => simp only [send_bind, always_send, ih]
  | pause us next ih => exact ih

theorem Always.mono {s : Script α} (h : s.Always P good) (sent : ∀ i, P i → P' i)
    (ended : ∀ a, good a → good' a) : s.Always P' good' := by
  induction s with
  | done value => exact ended _ h
  | send i next ih => exact ⟨sent i h.1, fun reply => ih reply (h.2 reply)⟩
  | pause us next ih => exact ih h

theorem always_congr {s : Script α} (same : ∀ a, good a ↔ good' a) :
    s.Always P good ↔ s.Always P good' :=
  ⟨fun h => h.mono (fun _ => id) fun a => (same a).mp,
    fun h => h.mono (fun _ => id) fun a => (same a).mpr⟩

/-- A run is one of the branches. -/
theorem Always.run {s : Script α} (h : s.Always P good) (b : Bench) : good (s.run b).1 := by
  induction s generalizing b with
  | done value => exact h
  | send i next ih => exact ih _ (h.2 _) _
  | pause us next ih => exact ih h _

/-- What pauses and the instructions in `P` respect, the run respects. -/
theorem Always.respects {I : Bench → Prop} {s : Script α} (h : s.Always P good)
    (send : ∀ b i, P i → I b → I (b.send i).2) (wait : ∀ b ns, I b → I (b.wait ns)) {b : Bench}
    (start : I b) : I (s.run b).2 := by
  induction s generalizing b with
  | done value => exact start
  | send i next ih => exact ih _ (h.2 _) (send b i h.1 start)
  | pause us next ih => exact ih h (wait b _ start)

end Script

namespace Procedure

variable {σ ε ε' α β : Type} {P P' : Instruction → Prop} {s : σ} {b : Bench}
  {good good' : α → σ → Prop} {bad bad' : ε → σ → Prop}

/-- Started in `s`, the procedure only sends instructions in `P`, whatever the replies, and
ends in `good` or fails in `bad`. -/
def Always (op : Procedure σ ε α) (P : Instruction → Prop) (s : σ) (good : α → σ → Prop)
    (bad : ε → σ → Prop) : Prop :=
  (op.script s).Always P fun
    | (.ok a, s) => good a s
    | (.error e, s) => bad e s

theorem Always.mono {op : Procedure σ ε α} (h : op.Always P s good bad) (sent : ∀ i, P i → P' i)
    (onGood : ∀ a s, good a s → good' a s) (onBad : ∀ e s, bad e s → bad' e s) :
    op.Always P' s good' bad' := by
  refine Script.Always.mono h sent ?_
  rintro ⟨_ | _, _⟩ ended
  · exact onBad _ _ ended
  · exact onGood _ _ ended

/-- Only the end is said in another way. -/
theorem Always.imp {op : Procedure σ ε α} (h : op.Always P s good bad)
    (onGood : ∀ a s, good a s → good' a s) (onBad : ∀ e s, bad e s → bad' e s) :
    op.Always P s good' bad' :=
  h.mono (fun _ sent => sent) onGood onBad

theorem Always.ensures {op : Procedure σ ε α} (h : op.Always P s good bad) (b : Bench) :
    op.Ensures s b (fun a s _ => good a s) fun e s _ => bad e s := by
  have ended := Script.Always.run h b
  unfold Ensures
  split <;> next run => rwa [run] at ended

theorem Always.ensures_respects {I : Bench → Prop} {op : Procedure σ ε α}
    (h : op.Always P s good bad) (send : ∀ b i, P i → I b → I (b.send i).2)
    (wait : ∀ b ns, I b → I (b.wait ns)) (start : I b) :
    op.Ensures s b (fun _ _ => I) fun _ _ => I := by
  have kept := Script.Always.respects h send wait start
  unfold Ensures
  split <;> next run => rwa [run] at kept

theorem Always.ensures_undisturbed {op : Procedure σ ε α} (h : op.Always P s good bad)
    (passive : ∀ i, P i → i.Passive) :
    op.Ensures s b (fun _ _ b' => b.chip.Undisturbed b'.chip) fun _ _ b' =>
      b.chip.Undisturbed b'.chip :=
  h.ensures_respects (I := fun b' => b.chip.Undisturbed b'.chip)
    (fun b' i sent kept => kept.trans (b'.undisturbed_send (passive i sent)))
    (fun _ _ kept => kept) (.refl _)

theorem Always.ensures_protectBits {op : Procedure σ ε α} (h : op.Always P s good bad)
    (plain : ∀ i, P i → i.Plain) :
    op.Ensures s b (fun _ _ b' => b'.chip.protectBits = b.chip.protectBits) fun _ _ b' =>
      b'.chip.protectBits = b.chip.protectBits :=
  h.ensures_respects (I := fun b' => b'.chip.protectBits = b.chip.protectBits)
    (fun b' i sent kept => (b'.protectBits_send (plain i sent)).trans kept)
    (fun _ _ kept => kept) rfl

@[simp] theorem always_pure (a : α) :
    (pure a : Procedure σ ε α).Always P s good bad ↔ good a s := Iff.rfl

@[simp] theorem always_throw (e : ε) :
    (throw e : Procedure σ ε α).Always P s good bad ↔ bad e s := Iff.rfl

@[simp] theorem always_get {good : σ → σ → Prop} :
    (get : Procedure σ ε σ).Always P s good bad ↔ good s s := Iff.rfl

@[simp] theorem always_modify {good : PUnit → σ → Prop} (f : σ → σ) :
    (modify f : Procedure σ ε PUnit).Always P s good bad ↔ good ⟨⟩ (f s) := Iff.rfl

@[simp] theorem always_bind (op : Procedure σ ε α) (f : α → Procedure σ ε β)
    {good : β → σ → Prop} :
    (op >>= f).Always P s good bad ↔
      op.Always P s (fun a s => (f a).Always P s good bad) bad := by
  unfold Always
  rw [script_bind, Script.always_bind]
  apply Script.always_congr
  rintro ⟨_ | _, _⟩ <;> exact Iff.rfl

@[simp] theorem always_map (f : α → β) (op : Procedure σ ε α) {good : β → σ → Prop} :
    (f <$> op).Always P s good bad ↔ op.Always P s (fun a => good (f a)) bad := by
  unfold Always
  rw [script_map, Script.always_bind]
  apply Script.always_congr
  rintro ⟨_ | _, _⟩ <;> exact Iff.rfl

@[simp] theorem always_ite (c : Prop) [Decidable c] (op op' : Procedure σ ε α) :
    (if c then op else op').Always P s good bad ↔
      (c → op.Always P s good bad) ∧ (¬ c → op'.Always P s good bad) := by
  by_cases h : c <;> simp [h]

@[simp] theorem always_tryCatch (op : Procedure σ ε α) (handle : ε → Procedure σ ε α) :
    (tryCatch op handle).Always P s good bad ↔
      op.Always P s good fun e s => (handle e).Always P s good bad := by
  unfold Always
  rw [script_tryCatch, Script.always_bind]
  apply Script.always_congr
  rintro ⟨_ | _, _⟩ <;> exact Iff.rfl

@[simp] theorem always_sleep {good : Unit → σ → Prop} (us : Nat) :
    (liftM (Script.sleep us) : Procedure σ ε Unit).Always P s good bad ↔ good () s := Iff.rfl

theorem always_liftM_bind (op : StateT σ Script α) (f : α → StateT σ Script β)
    {good : β → σ → Prop} :
    (liftM (op >>= f) : Procedure σ ε β).Always P s good bad ↔
      (liftM op : Procedure σ ε α).Always P s
        (fun a s => (liftM (f a) : Procedure σ ε β).Always P s good bad) bad := by
  rw [← always_bind]
  unfold Always
  rw [script_liftM_bind]

/-- A procedure whose outcome is wrapped up as a value. -/
@[simp] theorem always_liftM_run (f : Except ε' α → β) (op : Procedure σ ε' α)
    {good : β → σ → Prop} :
    (liftM (f <$> ExceptT.run op : StateT σ Script β) : Procedure σ ε β).Always P s good bad ↔
      op.Always P s (fun a => good (f (.ok a))) fun e => good (f (.error e)) := by
  unfold Always
  rw [script_liftM_run, Script.always_bind]
  apply Script.always_congr
  rintro ⟨_ | _, _⟩ <;> exact Iff.rfl

end Procedure

/-! ### Steps of a driver -/

namespace Driver

open Procedure

variable {α : Type} {P : Instruction → Prop} {d : Driver} {good : α → Driver → Prop}
  {bad : DriverError BusError → Driver → Prop}

@[simp] theorem always_setState {good : Unit → Driver → Prop} (state : DriverState) :
    (setState state).Always P d good bad ↔ good () { d with state } := Iff.rfl

@[simp] theorem always_guardReady {good : Unit → Driver → Prop} :
    guardReady.Always P d good bad ↔
      (d.state = .ready → good () d) ∧ (d.state ≠ .ready → bad (.busy d.state) d) := by
  unfold Always
  rw [script_guardReady]
  by_cases ready : d.state = .ready <;> simp [ready]

@[simp] theorem always_resting (op : FlashM α) :
    (resting op).Always P d good bad ↔
      op.Always P d (fun a d => good a { d with state := .ready })
        fun e d => bad e { d with state := if e.cause = .timeout then .failed else .ready } := by
  unfold Always
  rw [script_resting, Script.always_bind]
  apply Script.always_congr
  rintro ⟨_ | _, _⟩ <;> exact Iff.rfl

/-- Nothing is known of a reply but that it may be an error. -/
@[simp] theorem always_ask {i : Instruction} {good : Bytes → Driver → Prop} :
    (ask i).Always P d good bad ↔
      P i ∧ (∀ reply, good reply d) ∧ ∀ e, bad (.bus e) d := by
  unfold Always
  rw [script_ask, Script.always_send]
  refine and_congr_right fun _ => ⟨fun h => ⟨fun reply => h (.ok reply), fun e => h (.error e)⟩, ?_⟩
  rintro ⟨onGood, onBad⟩ (e | reply)
  · exact onBad e
  · exact onGood reply

@[simp] theorem always_liftM_ask {i : Instruction} {good : Reply → Driver → Prop} :
    (liftM (Script.ask i) : FlashM Reply).Always P d good bad ↔
      P i ∧ ∀ reply, good reply d := by
  unfold Always
  rw [script_liftM]
  rfl

/-- An operation of the flash, run by the disk around it. -/
@[simp] theorem always_onFlash {ε : Type} {disk : Disk} (op : FlashM α)
    {good : Except (DriverError BusError) α → Disk → Prop} {bad : ε → Disk → Prop} :
    (liftM (Disk.onFlash op) : Procedure Disk ε _).Always P disk good bad ↔
      op.Always P disk.flash (fun a flash => good (.ok a) { disk with flash })
        fun e flash => good (.error e) { disk with flash } := by
  unfold Always
  rw [Disk.script_onFlash, Script.always_bind]
  apply Script.always_congr
  rintro ⟨_ | _, _⟩ <;> exact Iff.rfl

end Driver

end SerialFlash
