import SerialFlash.Timeline
import SerialFlash.Proofs.Outcome

/-!
What a run says on its way. `Traces op s b good bad` tells of a run what `Ensures` tells, with its
exchanges at hand at either end. The rules are those of `Ensures`: what is said by the parts of a
procedure is said one after the other, and only an instruction says anything by itself.
-/

namespace SerialFlash

@[simp] theorem requestsSent_nil : requestsSent [] = [] := rfl

@[simp] theorem requestsSent_cons (request : Request) (reply : Reply) (events : List Event) :
    requestsSent (.exchanged request reply :: events) = request :: requestsSent events := rfl

@[simp] theorem requestsSent_append (events later : List Event) :
    requestsSent (events ++ later) = requestsSent events ++ requestsSent later :=
  List.filterMap_append

@[simp] theorem requestsSent_ofResult {α : Type} (r : Except (DriverError BusError) α) :
    requestsSent [.ofResult r] = [] := by
  cases r <;> rfl

theorem Script.exchanges_bind {α β : Type} (s : Script α) (f : α → Script β) (b : Bench) :
    (s.bind f).exchanges b = s.exchanges b ++ (f (s.run b).1).exchanges (s.run b).2 := by
  simp only [exchanges_eq_events, timeline_bind, List.filterMap_append]

namespace Procedure

variable {σ ε α β : Type} {s : σ} {b : Bench}
  {good good' : α → σ → Bench → List Event → Prop} {bad bad' : ε → σ → Bench → List Event → Prop}

/-- Run from `s` on `b`, the procedure ends in `good` or fails in `bad`, having said what it has. -/
def Traces (op : Procedure σ ε α) (s : σ) (b : Bench)
    (good : α → σ → Bench → List Event → Prop) (bad : ε → σ → Bench → List Event → Prop) : Prop :=
  op.Ensures s b (fun a s' b' => good a s' b' ((op.script s).exchanges b))
    fun e s' b' => bad e s' b' ((op.script s).exchanges b)

theorem Traces.mono {op : Procedure σ ε α} (h : op.Traces s b good bad)
    (onGood : ∀ a s b es, good a s b es → good' a s b es)
    (onBad : ∀ e s b es, bad e s b es → bad' e s b es) : op.Traces s b good' bad' :=
  Ensures.mono h (fun a s b => onGood a s b _) fun e s b => onBad e s b _

@[simp] theorem traces_pure (a : α) :
    (pure a : Procedure σ ε α).Traces s b good bad ↔ good a s b [] := Iff.rfl

@[simp] theorem traces_throw (e : ε) :
    (throw e : Procedure σ ε α).Traces s b good bad ↔ bad e s b [] := Iff.rfl

@[simp] theorem traces_get {good : σ → σ → Bench → List Event → Prop} :
    (get : Procedure σ ε σ).Traces s b good bad ↔ good s s b [] := Iff.rfl

@[simp] theorem traces_modify {good : PUnit → σ → Bench → List Event → Prop} (f : σ → σ) :
    (modify f : Procedure σ ε PUnit).Traces s b good bad ↔ good ⟨⟩ (f s) b [] := Iff.rfl

@[simp] theorem traces_bind (op : Procedure σ ε α) (f : α → Procedure σ ε β)
    {good : β → σ → Bench → List Event → Prop} :
    (op >>= f).Traces s b good bad ↔
      op.Traces s b (fun a s b es => (f a).Traces s b
        (fun a s b later => good a s b (es ++ later)) fun e s b later => bad e s b (es ++ later))
        bad := by
  unfold Traces Ensures
  simp only [script_bind, Script.run_bind, Script.exchanges_bind]
  rcases (op.script s).run b with ⟨⟨_ | _, _⟩, _⟩
  · simp only [follow_error, Script.run_done, Script.exchanges, List.append_nil]
  · rfl

@[simp] theorem traces_map (f : α → β) (op : Procedure σ ε α)
    {good : β → σ → Bench → List Event → Prop} :
    (f <$> op).Traces s b good bad ↔ op.Traces s b (fun a => good (f a)) bad := by
  unfold Traces Ensures
  simp only [script_map, Script.run_bind, Script.exchanges_bind, Script.exchanges, List.append_nil]
  rcases (op.script s).run b with ⟨⟨_ | _, _⟩, _⟩ <;> rfl

@[simp] theorem traces_ite (c : Prop) [Decidable c] (op op' : Procedure σ ε α) :
    (if c then op else op').Traces s b good bad ↔
      (c → op.Traces s b good bad) ∧ (¬ c → op'.Traces s b good bad) := by
  by_cases h : c <;> simp [h]

@[simp] theorem traces_tryCatch (op : Procedure σ ε α) (handle : ε → Procedure σ ε α) :
    (tryCatch op handle).Traces s b good bad ↔
      op.Traces s b good fun e s b es => (handle e).Traces s b
        (fun a s b later => good a s b (es ++ later))
        fun e s b later => bad e s b (es ++ later) := by
  unfold Traces Ensures
  simp only [script_tryCatch, Script.run_bind, Script.exchanges_bind]
  rcases (op.script s).run b with ⟨⟨_ | _, _⟩, _⟩
  · rfl
  · simp only [Script.run_done, Script.exchanges, List.append_nil]

@[simp] theorem traces_sleep {good : Unit → σ → Bench → List Event → Prop} (us : Nat) :
    (liftM (Script.sleep us) : Procedure σ ε Unit).Traces s b good bad ↔
      good () s (b.wait (us * 1000)) [] := by
  unfold Traces
  rw [ensures_sleep, script_liftM]
  rfl

end Procedure

namespace Driver

open Procedure

variable {α : Type} {d : Driver} {b : Bench} {good : α → Driver → Bench → List Event → Prop}
  {bad : DriverError BusError → Driver → Bench → List Event → Prop}

@[simp] theorem traces_setState {good : Unit → Driver → Bench → List Event → Prop}
    (state : DriverState) :
    (setState state).Traces d b good bad ↔ good () { d with state } b [] := Iff.rfl

@[simp] theorem traces_guardReady {good : Unit → Driver → Bench → List Event → Prop} :
    guardReady.Traces d b good bad ↔
      (d.state = .ready → good () d b []) ∧ (d.state ≠ .ready → bad (.busy d.state) d b []) := by
  unfold Traces
  rw [ensures_guardReady, script_guardReady]
  rfl

@[simp] theorem traces_resting (op : FlashM α) :
    (resting op).Traces d b good bad ↔
      op.Traces d b (fun a d b => good a { d with state := .ready } b)
        fun e d b =>
          bad e { d with state := if e.cause = .timeout then .failed else .ready } b := by
  unfold Traces
  rw [ensures_resting, script_resting, Script.exchanges_bind]
  simp only [Script.exchanges, List.append_nil]

/-- An instruction is not heard, or obeyed; it is said either way. -/
theorem traces_ask {i : Instruction} {good : Bytes → Driver → Bench → List Event → Prop}
    (fits : i.Fits)
    (unheard : ∀ b', b'.link = b.link → b.chip.faults ≠ .none → b.chip.Alike b'.chip →
      bad (.bus .injected) d b' [.exchanged (b.link.request i) (.error .injected)])
    (obeyed : ∀ b', b'.link = b.link → (b.chip.obey b.link i).2.Alike b'.chip →
      good (b.chip.obey b.link i).1 d b'
        [.exchanged (b.link.request i) (.ok (b.chip.obey b.link i).1)]) :
    (ask i).Traces d b good bad := by
  unfold Traces Ensures
  rw [script_ask, Script.run_send, Script.exchanges]
  rcases b.send_cases fits with ⟨faults, reply, alike⟩ | ⟨reply, alike⟩
  · rw [reply]
    exact unheard _ (b.link_send i) faults alike
  · rw [reply]
    exact obeyed _ (b.link_send i) alike

end Driver

end SerialFlash
