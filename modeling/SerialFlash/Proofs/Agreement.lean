import SerialFlash.Disk
import SerialFlash.Proofs.Replies

/-!
Two scripts side by side. They agree if, as long as both are given the same replies, they send
the same instructions and end alike. Nothing is said of the chips that reply. Two benches that
answer the instructions alike, and go on to do so, are in lockstep, and scripts that agree end
alike on them.

Agreement is closed under every way of putting procedures together. What two procedures are
told apart by is their states: `E` is what the states have in common from one step to the next.
-/

namespace SerialFlash

/-- The benches give the same replies to instructions in `P`, and pauses and such instructions
leave them related. Unless it is `paced`, each of them may also be left waiting alone. -/
structure Bench.Lockstep (P : Instruction → Prop) (paced : Prop) (R : Bench → Bench → Prop) :
    Prop where
  send : ∀ b b' i, P i → R b b' → (b'.send i).1 = (b.send i).1 ∧ R (b.send i).2 (b'.send i).2
  wait : ∀ b b' ns, R b b' → R (b.wait ns) (b'.wait ns)
  waitFirst : ¬ paced → ∀ b b' ns, R b b' → R (b.wait ns) b'
  waitSecond : ¬ paced → ∀ b b' ns, R b b' → R b (b'.wait ns)

namespace Script

variable {α α' β β' : Type}

/-- Given the same replies both scripts send the same instructions, all of them in `P`, and end
in values that `E` relates. If they are `paced`, they pause alike as well. -/
inductive Agrees (P : Instruction → Prop) (paced : Prop) (E : α → α' → Prop) :
    Script α → Script α' → Prop
  | done {a a'} (ended : E a a') : Agrees P paced E (.done a) (.done a')
  | send {i next next'} (sent : P i)
      (rest : ∀ reply, Agrees P paced E (next reply) (next' reply)) :
      Agrees P paced E (.send i next) (.send i next')
  | pause {us next next'} (rest : Agrees P paced E next next') :
      Agrees P paced E (.pause us next) (.pause us next')
  | pauseFirst {us next s'} (free : ¬ paced) (rest : Agrees P paced E next s') :
      Agrees P paced E (.pause us next) s'
  | pauseSecond {us s next'} (free : ¬ paced) (rest : Agrees P paced E s next') :
      Agrees P paced E s (.pause us next')

namespace Agrees

variable {P P' : Instruction → Prop} {paced : Prop} {E : α → α' → Prop} {F : β → β' → Prop}
  {s : Script α} {s' : Script α'}

theorem bind {f : α → Script β} {f' : α' → Script β'} (first : Agrees P paced E s s')
    (rest : ∀ a a', E a a' → Agrees P paced F (f a) (f' a')) :
    Agrees P paced F (s.bind f) (s'.bind f') := by
  induction first with
  | done ended => exact rest _ _ ended
  | send sent _ ih => exact .send sent ih
  | pause _ ih => exact .pause ih
  | pauseFirst free _ ih => exact .pauseFirst free ih
  | pauseSecond free _ ih => exact .pauseSecond free ih

theorem mono {E' : α → α' → Prop} (h : Agrees P paced E s s') (sent : ∀ i, P i → P' i)
    (ended : ∀ a a', E a a' → E' a a') : Agrees P' paced E' s s' := by
  induction h with
  | done end' => exact .done (ended _ _ end')
  | send first _ ih => exact .send (sent _ first) ih
  | pause _ ih => exact .pause ih
  | pauseFirst free _ ih => exact .pauseFirst free ih
  | pauseSecond free _ ih => exact .pauseSecond free ih

/-- On benches in lockstep both scripts end alike, and the benches are in lockstep still. -/
theorem run {R : Bench → Bench → Prop} (h : Agrees P paced E s s')
    (lockstep : Bench.Lockstep P paced R) {b b' : Bench} (start : R b b') :
    E (s.run b).1 (s'.run b').1 ∧ R (s.run b).2 (s'.run b').2 := by
  induction h generalizing b b' with
  | done ended => exact ⟨ended, start⟩
  | @send i next next' sent _ ih =>
    obtain ⟨reply, after⟩ := lockstep.send b b' i sent start
    rw [run_send, run_send, reply]
    exact ih _ after
  | pause _ ih => exact ih (lockstep.wait _ _ _ start)
  | pauseFirst free _ ih => exact ih (lockstep.waitFirst free _ _ _ start)
  | pauseSecond free _ ih => exact ih (lockstep.waitSecond free _ _ _ start)

end Agrees

end Script

namespace Procedure

variable {σ ε ε' α β : Type} {P P' : Instruction → Prop} {paced : Prop} {E E' : σ → σ → Prop}
  {s s' : σ}

/-- Started in `s` and in `s'`, the procedures agree, have the same outcome, and end in states
that `E` relates. -/
def Agrees (P : Instruction → Prop) (paced : Prop) (E : σ → σ → Prop) (op op' : Procedure σ ε α)
    (s s' : σ) : Prop :=
  (op.script s).Agrees P paced (fun p p' => p'.1 = p.1 ∧ E p.2 p'.2) (op'.script s')

namespace Agrees

variable {op op' : Procedure σ ε α}

theorem mono (h : Agrees P paced E op op' s s') (sent : ∀ i, P i → P' i)
    (ended : ∀ s s', E s s' → E' s s') : Agrees P' paced E' op op' s s' :=
  Script.Agrees.mono h sent fun _ _ => And.imp_right (ended _ _)

theorem pure (a : α) (h : E s s') :
    Agrees P paced E (Pure.pure a : Procedure σ ε α) (Pure.pure a) s s' :=
  .done ⟨rfl, h⟩

theorem throw (e : ε) (h : E s s') :
    Agrees P paced E (MonadExcept.throw e : Procedure σ ε α) (MonadExcept.throw e) s s' :=
  .done ⟨rfl, h⟩

theorem modified {f : σ → σ} (h : E (f s) (f s')) :
    Agrees P paced E (modify f : Procedure σ ε PUnit) (modify f) s s' :=
  .done ⟨rfl, h⟩

theorem bind {f f' : α → Procedure σ ε β} (first : Agrees P paced E op op' s s')
    (rest : ∀ a s s', E s s' → Agrees P paced E (f a) (f' a) s s') :
    Agrees P paced E (op >>= f) (op' >>= f') s s' := by
  unfold Agrees
  rw [script_bind, script_bind]
  refine Script.Agrees.bind first ?_
  rintro ⟨e | a, t⟩ ⟨_, t'⟩ ⟨rfl, ended⟩
  · exact .done ⟨rfl, ended⟩
  · exact rest a t t' ended

/-- Both procedures look at their states. -/
theorem get_bind {f f' : σ → Procedure σ ε β} (h : Agrees P paced E (f s) (f' s') s s') :
    Agrees P paced E (get >>= f) (get >>= f') s s' := by
  simpa [Agrees] using h

theorem map (f : α → β) (h : Agrees P paced E op op' s s') :
    Agrees P paced E (f <$> op) (f <$> op') s s' := by
  unfold Agrees
  rw [script_map, script_map]
  refine Script.Agrees.bind h ?_
  rintro ⟨_, _⟩ ⟨_, _⟩ ⟨rfl, ended⟩
  exact .done ⟨rfl, ended⟩

theorem ite {c : Prop} [Decidable c] {op₁ op₁' op₂ op₂' : Procedure σ ε α}
    (yes : c → Agrees P paced E op₁ op₁' s s') (no : ¬ c → Agrees P paced E op₂ op₂' s s') :
    Agrees P paced E (if c then op₁ else op₂) (if c then op₁' else op₂') s s' := by
  split
  · next h => exact yes h
  · next h => exact no h

theorem tryCatch {handle handle' : ε → Procedure σ ε α} (h : Agrees P paced E op op' s s')
    (failed : ∀ e s s', E s s' → Agrees P paced E (handle e) (handle' e) s s') :
    Agrees P paced E (MonadExcept.tryCatch op handle) (MonadExcept.tryCatch op' handle') s s' := by
  unfold Agrees
  rw [script_tryCatch, script_tryCatch]
  refine Script.Agrees.bind h ?_
  rintro ⟨e | a, t⟩ ⟨_, t'⟩ ⟨rfl, ended⟩
  · exact failed e t t' ended
  · exact .done ⟨rfl, ended⟩

theorem sleep (us : Nat) (h : E s s') :
    Agrees P paced E (liftM (Script.sleep us) : Procedure σ ε Unit) (liftM (Script.sleep us))
      s s' := by
  unfold Agrees
  rw [script_liftM, script_liftM]
  exact .pause (.done ⟨rfl, h⟩)

/-- A pause before both procedures, of any length and before one of them only unless they are
paced. -/
theorem paused {pauses pauses' : Bool} {us us' : Nat}
    (pace : paced → pauses' = pauses ∧ us' = us) (h : Agrees P paced E op op' s s') :
    Agrees P paced E (if pauses then do Script.sleep us; op else op)
      (if pauses' then do Script.sleep us'; op' else op') s s' := by
  have slept (us : Nat) (op : Procedure σ ε α) (s : σ) :
      (do Script.sleep us; op : Procedure σ ε α).script s = .pause us (op.script s) := by
    rw [script_bind, script_liftM]
    rfl
  unfold Agrees
  by_cases same : paced
  · obtain ⟨rfl, rfl⟩ := pace same
    cases pauses'
    · exact h
    · simp only [if_true, slept]
      exact .pause h
  · cases pauses <;> cases pauses' <;> simp only [Bool.false_eq_true, if_false, if_true, slept]
    · exact h
    · exact .pauseSecond same h
    · exact .pauseFirst same h
    · exact .pauseFirst same (.pauseSecond same h)

/-- Procedures whose outcome is wrapped up as a value. -/
theorem liftM_run {f : Except ε' α → β} {op op' : Procedure σ ε' α}
    (h : Agrees P paced E op op' s s') :
    Agrees P paced E (liftM (f <$> ExceptT.run op : StateT σ Script β) : Procedure σ ε β)
      (liftM (f <$> ExceptT.run op' : StateT σ Script β)) s s' := by
  unfold Agrees
  rw [script_liftM_run, script_liftM_run]
  refine Script.Agrees.bind h ?_
  rintro ⟨_, _⟩ ⟨_, _⟩ ⟨rfl, ended⟩
  exact .done ⟨rfl, ended⟩

theorem liftM_bind {op op' : StateT σ Script α} {f f' : α → StateT σ Script β}
    (first : Agrees P paced E (liftM op : Procedure σ ε α) (liftM op') s s')
    (rest : ∀ a s s', E s s' →
      Agrees P paced E (liftM (f a) : Procedure σ ε β) (liftM (f' a)) s s') :
    Agrees P paced E (liftM (op >>= f) : Procedure σ ε β) (liftM (op' >>= f')) s s' := by
  unfold Agrees
  rw [script_liftM_bind, script_liftM_bind]
  exact bind first rest

theorem liftM_get_bind {f f' : σ → StateT σ Script β}
    (h : Agrees P paced E (liftM (f s) : Procedure σ ε β) (liftM (f' s')) s s') :
    Agrees P paced E (liftM (get >>= f : StateT σ Script β) : Procedure σ ε β)
      (liftM (get >>= f' : StateT σ Script β)) s s' :=
  h

end Agrees

/-- The procedure agrees with itself wherever it is started in related states. -/
def Uniform (P : Instruction → Prop) (paced : Prop) (E : σ → σ → Prop) (op : Procedure σ ε α) :
    Prop :=
  ∀ s s', E s s' → Agrees P paced E op op s s'

namespace Uniform

variable {op : Procedure σ ε α}

theorem pure (a : α) : Uniform P paced E (Pure.pure a : Procedure σ ε α) :=
  fun _ _ h => .pure a h

theorem throw (e : ε) : Uniform P paced E (MonadExcept.throw e : Procedure σ ε α) :=
  fun _ _ h => .throw e h

theorem bind {f : α → Procedure σ ε β} (first : Uniform P paced E op)
    (rest : ∀ a, Uniform P paced E (f a)) : Uniform P paced E (op >>= f) :=
  fun s s' h => .bind (first s s' h) rest

theorem map (f : α → β) (h : Uniform P paced E op) : Uniform P paced E (f <$> op) :=
  fun s s' start => .map f (h s s' start)

theorem tryCatch {handle : ε → Procedure σ ε α} (h : Uniform P paced E op)
    (failed : ∀ e, Uniform P paced E (handle e)) :
    Uniform P paced E (MonadExcept.tryCatch op handle) :=
  fun s s' start => .tryCatch (h s s' start) failed

theorem sleep (us : Nat) :
    Uniform P paced E (liftM (Script.sleep us) : Procedure σ ε Unit) :=
  fun _ _ h => .sleep us h

end Uniform

end Procedure

/-! ### Steps of a driver -/

namespace Driver

open Procedure

variable {α : Type} {P : Instruction → Prop} {paced : Prop} {E : Driver → Driver → Prop}
  {d d' : Driver}

theorem agrees_ask {i : Instruction} (sent : P i) (h : E d d') :
    Agrees P paced E (ask i) (ask i) d d' := by
  unfold Agrees
  rw [script_ask, script_ask]
  exact .send sent fun _ => .done ⟨rfl, h⟩

theorem agrees_liftM_ask {i : Instruction} (sent : P i) (h : E d d') :
    Agrees P paced E (liftM (Script.ask i) : FlashM Reply) (liftM (Script.ask i)) d d' := by
  unfold Agrees
  rw [script_liftM, script_liftM]
  exact .send sent fun _ => .done ⟨rfl, h⟩

theorem agrees_setState (state : DriverState) (h : E { d with state } { d' with state }) :
    Agrees P paced E (setState state) (setState state) d d' :=
  .done ⟨rfl, h⟩

theorem agrees_guardReady {op op' : FlashM α} (same : d'.state = d.state) (h : E d d')
    (rest : d.state = .ready → Agrees P paced E op op' d d') :
    Agrees P paced E (do guardReady; op) (do guardReady; op') d d' := by
  unfold Agrees
  rw [script_bind, script_bind, script_guardReady, script_guardReady, same]
  split
  · next ready => exact rest ready
  · exact .done ⟨rfl, h⟩

theorem agrees_resting {op op' : FlashM α} (h : Agrees P paced E op op' d d')
    (rest : ∀ state d d', E d d' → E { d with state } { d' with state }) :
    Agrees P paced E (resting op) (resting op') d d' := by
  unfold Agrees
  rw [script_resting, script_resting]
  refine Script.Agrees.bind h ?_
  rintro ⟨_, _⟩ ⟨_, _⟩ ⟨rfl, ended⟩
  exact .done ⟨rfl, rest _ _ _ ended⟩

/-- An operation of the flash, run by the disk around it. -/
theorem agrees_onFlash {ε : Type} {F : Disk → Disk → Prop} {disk disk' : Disk} {op op' : FlashM α}
    (h : Agrees P paced E op op' disk.flash disk'.flash)
    (around : ∀ flash flash', E flash flash' →
      F { disk with flash } { disk' with flash := flash' }) :
    Procedure.Agrees P paced F (liftM (Disk.onFlash op) : Procedure Disk ε _)
      (liftM (Disk.onFlash op')) disk disk' := by
  unfold Procedure.Agrees
  rw [Disk.script_onFlash, Disk.script_onFlash]
  refine Script.Agrees.bind h ?_
  rintro ⟨_, _⟩ ⟨_, _⟩ ⟨rfl, ended⟩
  exact .done ⟨rfl, around _ _ ended⟩

end Driver

end SerialFlash
