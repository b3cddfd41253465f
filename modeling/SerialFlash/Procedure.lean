import SerialFlash.Script

/-!
Procedures: scripts over a state of their own that may fail. The state survives
a failure. What a procedure does from a given state is a plain script, and the
lemmas say which one for every way of putting procedures together.
-/

namespace SerialFlash

abbrev Procedure (σ ε : Type) := ExceptT ε (StateT σ Script)

namespace Procedure

variable {σ ε ε' α β : Type}

/-- The script of a procedure from a given state. -/
def script (op : Procedure σ ε α) (s : σ) : Script (Except ε α × σ) :=
  (ExceptT.run op).run s

/-- Runs a procedure to its outcome, good or bad. -/
def attempt (op : Procedure σ ε α) : Procedure σ ε' (Except ε α) :=
  ExceptT.lift (ExceptT.run op)

/-- How a procedure goes on after an outcome: a failure ends it. -/
def follow (f : α → Procedure σ ε β) : Except ε α × σ → Script (Except ε β × σ)
  | (.ok a, s) => script (f a) s
  | (.error e, s) => .done (.error e, s)

@[simp] theorem follow_ok (f : α → Procedure σ ε β) (a : α) (s : σ) :
    follow f (.ok a, s) = script (f a) s := rfl

@[simp] theorem follow_error (f : α → Procedure σ ε β) (e : ε) (s : σ) :
    follow f (.error e, s) = .done (.error e, s) := rfl

@[simp] theorem script_pure (a : α) (s : σ) :
    script (pure a : Procedure σ ε α) s = .done (.ok a, s) := rfl

@[simp] theorem script_throw (e : ε) (s : σ) :
    script (throw e : Procedure σ ε α) s = .done (.error e, s) := rfl

@[simp] theorem script_get (s : σ) :
    script (get : Procedure σ ε σ) s = .done (.ok s, s) := rfl

@[simp] theorem script_modify (f : σ → σ) (s : σ) :
    script (modify f : Procedure σ ε PUnit) s = .done (.ok ⟨⟩, f s) := rfl

@[simp] theorem script_bind (op : Procedure σ ε α) (f : α → Procedure σ ε β) (s : σ) :
    script (op >>= f) s = (script op s).bind (follow f) := by
  show Script.bind _ _ = Script.bind _ _
  congr 1
  funext ⟨result, s'⟩
  cases result <;> rfl

@[simp] theorem script_map (f : α → β) (op : Procedure σ ε α) (s : σ) :
    script (f <$> op) s = (script op s).bind fun (result, s) => .done (result.map f, s) := by
  show Script.bind _ _ = Script.bind _ _
  congr 1
  funext ⟨result, s'⟩
  cases result <;> rfl

@[simp] theorem script_ite (c : Prop) [Decidable c] (x y : Procedure σ ε α) (s : σ) :
    script (if c then x else y) s = if c then script x s else script y s := by
  split <;> rfl

@[simp] theorem script_attempt (op : Procedure σ ε α) (s : σ) :
    script (attempt op : Procedure σ ε' _) s =
      (script op s).bind fun (result, s) => .done (.ok result, s) := rfl

@[simp] theorem script_ofExcept (result : Except ε α) (s : σ) :
    script (MonadExcept.ofExcept result : Procedure σ ε α) s = .done (result, s) := by
  cases result <;> rfl

@[simp] theorem script_tryCatch (op : Procedure σ ε α) (handle : ε → Procedure σ ε α) (s : σ) :
    script (tryCatch op handle) s = (script op s).bind fun
      | (.ok a, s) => .done (.ok a, s)
      | (.error e, s) => script (handle e) s := by
  show Script.bind _ _ = Script.bind _ _
  congr 1
  funext ⟨result, s'⟩
  cases result <;> rfl

@[simp] theorem script_liftM_state (op : StateT σ Script α) (s : σ) :
    script (liftM op : Procedure σ ε α) s =
      (op.run s).bind fun (a, s) => .done (.ok a, s) := rfl

@[simp] theorem script_liftM (op : Script α) (s : σ) :
    script (liftM op : Procedure σ ε α) s = op.bind fun a => .done (.ok a, s) := by
  show (op.bind fun a => Script.done (a, s)).bind (fun p => .done (Except.ok p.1, p.2)) = _
  rw [Script.bind_assoc]
  rfl

theorem script_liftM_bind (op : StateT σ Script α) (f : α → StateT σ Script β) (s : σ) :
    script (liftM (op >>= f) : Procedure σ ε β) s =
      script ((liftM op : Procedure σ ε α) >>= fun a => liftM (f a)) s := by
  rw [script_bind, script_liftM_state, script_liftM_state, Script.bind_assoc]
  exact Script.bind_assoc _ _ _

/-- A procedure whose outcome is wrapped up as a value. -/
theorem script_liftM_run (f : Except ε' α → β) (op : Procedure σ ε' α) (s : σ) :
    script (liftM (f <$> ExceptT.run op : StateT σ Script β) : Procedure σ ε β) s =
      (script op s).bind fun p => .done (.ok (f p.1), p.2) :=
  Script.bind_assoc _ _ _

end Procedure

end SerialFlash
