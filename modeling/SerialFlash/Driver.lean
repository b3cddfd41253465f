import SerialFlash.Bench
import SerialFlash.Layout
import SerialFlash.Error
import SerialFlash.Procedure

/-!
State and vocabulary of a driver. An operation is a script over the driver's
state that may end in an error; nothing in it depends on the link but whether
the quad-enable bit has to be set.
-/

namespace SerialFlash

structure Driver where
  options : DriverOptions
  compareBuffer : CompareBuffer
  /-- The link's array instructions need the quad-enable bit. -/
  needsQuad : Bool
  layout : Layout
  /-- The identity read last. -/
  identity : Identity
  state : DriverState
  deriving DecidableEq

/-- An operation of a driver. -/
abbrev FlashM := Procedure Driver (DriverError BusError)

/-- Outcome of an operation, with the driver that it leaves. -/
abbrev FlashResult (α : Type) := Except (DriverError BusError) α × Driver

namespace Driver

variable {α : Type}

/-- A driver that has not touched its chip yet. -/
def create (options : DriverOptions) (compareBuffer : CompareBuffer) (needsQuad : Bool) :
    Driver where
  options := options
  compareBuffer := compareBuffer
  needsQuad := needsQuad
  layout := .unknown options.eraseUnit.size
  identity := .blank
  state := .notReady

/-- Runs an operation on a bench. -/
def perform (op : FlashM α) (d : Driver) (b : Bench) : FlashResult α × Bench :=
  (op.script d).run b

def setState (state : DriverState) : FlashM Unit :=
  modify fun d => { d with state }

/-- Refuses with the state unless the driver is ready. -/
def guardReady : FlashM Unit := do
  let state := (← get).state
  unless state = .ready do
    throw (.busy state)

/-- Sends an instruction; a bus error ends the operation. -/
def ask (i : Instruction) : FlashM Bytes := do
  match ← Script.ask i with
  | .ok reply => return reply
  | .error e => throw (.bus e)

/-- State after an operation: the chip is given up only when it stopped
answering in time. -/
def restState : Except (DriverError BusError) α → DriverState
  | .error e => if e.cause = .timeout then .failed else .ready
  | .ok _ => .ready

/-- Runs an operation and puts the driver into the rest state of its outcome. -/
def resting (op : FlashM α) : FlashM α := do
  let result ← op.attempt
  setState (restState result)
  MonadExcept.ofExcept result

/-! ### Scripts of the steps -/

@[simp] theorem script_setState (state : DriverState) (d : Driver) :
    (setState state).script d = .done (.ok (), { d with state }) := rfl

@[simp] theorem script_guardReady (d : Driver) :
    guardReady.script d =
      .done (if d.state = .ready then .ok () else .error (.busy d.state), d) := by
  simp [guardReady]
  split <;> rfl

@[simp] theorem script_ask (i : Instruction) (d : Driver) :
    (ask i).script d = .send i fun reply => .done (reply.mapError .bus, d) := by
  simp [ask, Script.ask]
  funext reply
  cases reply <;> rfl

@[simp] theorem script_resting (op : FlashM α) (d : Driver) :
    (resting op).script d =
      (op.script d).bind fun (result, d) =>
        .done (result, { d with state := restState result }) := by
  simp [resting]

end Driver

end SerialFlash
