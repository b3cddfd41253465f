import SerialFlash.Identity

/-!
What can go wrong on the bus and in the driver. An error names its cause; the
wording is in one `message` function for each type.
-/

namespace SerialFlash

/-- Operational state of a driver. `reading` and `programming` last for one
operation; `erasing` lasts until the erase has been observed complete;
`failed` means that the chip stopped answering within the polling bound. -/
inductive DriverState where
  | notReady
  | ready
  | erasing
  | reading
  | programming
  | failed
  deriving DecidableEq, Repr

def DriverState.text : DriverState → String
  | notReady => "not ready"
  | ready => "ready"
  | erasing => "erasing"
  | reading => "reading"
  | programming => "programming"
  | failed => "error"

/-- Failure of a single bus transaction. -/
inductive BusError where
  /-- A fault that was armed on purpose fired. -/
  | injected
  /-- The chip understands no transaction of this shape. -/
  | unsupported
  deriving DecidableEq, Repr

def BusError.text : BusError → String
  | injected => "Injected"
  | unsupported => "Unsupported"

/-- What stopped an operation of several parts. -/
inductive StopCause where
  | bus
  | timeout
  | notErased
  deriving DecidableEq, Repr

def StopCause.text : StopCause → String
  | bus => "transport error"
  | timeout => "timeout"
  | notErased => "verify failure"

/-- Errors of a driver over a bus whose own errors are `ε`. -/
inductive DriverError (ε : Type) where
  | bus (error : ε)
  /-- The identity is not listed. -/
  | unknownDevice (id : Identity)
  /-- The driver is in a state that does not accept the operation. -/
  | busy (state : DriverState)
  /-- The byte at `offset` is not erased after an erase. -/
  | notErased (offset : Nat)
  /-- The chip stayed busy past the polling bound. -/
  | timeout
  /-- An operation of several parts stopped after `completed` units. -/
  | interrupted (completed : Nat) (cause : StopCause)
  | outOfBounds
  | misaligned
  /-- The quad-enable bit did not latch. -/
  | quadNotLatched
  deriving DecidableEq, Repr

/-- The three kinds of error that the generic NOR interface distinguishes. -/
inductive NorErrorKind where
  | misaligned
  | outOfBounds
  | other
  deriving DecidableEq, Repr

namespace DriverError

variable {ε φ : Type}

/-- The cause reported when this error interrupts an operation of several
parts. -/
def cause : DriverError ε → StopCause
  | timeout => .timeout
  | notErased _ => .notErased
  | interrupted _ cause => cause
  | _ => .bus

/-- Changes the bus error and keeps every other error. -/
def mapBus (f : ε → φ) : DriverError ε → DriverError φ
  | bus e => bus (f e)
  | unknownDevice id => unknownDevice id
  | busy state => busy state
  | notErased offset => notErased offset
  | timeout => timeout
  | interrupted completed cause => interrupted completed cause
  | outOfBounds => outOfBounds
  | misaligned => misaligned
  | quadNotLatched => quadNotLatched

def kind : DriverError ε → NorErrorKind
  | outOfBounds => .outOfBounds
  | misaligned => .misaligned
  | _ => .other

def isTimeout : DriverError ε → Bool
  | timeout => true
  | _ => false

/-- The wording, given that of a bus error. -/
def message (busText : ε → String) : DriverError ε → String
  | bus e => "Flash bus transport error: " ++ busText e
  | unknownDevice id => "Unsupported flash device " ++ id.display
  | busy state => "Flash device busy (" ++ state.text ++ ")"
  | notErased offset => "Erase verify failed at offset 0x" ++ Hex.ofNat offset
  | timeout => "Flash device did not become ready in time"
  | interrupted completed cause =>
      "Flash operation stopped after " ++ toString completed ++ " units: " ++ cause.text
  | outOfBounds => "Flash access out of bounds"
  | misaligned => "Flash access not sector aligned"
  | quadNotLatched => "Flash quad mode could not be enabled"

@[simp] theorem mapBus_id (e : DriverError ε) : e.mapBus id = e := by
  cases e <;> rfl

@[simp] theorem cause_mapBus (f : ε → φ) (e : DriverError ε) :
    (e.mapBus f).cause = e.cause := by
  cases e <;> rfl

end DriverError

end SerialFlash
