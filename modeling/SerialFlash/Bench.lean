import SerialFlash.Script

/-!
A chip on its link, with a clock that only accounts for the time it is asked to
wait, and a record of the payloads on the wires. Scripts run here.
-/

namespace SerialFlash

/-- Requested waiting time. -/
structure Clock where
  nanoseconds : Nat
  /-- Number of requests. -/
  calls : Nat
  deriving DecidableEq, Repr

namespace Clock

def zero : Clock :=
  ⟨0, 0⟩

def wait (c : Clock) (nanoseconds : Nat) : Clock :=
  ⟨c.nanoseconds + nanoseconds, c.calls + 1⟩

def microseconds (c : Clock) : Nat :=
  c.nanoseconds / 1000

def milliseconds (c : Clock) : Nat :=
  c.nanoseconds / 1000000

end Clock

structure Bench where
  link : Link
  chip : Chip
  clock : Clock
  traffic : Array Payload

namespace Bench

/-- A factory-fresh chip on a link. -/
def create (link : Link) (id : Identity) : Bench :=
  ⟨link, .factory id, .zero, #[]⟩

def record (traffic : Array Payload) : Option Payload → Array Payload
  | some payload => traffic.push payload
  | none => traffic

/-- Puts a request to the chip through the link. The payload is recorded
whatever comes of it. -/
def exchange (b : Bench) (r : Request) : Reply × Bench :=
  let ⟨link, chip, clock, traffic⟩ := b
  let traffic := record traffic (link.payload? r)
  let (reply, chip) := link.exchange chip r
  (reply, ⟨link, chip, clock, traffic⟩)

/-- Sends an instruction as the request that it is on the link. -/
def send (b : Bench) (i : Instruction) : Reply × Bench :=
  b.exchange (b.link.request i)

/-- A one-line transaction put to the chip past the link. -/
def exchangeSpi (b : Bench) (operations : List SpiOperation) :
    Except BusError (List Bytes) × Bench :=
  let ⟨link, chip, clock, traffic⟩ := b
  let (reply, chip) := chip.performSpi operations
  (reply, ⟨link, chip, clock, traffic.push (.spi operations)⟩)

/-- A frame put to the chip past the link. -/
def exchangeFrame (b : Bench) (f : Frame) (phase : DataPhase) : Reply × Bench :=
  let ⟨link, chip, clock, traffic⟩ := b
  let (reply, chip) := chip.performFrame f phase
  (reply, ⟨link, chip, clock, traffic⟩)

def wait (b : Bench) (nanoseconds : Nat) : Bench :=
  { b with clock := b.clock.wait nanoseconds }

def clearLogs (b : Bench) : Bench :=
  let ⟨link, chip, clock, _⟩ := b
  ⟨link, chip.clearLogs, clock, #[]⟩

end Bench

namespace Script

variable {α β : Type}

/-- Runs a script on a bench. -/
def run : Script α → Bench → α × Bench
  | done value, b => (value, b)
  | send i next, b =>
      let (reply, b) := b.send i
      (next reply).run b
  | pause us next, b => next.run (b.wait (us * 1000))

@[simp] theorem run_done (value : α) (b : Bench) : (done value).run b = (value, b) := rfl

@[simp] theorem run_send (i : Instruction) (next : Reply → Script α) (b : Bench) :
    (send i next).run b = (next (b.send i).1).run (b.send i).2 := rfl

@[simp] theorem run_pause (us : Nat) (next : Script α) (b : Bench) :
    (pause us next).run b = next.run (b.wait (us * 1000)) := rfl

@[simp] theorem run_bind (s : Script α) (f : α → Script β) (b : Bench) :
    (s.bind f).run b = (f (s.run b).1).run (s.run b).2 := by
  induction s generalizing b with
  | done value => rfl
  | send i next ih => exact ih _ _
  | pause us next ih => exact ih _

end Script

end SerialFlash
