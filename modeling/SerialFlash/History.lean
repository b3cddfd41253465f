import SerialFlash.Session

/-!
What a driver says to its chip in the course of a session: every request that goes out over the
link, with the reply that comes back, and after each operation a mark that it is over. What goes
to the chip past the driver is not the driver's and does not appear.
-/

namespace SerialFlash

inductive Event where
  | exchanged (request : Request) (reply : Reply)
  /-- An operation is over. It may have waited for the chip in vain. -/
  | returned (timedOut : Bool)

namespace Event

/-- The opcode that goes out. -/
def opcode? : Event → Option UInt8
  | exchanged request _ => some request.opcode
  | returned _ => none

/-- The request that goes out. -/
def request? : Event → Option Request
  | exchanged request _ => some request
  | returned _ => none

end Event

/-- The requests that go out, in their order. -/
def requestsSent (events : List Event) : List Request :=
  events.filterMap Event.request?

/-- The exchanges of a script on a bench. -/
def Script.exchanges {α : Type} : Script α → Bench → List Event
  | done _, _ => []
  | send i next, b =>
      .exchanged (b.link.request i) (b.send i).1 :: (next (b.send i).1).exchanges (b.send i).2
  | pause us next, b => next.exchanges (b.wait (us * 1000))

/-- The mark behind an operation of a driver: it names a timeout as an error of its own, or as the
cause of another one. -/
def Event.ofResult {α : Type} : Except (DriverError BusError) α → Event
  | .ok _ => .returned false
  | .error e => .returned (e.cause = .timeout)

/-- The mark behind an operation of a disk. The errors of a disk do not tell a timeout of the flash
under it, but the flash has been given up. -/
def Event.ofDisk (before after : Disk) : Event :=
  .returned (before.flash.state ≠ .failed ∧ after.flash.state = .failed)

namespace Session

/-- What an operation of the disk says. -/
def diskEvents (s : Session) (operation : DiskOperation) : List Event :=
  match s.device.disk? with
  | some d =>
      let script := operation.run.run d
      script.exchanges s.bench ++ [.ofDisk d (script.run s.bench).1.2]
  | none => []

/-- What an action makes the driver say. -/
def events (s : Session) : Action → List Event
  | .flash operation =>
      match s.device.driver? with
      | some driver =>
          let script := operation.run.script driver
          script.exchanges s.bench ++ [.ofResult (script.run s.bench).1.1]
      | none => []
  | .disk operation => s.diskEvents operation
  | .join first second =>
      s.diskEvents first ++ (s.step (.disk first)).2.diskEvents second
  | _ => []

/-- What the driver says in the course of a sequence of actions. -/
def history (s : Session) : List Action → List Event
  | [] => []
  | a :: rest => s.events a ++ (s.step a).2.history rest

end Session

end SerialFlash
