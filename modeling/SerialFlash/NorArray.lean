import SerialFlash.Session

/-!
A NOR device as the generic interface describes it: an array of bytes that answers every call at
once, clears bits on a write and sets them on an erase. Erases come in units of 4 KiB. A call
whose range is not inside the array is refused, and so is an erase of anything but whole units.
-/

namespace SerialFlash

structure NorArray (capacity : Nat) where
  bytes : Vector UInt8 capacity
  deriving DecidableEq

/-- A call of the generic interface. -/
inductive NorCall where
  | read (offset length : Nat)
  | write (offset : Nat) (data : Bytes)
  | erase (start stop : Nat)
  deriving DecidableEq, Repr

namespace NorCall

def operation : NorCall → FlashOperation
  | read offset length => .norRead offset length
  | write offset data => .norWrite offset data
  | erase start stop => .norErase start stop

def action (call : NorCall) : Action :=
  .flash call.operation

end NorCall

namespace NorArray

variable {capacity : Nat}

/-- Gives the bytes of `[start, stop)` new values, each from its old one. -/
def update (a : NorArray capacity) (start stop : Nat) (new : Nat → UInt8 → UInt8) :
    NorArray capacity :=
  ⟨a.bytes.mapIdx fun k old => if start ≤ k ∧ k < stop then new k old else old⟩

def read (a : NorArray capacity) (offset length : Nat) : Except (DriverError BusError) Bytes :=
  if offset + length ≤ capacity then .ok ((a.bytes.toList.drop offset).take length)
  else .error .outOfBounds

/-- Clears the bits that are zero in the data. -/
def write (a : NorArray capacity) (offset : Nat) (data : Bytes) :
    Except (DriverError BusError) (NorArray capacity) :=
  if offset + data.length ≤ capacity then
    .ok (a.update offset (offset + data.length) fun k old => old &&& data.getD (k - offset) 0)
  else
    .error .outOfBounds

/-- Sets the bits of whole units. Bounds are checked before alignment. -/
def erase (a : NorArray capacity) (start stop : Nat) :
    Except (DriverError BusError) (NorArray capacity) :=
  if stop < start ∨ capacity < stop then .error .outOfBounds
  else if start % 4096 ≠ 0 ∨ stop % 4096 ≠ 0 then .error .misaligned
  else .ok (a.update start stop fun _ _ => 0xFF)

/-- The answer of a call that gives nothing back. One that fails leaves the array as it was. -/
def silent (a : NorArray capacity) : Except (DriverError BusError) (NorArray capacity) →
    Except (DriverError BusError) FlashValue × NorArray capacity
  | .ok changed => (.ok .nothing, changed)
  | .error e => (.error e, a)

/-- What a call gives back, and the array behind it. -/
def step (a : NorArray capacity) :
    NorCall → Except (DriverError BusError) FlashValue × NorArray capacity
  | .read offset length => ((a.read offset length).map .bytes, a)
  | .write offset data => a.silent (a.write offset data)
  | .erase start stop => a.silent (a.erase start stop)

/-- The array after a sequence of calls. -/
def run (a : NorArray capacity) (calls : List NorCall) : NorArray capacity :=
  calls.foldl (fun a call => (a.step call).2) a

end NorArray

/-- The first bytes of a memory. -/
def Memory.array (m : Memory) (capacity : Nat) : NorArray capacity :=
  ⟨.ofFn fun i => m.byteAt i⟩

end SerialFlash
