import SerialFlash.Session

/-!
A disk as its user sees it: an array of sectors that answers every call at once, has no
state but its contents, and knows of no chip. A call is an operation, or two that are
started together, and the range of a call either lies inside the array or is refused.
-/

namespace SerialFlash

/-- Sectors of `size` bytes, `count` of them. -/
structure SectorArray (count size : Nat) where
  sectors : Vector (Vector UInt8 size) count
  deriving DecidableEq

namespace SectorArray

variable {count size : Nat}

/-! ### Contents -/

/-- The bytes of `n` sectors from `start` on. -/
def bytes (a : SectorArray count size) (start n : Nat) : Bytes :=
  ((a.sectors.toList.drop start).take n).flatMap Vector.toList

/-- Gives sectors `start` to `stop - 1` new contents. -/
def replace (a : SectorArray count size) (start stop : Nat) (new : Nat → Vector UInt8 size) :
    SectorArray count size :=
  ⟨a.sectors.mapIdx fun k old => if start ≤ k ∧ k < stop then new k else old⟩

/-- Stores `n` sectors of data from `start` on. -/
def store (a : SectorArray count size) (start n : Nat) (data : Bytes) : SectorArray count size :=
  a.replace start (start + n) fun k => .ofFn fun i => data.getD ((k - start) * size + i) 0

/-- Erases sectors `start` to `stop - 1`. -/
def erase (a : SectorArray count size) (start stop : Nat) : SectorArray count size :=
  a.replace start stop fun _ => .replicate size erasedByte

/-! ### Calls -/

/-- Sectors in a transfer of `length` bytes that starts at a sector of an array, if they are
whole and lie inside. -/
def span? (count size start length : Nat) : Option Nat :=
  if length % size = 0 ∧ start + length / size ≤ count then some (length / size) else none

def read (a : SectorArray count size) (start length : Nat) : Except DiskError (Nat × Bytes) :=
  match span? count size start length with
  | some n => .ok (n, a.bytes start n)
  | none => .error .invalidParameter

def write (a : SectorArray count size) (start : Nat) (data : Bytes) :
    Except DiskError Nat × SectorArray count size :=
  match span? count size start data.length with
  | some n => (.ok n, a.store start n data)
  | none => (.error .invalidParameter, a)

def control (a : SectorArray count size) :
    DiskCommand → Except DiskError DiskAnswer × SectorArray count size
  | .sync => (.ok .done, a)
  | .sectorCount => (.ok (.sectorCount count), a)
  | .sectorSize => (.ok (.sectorSize size), a)
  | .blockSize => (.ok (.blockSize 1), a)
  | .trim start stop =>
      if start ≤ stop ∧ stop ≤ count then (.ok .done, a.erase start stop)
      else (.error .invalidParameter, a)

/-- What an operation gives back, and the array behind it. -/
def serve (a : SectorArray count size) : DiskOperation → DiskOutcome × SectorArray count size
  | .status | .startUp => (.status .ready, a)
  | .geometry => (.geometry size count, a)
  | .read start length => (.read (a.read start length), a)
  | .write start data =>
      let (result, a) := a.write start data
      (.write result, a)
  | .control command =>
      let (result, a) := a.control command
      (.control result, a)

end SectorArray

/-- A call of a disk. -/
inductive DiskCall where
  | alone (operation : DiskOperation)
  /-- Two operations started together. -/
  | together (first second : DiskOperation)
  deriving DecidableEq

def DiskCall.action : DiskCall → Action
  | alone operation => .disk operation
  | together first second => .join first second

namespace SectorArray

variable {count size : Nat}

def step (a : SectorArray count size) : DiskCall → Outcome × SectorArray count size
  | .alone operation =>
      let (outcome, a) := a.serve operation
      (.disk outcome, a)
  | .together first second =>
      let (one, a) := a.serve first
      let (two, a) := a.serve second
      (.join one two, a)

/-- The array after a sequence of calls. -/
def run (a : SectorArray count size) (calls : List DiskCall) : SectorArray count size :=
  calls.foldl (fun a call => (a.step call).2) a

end SectorArray

/-- The contents of a disk of sectors at the front of a memory. -/
def Memory.sectors (m : Memory) (count size : Nat) : SectorArray count size :=
  ⟨.ofFn fun k => .ofFn fun i => m.byteAt (k * size + i)⟩

end SerialFlash
