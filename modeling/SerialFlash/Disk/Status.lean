/-!
Status flags of a disk, its errors, and the result codes of the classic disk
interface.
-/

namespace SerialFlash

/-- A set of drive flags. The empty set is a drive that is ready and writable. -/
structure DriveFlags where
  bits : UInt8
  deriving DecidableEq, Repr

namespace DriveFlags

def ready : DriveFlags := ⟨0⟩
/-- The flash has not been identified. -/
def notInitialised : DriveFlags := ⟨1⟩
/-- No medium; never set for soldered flash. -/
def noDisk : DriveFlags := ⟨2⟩
def writeProtected : DriveFlags := ⟨4⟩

def union (a b : DriveFlags) : DriveFlags :=
  ⟨a.bits ||| b.bits⟩

/-- Every flag of `b` is set in `a`, which is so for the empty set. -/
def contains (a b : DriveFlags) : Bool :=
  a.bits &&& b.bits == b.bits

/-- No flag that keeps the drive from working is set. -/
def isReady (f : DriveFlags) : Bool :=
  f.bits &&& (notInitialised.bits ||| noDisk.bits) == 0

end DriveFlags

inductive DiskError where
  /-- The flash driver is not ready. -/
  | notReady
  /-- A flash operation failed after `completed` whole sectors. -/
  | failed (completed : Nat)
  | writeProtected
  /-- Range, length or format is invalid. -/
  | invalidParameter
  deriving DecidableEq, Repr

namespace DiskError

/-- The result code of the classic disk interface; success is zero. -/
def code : DiskError → Nat
  | failed _ => 1
  | writeProtected => 2
  | notReady => 3
  | invalidParameter => 4

def message : DiskError → String
  | notReady => "Flash disk not ready"
  | failed completed => "Flash disk I/O error after " ++ toString completed ++ " sectors"
  | writeProtected => "Flash disk is write protected"
  | invalidParameter => "Invalid flash disk parameter"

theorem code_pos (e : DiskError) : 0 < e.code := by
  cases e <;> simp [code]

end DiskError

/-- The result code of an outcome. -/
def diskCode {α : Type} : Except DiskError α → Nat
  | .ok _ => 0
  | .error e => e.code

end SerialFlash
