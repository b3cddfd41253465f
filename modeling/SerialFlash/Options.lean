import SerialFlash.Geometry
import SerialFlash.Opcode

/-!
Settings of a driver: the erase unit that it calls a sector, how it waits, and
the size of the buffer that checks an erase.
-/

namespace SerialFlash

/-- The erase unit behind a sector. -/
inductive EraseUnit where
  | sector4K
  | block64K
  deriving DecidableEq, Repr

namespace EraseUnit

/-- Bytes in the unit. -/
def size : EraseUnit → Nat
  | sector4K => sectorSize4K
  | block64K => blockSize64K

def opcode : EraseUnit → Opcode
  | sector4K => .sectorErase4K
  | block64K => .blockErase64K

theorem size_pos (u : EraseUnit) : 0 < u.size := by
  cases u <;> decide

end EraseUnit

structure DriverOptions where
  eraseUnit : EraseUnit
  /-- Pause between status polls, so that others get processor time. -/
  pauses : Bool
  /-- Length of that pause in microseconds. -/
  pollInterval : Nat
  /-- Most status reads after a page program or status write. -/
  maxPolls : Nat
  /-- Longest wait for an erase, in milliseconds. -/
  eraseTimeout : Nat
  deriving DecidableEq, Repr

namespace DriverOptions

/-- Small sectors, one millisecond between polls, and time for the slowest
chip erase. -/
def standard : DriverOptions where
  eraseUnit := .sector4K
  pauses := true
  pollInterval := 1000
  maxPolls := 100
  eraseTimeout := 400000

/-- Polls without pausing, and therefore more often. -/
def spinning : DriverOptions :=
  { standard with pauses := false, maxPolls := 100000 }

end DriverOptions

/-- Size of the buffer that an erase check reads into: a power of two no
larger than the smallest erase unit. -/
structure CompareBuffer where
  exponent : Fin 13
  deriving DecidableEq, Repr

namespace CompareBuffer

def size (b : CompareBuffer) : Nat :=
  1 <<< b.exponent.val

def standard : CompareBuffer := ⟨5⟩

/-- The buffer of a given size, if there is one. -/
def ofSize? (n : Nat) : Option CompareBuffer :=
  ((List.finRange 13).map CompareBuffer.mk).find? fun b => b.size == n

theorem size_pos (b : CompareBuffer) : 0 < b.size := by
  rw [size, Nat.one_shiftLeft]
  exact Nat.two_pow_pos _

theorem size_dvd (b : CompareBuffer) : b.size ∣ sectorSize4K := by
  rw [size, Nat.one_shiftLeft]
  exact Nat.pow_dvd_pow 2 (Nat.le_of_lt_succ b.exponent.isLt)

end CompareBuffer

end SerialFlash
