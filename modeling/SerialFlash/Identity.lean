import SerialFlash.Hex

/-!
JEDEC identities. Only listed manufacturers, memory types and capacity codes
are supported; the capacity code alone selects the size.
-/

namespace SerialFlash

structure Identity where
  manufacturer : UInt8
  memoryType : UInt8
  capacityCode : UInt8
  deriving DecidableEq, Repr

namespace Identity

def supportedManufacturers : List UInt8 := [0xEF]

def supportedMemoryTypes : List UInt8 := [0x40]

/-- Capacity codes with the size in bytes that each stands for. -/
def supportedCapacities : List (UInt8 × Nat) :=
  [(0x14, 0x100000), (0x15, 0x200000), (0x16, 0x400000), (0x18, 0x1000000)]

/-- The size that a capacity code stands for. -/
def sizeOfCode? (code : UInt8) : Option Nat :=
  (supportedCapacities.find? fun entry => entry.1 == code).map Prod.snd

/-- The identity held before any chip has answered. -/
def blank : Identity :=
  ⟨0, 0, 0⟩

/-- Reads an identity off the first three bytes of a reply. -/
def ofBytes (reply : List UInt8) : Identity :=
  ⟨reply.getD 0 0, reply.getD 1 0, reply.getD 2 0⟩

/-- The three bytes in wire order. -/
def toBytes (id : Identity) : List UInt8 :=
  [id.manufacturer, id.memoryType, id.capacityCode]

/-- The size of a chip all of whose identity bytes are listed. -/
def capacity? (id : Identity) : Option Nat :=
  if id.manufacturer ∈ supportedManufacturers ∧ id.memoryType ∈ supportedMemoryTypes then
    sizeOfCode? id.capacityCode
  else
    none

/-- Three upper-case pairs of digits with colons between. -/
def display (id : Identity) : String :=
  (String.intercalate ":" (id.toBytes.map Hex.ofByte)).toUpper

@[simp] theorem ofBytes_toBytes (id : Identity) : ofBytes id.toBytes = id := rfl

@[simp] theorem length_toBytes (id : Identity) : id.toBytes.length = 3 := rfl

/-- Sizes are whole 64 KiB blocks and fit 24 address bits. -/
theorem sizeOfCode?_bounds {code : UInt8} {size : Nat} (h : sizeOfCode? code = some size) :
    65536 ∣ size ∧ size ∣ 16777216 := by
  obtain ⟨entry, found, rfl⟩ := Option.map_eq_some_iff.mp h
  have listed : ∀ e ∈ supportedCapacities, 65536 ∣ e.2 ∧ e.2 ∣ 16777216 := by decide
  exact listed entry (List.mem_of_find?_eq_some found)

end Identity

end SerialFlash
