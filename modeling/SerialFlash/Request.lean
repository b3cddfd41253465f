import SerialFlash.Opcode
import SerialFlash.Word32

/-!
One bus transaction: an opcode, perhaps an address, perhaps a data phase. The
six shapes are all that a chip of this family is asked.
-/

namespace SerialFlash

abbrev Bytes := List UInt8

/-- What follows opcode and address. -/
inductive DataPhase where
  | none
  | send (data : Bytes)
  | receive (length : Nat)
  deriving DecidableEq, Repr

structure Request where
  opcode : UInt8
  address : Option Nat
  phase : DataPhase
  deriving DecidableEq, Repr

namespace Request

def command (opcode : Opcode) : Request :=
  ⟨opcode.byte, none, .none⟩

def commandAt (opcode : Opcode) (address : Nat) : Request :=
  ⟨opcode.byte, some address, .none⟩

def send (opcode : Opcode) (data : Bytes) : Request :=
  ⟨opcode.byte, none, .send data⟩

def sendAt (opcode : Opcode) (address : Nat) (data : Bytes) : Request :=
  ⟨opcode.byte, some address, .send data⟩

def receive (opcode : Opcode) (length : Nat) : Request :=
  ⟨opcode.byte, none, .receive length⟩

def receiveAt (opcode : Opcode) (address length : Nat) : Request :=
  ⟨opcode.byte, some address, .receive length⟩

end Request

/-- The low `count` bytes of a number, the most significant first. -/
def bigEndian : Nat → Nat → Bytes
  | 0, _ => []
  | count + 1, n => bigEndian count (n / 256) ++ [UInt8.ofNat n]

/-- The number that bytes spell, the most significant first. -/
def ofBigEndian (bytes : Bytes) : Nat :=
  bytes.foldl (fun n b => n * 256 + b.toNat) 0

/-- The low 24 bits of an address, the most significant byte first. -/
def addressBytes (address : Nat) : Bytes :=
  [UInt8.ofNat (address / 65536), UInt8.ofNat (address / 256), UInt8.ofNat address]

/-- The address that three bytes spell. -/
def addressOf (high middle low : UInt8) : Nat :=
  high.toNat * 65536 + middle.toNat * 256 + low.toNat

@[simp] theorem length_bigEndian (count n : Nat) : (bigEndian count n).length = count := by
  induction count generalizing n with
  | zero => rfl
  | succ count ih => simp [bigEndian, ih]

/-- Three bytes carry an address modulo 2 ^ 24. -/
theorem addressOf_addressBytes (address : Nat) :
    addressOf (UInt8.ofNat (address / 65536)) (UInt8.ofNat (address / 256))
      (UInt8.ofNat address) = address % 16777216 := by
  simp only [addressOf, UInt8.toNat_ofNat']
  omega

end SerialFlash
