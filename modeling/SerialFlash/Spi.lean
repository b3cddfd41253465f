import SerialFlash.Request

/-!
One-line transactions. Chip select stays asserted through a list of operations;
the bytes written so far are the command that the next read answers.
-/

namespace SerialFlash

inductive SpiOperation where
  | write (data : Bytes)
  | read (length : Nat)
  /-- Writes `data` while `length` bytes are read. -/
  | transfer (length : Nat) (data : Bytes)
  | transferInPlace (data : Bytes)
  | delay (nanoseconds : Nat)
  deriving DecidableEq, Repr

/-- Opcode and address as they go out first. -/
def Request.header (r : Request) : Bytes :=
  r.opcode :: (r.address.map addressBytes).getD []

/-- Header and data of a request share one transaction. -/
def Request.toSpi (r : Request) : List SpiOperation :=
  match r.phase with
  | .none => [.write r.header]
  | .send data => [.write r.header, .write data]
  | .receive length => [.write r.header, .read length]

end SerialFlash
