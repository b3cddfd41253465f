import SerialFlash.Chip

/-!
One transaction on any of the three faces of the chip: a request as it is, the operations of a
one-line device, or a frame of a multi-line controller.
-/

namespace SerialFlash

inductive Transaction where
  | request (r : Request)
  | spi (operations : List SpiOperation)
  | frame (f : Frame) (phase : DataPhase)
  deriving DecidableEq, Repr

/-- All the bytes that go out, if none comes back. -/
def SpiOperation.written? : List SpiOperation → Option Bytes
  | [] => some []
  | .write data :: rest => (written? rest).map (data ++ ·)
  | .delay _ :: rest => written? rest
  | .read _ :: _ => none
  | .transfer _ _ :: _ => none
  | .transferInPlace _ :: _ => none

namespace Transaction

/-- The request that the chip carries out when the transaction has gone through. One-line
transactions with reads in them have been answered by then, and are not carried out. -/
def command? : Transaction → Option Request
  | request r => some r
  | spi operations => (SpiOperation.written? operations).bind Chip.writtenRequest?
  | frame f phase => some ⟨f.opcode, f.address, phase⟩

end Transaction

namespace Chip

/-- Puts a transaction to the chip. It is answered with the bytes of each read. -/
def transact (c : Chip) : Transaction → Except BusError (List Bytes) × Chip
  | .request r => ((c.perform r).1.map ([·]), (c.perform r).2)
  | .spi operations => c.performSpi operations
  | .frame f phase => ((c.performFrame f phase).1.map ([·]), (c.performFrame f phase).2)

end Chip

end SerialFlash
