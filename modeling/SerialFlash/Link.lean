import SerialFlash.Chip

/-!
How a driver reaches its chip: with requests as they are, as one-line
transactions, or as frames of a multi-line controller. The link picks the
opcodes for array reads and page programs, so that the driver itself does not
know the number of lines.
-/

namespace SerialFlash

inductive Link where
  | direct
  | spi
  | wide (config : LineConfig)
  deriving DecidableEq

/-- What a link puts on its wires, as far as it carries data of its own: a
one-line transaction, or the data of a sent frame. -/
inductive Payload where
  | spi (operations : List SpiOperation)
  | sent (data : Bytes)
  deriving DecidableEq, Repr

namespace Link

def readOpcode : Link → Opcode
  | wide config => config.width.readOpcode
  | _ => .read

def programOpcode : Link → Opcode
  | wide config => config.width.programOpcode
  | _ => .pageProgram

/-- Array reads and programs use all four lines, so that the quad-enable bit
has to be set first. -/
def needsQuad : Link → Bool
  | wide config => config.width = .quad
  | _ => false

/-- Puts a request to the chip. -/
def exchange (l : Link) (c : Chip) (r : Request) : Except BusError Bytes × Chip :=
  match l with
  | direct => c.perform r
  | spi =>
      let (result, c) := c.performSpi r.toSpi
      (result.map List.flatten, c)
  | wide config => c.performFrame (config.frame r) r.phase

/-- What is seen on the wires when a request goes out. -/
def payload? (l : Link) (r : Request) : Option Payload :=
  match l, r.phase with
  | spi, _ => some (.spi r.toSpi)
  | wide _, .send data => some (.sent data)
  | _, _ => none

end Link

end SerialFlash
