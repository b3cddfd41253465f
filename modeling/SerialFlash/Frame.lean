import SerialFlash.Geometry
import SerialFlash.Request

/-!
Commands of a multi-line controller. Each phase of a frame runs on its own
number of lines; the array reads also carry a mode byte and dummy cycles, which
together take the number of cycles that the configuration asks for.
-/

namespace SerialFlash

/-- Data lines driven in one phase. -/
inductive Lines where
  | none
  | single
  | dual
  | quad
  deriving DecidableEq, Repr

/-- Clock cycles that one byte takes. -/
def Lines.cyclesPerByte : Lines → Nat
  | none => 0
  | single => 8
  | dual => 4
  | quad => 2

structure Frame where
  opcode : UInt8
  opcodeLines : Lines
  address : Option Nat
  addressLines : Lines
  /-- The mode byte right after the address. -/
  modeByte : Option UInt8
  modeLines : Lines
  dummyCycles : Nat
  dataLines : Lines
  deriving DecidableEq, Repr

namespace Frame

/-- An instruction on one line and nothing else. -/
def instruction (opcode : UInt8) : Frame where
  opcode := opcode
  opcodeLines := .single
  address := none
  addressLines := .none
  modeByte := none
  modeLines := .none
  dummyCycles := 0
  dataLines := .none

/-- Adds an address on one line. -/
def withAddress (f : Frame) (address : Nat) : Frame :=
  { f with address := some address, addressLines := .single }

def withData (f : Frame) (lines : Lines) : Frame :=
  { f with dataLines := lines }

end Frame

/-- Lines used by address and data of an array read. -/
inductive Width where
  | single
  | dual
  | quad
  deriving DecidableEq, Repr

namespace Width

def lines : Width → Lines
  | single => .single
  | dual => .dual
  | quad => .quad

/-- Cycles of the mode byte, which the one-line fast read does not have. -/
def modeCycles : Width → Nat
  | single => 0
  | dual => Lines.dual.cyclesPerByte
  | quad => Lines.quad.cyclesPerByte

def readOpcode : Width → Opcode
  | single => .fastRead
  | dual => .fastReadDualIo
  | quad => .fastReadQuadIo

def programOpcode : Width → Opcode
  | quad => .quadPageProgram
  | _ => .pageProgram

end Width

/-- The longest dummy phase that the fast reads accept. -/
def maxDummyCycles : Nat := 15

inductive LineConfigError where
  /-- The dummy phase is empty or too long. -/
  | cyclesOutOfRange
  /-- The mode byte does not fit the dummy phase. -/
  | shorterThanModeByte
  deriving DecidableEq, Repr

def LineConfigError.message : LineConfigError → String
  | cyclesOutOfRange => "read dummy cycles must be within 1..=15"
  | shorterThanModeByte => "read dummy cycles shorter than the mode byte"

/-- Width of a multi-line link, and the cycles between address and data of its
reads, the mode byte included. -/
structure LineConfig where
  width : Width
  dummyCycles : Nat
  dummyCycles_pos : 0 < dummyCycles
  dummyCycles_le : dummyCycles ≤ maxDummyCycles
  modeCycles_le : width.modeCycles ≤ dummyCycles
  deriving DecidableEq

namespace LineConfig

def create (width : Width) (dummyCycles : Nat) : Except LineConfigError LineConfig :=
  if range : 0 < dummyCycles ∧ dummyCycles ≤ maxDummyCycles then
    if mode : width.modeCycles ≤ dummyCycles then
      .ok ⟨width, dummyCycles, range.1, range.2, mode⟩
    else
      .error .shorterThanModeByte
  else
    .error .cyclesOutOfRange

/-- Four lines, two cycles of mode byte and four idle ones. -/
def standard : LineConfig :=
  ⟨.quad, 6, by decide, by decide, by decide⟩

/-- The configured read runs on the lines of the width; any other read is a
plain one-line read. -/
def readFrame (c : LineConfig) (opcode : UInt8) (address : Nat) : Frame :=
  if opcode = c.width.readOpcode.byte then
    let lines := c.width.lines
    let moded := c.width.modeCycles ≠ 0
    { opcode
      opcodeLines := .single
      address := some address
      addressLines := lines
      modeByte := if moded then some readModeByte else none
      modeLines := if moded then lines else .none
      dummyCycles := c.dummyCycles - c.width.modeCycles
      dataLines := lines }
  else
    ((Frame.instruction opcode).withAddress address).withData .single

/-- Only the four-line program carries its data on four lines. -/
def programFrame (opcode : UInt8) (address : Nat) : Frame :=
  ((Frame.instruction opcode).withAddress address).withData
    (if opcode = Opcode.quadPageProgram.byte then .quad else .single)

/-- The frame in which a request goes out. -/
def frame (c : LineConfig) (r : Request) : Frame :=
  match r.address, r.phase with
  | none, .none => Frame.instruction r.opcode
  | some address, .none => (Frame.instruction r.opcode).withAddress address
  | none, .send _ => (Frame.instruction r.opcode).withData .single
  | some address, .send _ => programFrame r.opcode address
  | none, .receive _ => (Frame.instruction r.opcode).withData .single
  | some address, .receive _ => c.readFrame r.opcode address

@[simp] theorem frame_opcode (c : LineConfig) (r : Request) :
    (c.frame r).opcode = r.opcode := by
  rcases r with ⟨opcode, _ | address, _ | _ | _⟩ <;>
    simp only [frame, readFrame, programFrame, Frame.instruction, Frame.withAddress, Frame.withData]
  split <;> rfl

@[simp] theorem frame_address (c : LineConfig) (r : Request) :
    (c.frame r).address = r.address := by
  rcases r with ⟨opcode, _ | address, _ | _ | _⟩ <;>
    simp only [frame, readFrame, programFrame, Frame.instruction, Frame.withAddress, Frame.withData]
  split <;> rfl

end LineConfig

end SerialFlash
