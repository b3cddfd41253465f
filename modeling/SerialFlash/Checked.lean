import SerialFlash.Transaction

/-!
The same chip on an array that is strict about indices. Where the array of `Memory` reads ones
outside its range and drops what is stored there, this one gives up, and so do a run that does not
lie inside the array and a remainder by an empty size. A transaction that comes to an end here has
used no index out of range.
-/

namespace SerialFlash

namespace Memory

def byteAt? (m : Memory) (i : Nat) : Option UInt8 :=
  if i < m.size then some (m.byteAt i) else none

def set? (m : Memory) (i : Nat) (b : UInt8) : Option Memory :=
  if i < m.size then some (m.set i b) else none

/-- An address as an index, coming round at the end of the array. -/
def index? (m : Memory) (address : Nat) : Option Nat :=
  if m.size = 0 then none else some (address % m.size)

/-- Stores one byte in all cells of `[start, stop)`. -/
def fill? (m : Memory) (b : UInt8) (start stop : Nat) : Option Memory :=
  if start ≤ stop ∧ stop ≤ m.size then some (m.fill b start (stop - start)) else none

def read? (m : Memory) (start n : Nat) : Option Bytes :=
  (List.range n).mapM fun k => do m.byteAt? (← m.index? (start + k))

def programFrom? (m : Memory) (page column : Nat) : Bytes → Option Memory
  | [] => some m
  | b :: bs => do
      let i ← m.index? (page + column % pageSize)
      let m ← m.set? i ((← m.byteAt? i) &&& b)
      m.programFrom? page (column + 1) bs

def program? (m : Memory) (address : Nat) (data : Bytes) : Option Memory :=
  m.programFrom? (address / pageSize * pageSize) address data

def restick? (m : Memory) (start stop : Nat) : List StuckCell → Option Memory
  | [] => some m
  | c :: cs => do
      let m ← if start ≤ c.offset ∧ c.offset < stop then m.set? c.offset c.value else some m
      m.restick? start stop cs

def erase? (m : Memory) (unit address : Nat) (stuck : List StuckCell) : Option Memory := do
  let start ← m.index? (address / unit * unit)
  let stop := min (start + unit) m.size
  let m ← m.fill? erasedByte start stop
  m.restick? start stop stuck

end Memory

namespace Chip

def eraseUnit? (c : Chip) (unit address : Nat) : Option Chip := do
  let memory ← c.memory.erase? unit address c.stuckCells
  return { c with
    memory
    erases := c.erases + 1
    writeEnabled := false
    busyReads := c.eraseBusy }

def runCommand? (c : Chip) (opcode : UInt8) : Option Chip :=
  if c.poweredDown then
    if Opcode.ofByte? opcode = some .releasePowerDown then
      some { c with poweredDown := false }
    else
      some c
  else if c.isBusy then
    some c
  else
    match Opcode.ofByte? opcode with
    | some .writeEnable => some { c with writeEnabled := true }
    | some .writeDisable => some { c with writeEnabled := false }
    | some .chipErase => if c.writeEnabled then c.eraseUnit? c.memory.size 0 else some c
    | some .powerDown => some { c with poweredDown := true }
    | _ => some c

def runErase? (c : Chip) (opcode : UInt8) (address : Nat) : Option Chip :=
  if c.responsive && c.writeEnabled then
    match unitOf? opcode with
    | some unit => c.eraseUnit? unit address
    | none => some c
  else
    some c

def runProgram? (c : Chip) (opcode : UInt8) (address : Nat) (data : Bytes) : Option Chip :=
  if c.responsive && c.writeEnabled && c.canProgram opcode then do
    let memory ← c.memory.program? address data
    return { c with
      memory
      programs := c.programs + 1
      writeEnabled := false
      busyReads := c.programBusy }
  else
    some c

def runRead? (c : Chip) (opcode : UInt8) (address length : Nat) : Option (Bytes × Chip) :=
  if c.responsive && c.canRead opcode then do
    let answer ← c.memory.read? address length
    return (answer, { c with reads := c.reads + 1 })
  else
    some (List.replicate length 0xFF, c)

/-- Status writes, and answers from the registers, do not touch the array. -/
def execute? (c : Chip) (r : Request) : Option (Bytes × Chip) :=
  match r.address, r.phase with
  | none, .none => do return ([], ← c.runCommand? r.opcode)
  | some address, .none => do return ([], ← c.runErase? r.opcode address)
  | none, .send data =>
      some ([], if Opcode.ofByte? r.opcode = some .writeStatus then c.runStatusWrite data else c)
  | some address, .send data => do return ([], ← c.runProgram? r.opcode address data)
  | none, .receive length => some (c.runReceive r.opcode length)
  | some address, .receive length => c.runRead? r.opcode address length

def perform? (c : Chip) (r : Request) : Option (Except BusError Bytes × Chip) :=
  match c.start r.opcode with
  | (true, c) => some (.error .injected, c)
  | (false, c) => do
      let (answer, c) ← c.execute? r
      return (.ok answer, c)

def spiFrom? (c : Chip) (sent : Bytes) (answers : List Bytes) :
    List SpiOperation → Option (Except BusError (List Bytes) × Chip)
  | [] =>
      if answers.isEmpty then
        match writtenRequest? sent with
        | some r => do
            match ← c.perform? r with
            | (.ok _, c) => return (.ok [], c)
            | (.error e, c) => return (.error e, c)
        | none => some (.error .unsupported, c)
      else
        some (.ok answers, c)
  | .write data :: rest => c.spiFrom? (sent ++ data) answers rest
  | .read length :: rest =>
      match answeredRequest? length sent with
      | some r => do
          match ← c.perform? r with
          | (.ok answer, c) => c.spiFrom? sent (answers ++ [answer]) rest
          | (.error e, c) => return (.error e, c)
      | none => some (.error .unsupported, c)
  | .delay _ :: rest => c.spiFrom? sent answers rest
  | .transfer _ _ :: _ => some (.error .unsupported, c)
  | .transferInPlace _ :: _ => some (.error .unsupported, c)

def performFrame? (c : Chip) (f : Frame) (phase : DataPhase) :
    Option (Except BusError Bytes × Chip) :=
  let c := { c with frameLog := c.frameLog.push f }
  match c.start f.opcode with
  | (true, c) => some (.error .injected, c)
  | (false, c) =>
      if understands f phase then do
        let (answer, c) ← c.execute? ⟨f.opcode, f.address, phase⟩
        return (.ok answer, c)
      else
        some (.error .unsupported, c)

def transact? (c : Chip) : Transaction → Option (Except BusError (List Bytes) × Chip)
  | .request r => do
      let (reply, c) ← c.perform? r
      return (reply.map ([·]), c)
  | .spi operations => c.spiFrom? [] [] operations
  | .frame f phase => do
      let (reply, c) ← c.performFrame? f phase
      return (reply.map ([·]), c)

end Chip

end SerialFlash
