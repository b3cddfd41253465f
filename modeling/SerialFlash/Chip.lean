import SerialFlash.Identity
import SerialFlash.Error
import SerialFlash.Fault
import SerialFlash.Frame
import SerialFlash.Memory
import SerialFlash.Spi
import SerialFlash.Status

/-!
A chip of the family, as seen from the bus. It holds its cells, the write-enable
latch, a count of status reads for which it still answers busy, the protection
and quad-enable bits and its power state. What it cannot carry out it ignores
without an error, as the real part does; only an armed fault or a transaction of
unknown shape fails.
-/

namespace SerialFlash

structure Chip where
  id : Identity
  memory : Memory
  uniqueId : UInt64
  /-- The block-protect bits, in their place in status register 1. -/
  protectBits : UInt8
  quadEnabled : Bool
  /-- Status writes change no bit. -/
  statusLocked : Bool
  writeEnabled : Bool
  /-- Status reads that still answer busy. -/
  busyReads : Nat
  /-- Busy whatever the count. -/
  stuckBusy : Bool
  poweredDown : Bool
  /-- Busy reads after each page program and status write. -/
  programBusy : Nat
  /-- Busy reads after each erase. -/
  eraseBusy : Nat
  stuckCells : List StuckCell
  faults : Faults
  opcodeLog : Array UInt8
  frameLog : Array Frame
  /-- Page programs carried out. -/
  programs : Nat
  /-- Erases carried out. -/
  erases : Nat
  /-- Array reads answered. -/
  reads : Nat

namespace Chip

/-- The unique ID of a chip unless another is set. -/
def factoryUniqueId : UInt64 := 0xD2671C8A3B5E9904

/-- A chip fresh from the factory, erased and idle. A capacity code that is not
listed gets one mebibyte. -/
def factory (id : Identity) : Chip where
  id := id
  memory := .blank ((Identity.sizeOfCode? id.capacityCode).getD 0x100000)
  uniqueId := factoryUniqueId
  protectBits := 0
  quadEnabled := false
  statusLocked := false
  writeEnabled := false
  busyReads := 0
  stuckBusy := false
  poweredDown := false
  programBusy := 1
  eraseBusy := 2
  stuckCells := []
  faults := .none
  opcodeLog := #[]
  frameLog := #[]
  programs := 0
  erases := 0
  reads := 0

def isBusy (c : Chip) : Bool :=
  c.stuckBusy || 0 < c.busyReads

/-- Idle and awake: the chip carries out what it is told. -/
def responsive (c : Chip) : Bool :=
  !c.poweredDown && !c.isBusy

/-- Status register 1 as it reads now. -/
def status1 (c : Chip) : UInt8 :=
  c.protectBits ||| (if c.writeEnabled then Status1.writeEnableLatch else 0) |||
    (if c.isBusy then Status1.busy else 0)

/-- Status register 2 as it reads now. -/
def status2 (c : Chip) : UInt8 :=
  if c.quadEnabled then Status2.quadEnable else 0

def clearLogs (c : Chip) : Chip :=
  { c with opcodeLog := #[], frameLog := #[] }

/-! ### Carrying out one request -/

/-- Erases the unit that holds `address`, clears the latch and starts the busy
count. -/
def eraseUnit (c : Chip) (unit address : Nat) : Chip :=
  { c with
    memory := c.memory.erase unit address c.stuckCells
    erases := c.erases + 1
    writeEnabled := false
    busyReads := c.eraseBusy }

def runCommand (c : Chip) (opcode : UInt8) : Chip :=
  if c.poweredDown then
    if Opcode.ofByte? opcode = some .releasePowerDown then
      { c with poweredDown := false }
    else
      c
  else if c.isBusy then
    c
  else
    match Opcode.ofByte? opcode with
    | some .writeEnable => { c with writeEnabled := true }
    | some .writeDisable => { c with writeEnabled := false }
    | some .chipErase =>
        if c.writeEnabled then
          let size := c.memory.size
          c.eraseUnit size 0
        else
          c
    | some .powerDown => { c with poweredDown := true }
    | _ => c

/-- The bytes in the unit that an opcode erases. -/
def unitOf? (opcode : UInt8) : Option Nat :=
  match Opcode.ofByte? opcode with
  | some .sectorErase4K => some sectorSize4K
  | some .blockErase32K => some blockSize32K
  | some .blockErase64K => some blockSize64K
  | _ => none

def runErase (c : Chip) (opcode : UInt8) (address : Nat) : Chip :=
  if c.responsive && c.writeEnabled then
    match unitOf? opcode with
    | some unit => c.eraseUnit unit address
    | none => c
  else
    c

/-- The first byte replaces the protection bits and the second the quad-enable
bit. Even a locked register uses up the latch and the busy time. -/
def runStatusWrite (c : Chip) (data : Bytes) : Chip :=
  if c.responsive && c.writeEnabled then
    let written :=
      if c.statusLocked then c
      else
        match data with
        | [] => c
        | [first] => { c with protectBits := first &&& Status1.blockProtect }
        | first :: second :: _ =>
            { c with
              protectBits := first &&& Status1.blockProtect
              quadEnabled := second &&& Status2.quadEnable != 0 }
    { written with writeEnabled := false, busyReads := written.programBusy }
  else
    c

/-- The four-line program works only with quad enabled. -/
def canProgram (c : Chip) (opcode : UInt8) : Bool :=
  match Opcode.ofByte? opcode with
  | some .pageProgram => true
  | some .quadPageProgram => c.quadEnabled
  | _ => false

def runProgram (c : Chip) (opcode : UInt8) (address : Nat) (data : Bytes) : Chip :=
  if c.responsive && c.writeEnabled && c.canProgram opcode then
    { c with
      memory := c.memory.program address data
      programs := c.programs + 1
      writeEnabled := false
      busyReads := c.programBusy }
  else
    c

/-- The four-line reads work only with quad enabled. -/
def canRead (c : Chip) (opcode : UInt8) : Bool :=
  match Opcode.ofByte? opcode with
  | some .read | some .fastRead | some .fastReadDualOutput | some .fastReadDualIo => true
  | some .fastReadQuadOutput | some .fastReadQuadIo => c.quadEnabled
  | _ => false

/-- An answer cut or padded with ones to `length` bytes. -/
def padded (answer : Bytes) (length : Nat) : Bytes :=
  answer.take length ++ List.replicate (length - answer.length) 0xFF

/-- The answer to an opcode without an address. Each read of status register 1
counts one off the busy time. -/
def runReceive (c : Chip) (opcode : UInt8) (length : Nat) : Bytes × Chip :=
  if Opcode.ofByte? opcode = some .readStatus1 ∧ c.poweredDown = false then
    let answer := c.status1
    (List.replicate length answer, { c with busyReads := c.busyReads - 1 })
  else if c.responsive then
    match Opcode.ofByte? opcode with
    | some .readStatus2 => (List.replicate length c.status2, c)
    | some .readId => (padded c.id.toBytes length, c)
    | some .readUniqueId => (padded ([0, 0, 0, 0] ++ bigEndian 8 c.uniqueId.toNat) length, c)
    | _ => (List.replicate length 0xFF, c)
  else
    (List.replicate length 0xFF, c)

def runRead (c : Chip) (opcode : UInt8) (address length : Nat) : Bytes × Chip :=
  if c.responsive && c.canRead opcode then
    let answer := c.memory.read address length
    (answer, { c with reads := c.reads + 1 })
  else
    (List.replicate length 0xFF, c)

/-- The effect of a request that reached the chip, with its answer. -/
def execute (c : Chip) (r : Request) : Bytes × Chip :=
  match r.address, r.phase with
  | none, .none => ([], c.runCommand r.opcode)
  | some address, .none => ([], c.runErase r.opcode address)
  | none, .send data =>
      ([], if Opcode.ofByte? r.opcode = some .writeStatus then c.runStatusWrite data else c)
  | some address, .send data => ([], c.runProgram r.opcode address data)
  | none, .receive length => c.runReceive r.opcode length
  | some address, .receive length => c.runRead r.opcode address length

/-! ### The three faces -/

/-- Logs the opcode and counts the faults. The flag tells whether one fires. -/
def start (c : Chip) (opcode : UInt8) : Bool × Chip :=
  let (fires, faults) := c.faults.count opcode
  (fires, { c with opcodeLog := c.opcodeLog.push opcode, faults := faults })

/-- One request put to the chip as it is. -/
def perform (c : Chip) (r : Request) : Except BusError Bytes × Chip :=
  match c.start r.opcode with
  | (true, c) => (.error .injected, c)
  | (false, c) =>
      let (answer, c) := c.execute r
      (.ok answer, c)

/-- The request that written bytes spell. An opcode alone is a command, three
more bytes are an address and all further ones data; a status write has no
address. -/
def writtenRequest? : Bytes → Option Request
  | [] => none
  | opcode :: rest =>
      if opcode = Opcode.writeStatus.byte then
        some ⟨opcode, none, .send rest⟩
      else
        match rest with
        | [] => some ⟨opcode, none, .none⟩
        | [high, middle, low] => some ⟨opcode, some (addressOf high middle low), .none⟩
        | high :: middle :: low :: data =>
            some ⟨opcode, some (addressOf high middle low), .send data⟩
        | _ => none

/-- The request that a read answers, from the bytes written before it. One byte
may follow the address. -/
def answeredRequest? (length : Nat) : Bytes → Option Request
  | [opcode] => some ⟨opcode, none, .receive length⟩
  | [opcode, high, middle, low] | [opcode, high, middle, low, _] =>
      some ⟨opcode, some (addressOf high middle low), .receive length⟩
  | _ => none

/-- The rest of a one-line transaction, after `sent` has been written and
`answers` have been read. What was written is carried out at the end unless a
read has answered it already. -/
def spiFrom (c : Chip) (sent : Bytes) (answers : List Bytes) :
    List SpiOperation → Except BusError (List Bytes) × Chip
  | [] =>
      if answers.isEmpty then
        match writtenRequest? sent with
        | some r =>
            match c.perform r with
            | (.ok _, c) => (.ok [], c)
            | (.error e, c) => (.error e, c)
        | none => (.error .unsupported, c)
      else
        (.ok answers, c)
  | .write data :: rest => c.spiFrom (sent ++ data) answers rest
  | .read length :: rest =>
      match answeredRequest? length sent with
      | some r =>
          match c.perform r with
          | (.ok answer, c) => c.spiFrom sent (answers ++ [answer]) rest
          | (.error e, c) => (.error e, c)
      | none => (.error .unsupported, c)
  | .delay _ :: rest => c.spiFrom sent answers rest
  | .transfer _ _ :: _ => (.error .unsupported, c)
  | .transferInPlace _ :: _ => (.error .unsupported, c)

/-- A whole one-line transaction, answered with the bytes of each read. -/
def performSpi (c : Chip) (operations : List SpiOperation) :
    Except BusError (List Bytes) × Chip :=
  c.spiFrom [] [] operations

/-- Whether a frame has a form that the chip knows. Data without an address is
a status write, and the two- and four-line reads need a mode byte that does not
ask for continuous read. -/
def understands (f : Frame) : DataPhase → Bool
  | .none => true
  | .send _ => f.address.isSome || Opcode.ofByte? f.opcode = some .writeStatus
  | .receive _ =>
      match Opcode.ofByte? f.opcode with
      | some .fastReadDualIo | some .fastReadQuadIo =>
          f.modeByte.any fun mode => mode &&& 0x30 != 0x20
      | _ => true

/-- One frame of a multi-line controller. -/
def performFrame (c : Chip) (f : Frame) (phase : DataPhase) : Except BusError Bytes × Chip :=
  let c := { c with frameLog := c.frameLog.push f }
  match c.start f.opcode with
  | (true, c) => (.error .injected, c)
  | (false, c) =>
      if understands f phase then
        let (answer, c) := c.execute ⟨f.opcode, f.address, phase⟩
        (.ok answer, c)
      else
        (.error .unsupported, c)

end Chip

end SerialFlash
