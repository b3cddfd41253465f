import SerialFlash.Checked
import SerialFlash.Proofs.Permanence

/-!
No index is ever out of range. An address comes round at the end of the array before it is used,
an erase is cut off there, and a stuck cell is only restored inside the erased range. So on an
array with any cells the strict chip carries out every transaction, and does what the chip does.
-/

namespace SerialFlash

/-! ### The array -/

namespace Memory

variable {m : Memory}

theorem index?_of_pos (pos : 0 < m.size) (address : Nat) :
    m.index? address = some (address % m.size) :=
  if_neg (Nat.ne_of_gt pos)

theorem byteAt?_mod (pos : 0 < m.size) (address : Nat) :
    m.byteAt? (address % m.size) = some (m.byteAt (address % m.size)) :=
  if_pos (Nat.mod_lt _ pos)

theorem set?_of_lt {i : Nat} (bound : i < m.size) (b : UInt8) : m.set? i b = some (m.set i b) :=
  if_pos bound

theorem read?_eq (pos : 0 < m.size) (start n : Nat) : m.read? start n = some (m.read start n) := by
  have cell (k : Nat) : (do m.byteAt? (← m.index? (start + k))) =
      some (m.byteAt ((start + k) % m.size)) := by
    rw [index?_of_pos pos]
    exact byteAt?_mod pos _
  simp only [read?, cell]
  exact List.mapM_pure

theorem programFrom?_eq (pos : 0 < m.size) (page column : Nat) (data : Bytes) :
    m.programFrom? page column data = some (m.programFrom page column data) := by
  induction data generalizing m column with
  | nil => rfl
  | cons b bs ih =>
    simp only [programFrom?, index?_of_pos pos, byteAt?_mod pos, Option.bind_eq_bind,
      Option.bind_some, set?_of_lt (Nat.mod_lt _ pos)]
    exact ih (by simpa using pos) _

theorem restick?_eq {start stop : Nat} (bound : stop ≤ m.size) (stuck : List StuckCell) :
    m.restick? start stop stuck = some (m.restick start stop stuck) := by
  induction stuck generalizing m with
  | nil => rfl
  | cons c cs ih =>
    by_cases inside : start ≤ c.offset ∧ c.offset < stop
    · have here : c.offset < m.size := Nat.lt_of_lt_of_le inside.2 bound
      simp only [restick?, restick, if_pos inside, set?_of_lt here]
      exact ih (by simpa using bound)
    · simp only [restick?, restick, if_neg inside]
      exact ih bound

theorem erase?_eq (pos : 0 < m.size) (unit address : Nat) (stuck : List StuckCell) :
    m.erase? unit address stuck = some (m.erase unit address stuck) := by
  have start : address / unit * unit % m.size < m.size := Nat.mod_lt _ pos
  have inside : address / unit * unit % m.size ≤
        min (address / unit * unit % m.size + unit) m.size ∧
      min (address / unit * unit % m.size + unit) m.size ≤ m.size := by omega
  simp only [erase?, index?_of_pos pos, fill?, Option.bind_eq_bind, Option.bind_some,
    if_pos inside]
  exact restick?_eq (by rw [size_fill]; exact inside.2) stuck

end Memory

/-! ### The chip -/

namespace Chip

variable {c : Chip}

theorem eraseUnit?_eq (pos : 0 < c.memory.size) (unit address : Nat) :
    c.eraseUnit? unit address = some (c.eraseUnit unit address) := by
  simp only [eraseUnit?, Memory.erase?_eq pos, Option.bind_eq_bind, Option.bind_some]
  rfl

theorem runCommand?_eq (pos : 0 < c.memory.size) (opcode : UInt8) :
    c.runCommand? opcode = some (c.runCommand opcode) := by
  unfold runCommand? runCommand
  simp only [eraseUnit?_eq pos]
  split
  · split <;> rfl
  · split
    · rfl
    · rcases Opcode.ofByte? opcode with _ | op
      · rfl
      · cases op <;> first | rfl | exact (apply_ite some _ _ _).symm

theorem runErase?_eq (pos : 0 < c.memory.size) (opcode : UInt8) (address : Nat) :
    c.runErase? opcode address = some (c.runErase opcode address) := by
  unfold runErase? runErase
  split
  · cases unitOf? opcode with
    | some unit => exact eraseUnit?_eq pos unit address
    | none => rfl
  · rfl

theorem runProgram?_eq (pos : 0 < c.memory.size) (opcode : UInt8) (address : Nat) (data : Bytes) :
    c.runProgram? opcode address data = some (c.runProgram opcode address data) := by
  unfold runProgram? runProgram
  split
  · simp only [Memory.program?, Memory.programFrom?_eq pos, Option.bind_eq_bind, Option.bind_some]
    rfl
  · rfl

theorem runRead?_eq (pos : 0 < c.memory.size) (opcode : UInt8) (address length : Nat) :
    c.runRead? opcode address length = some (c.runRead opcode address length) := by
  unfold runRead? runRead
  split
  · rw [Memory.read?_eq pos]
    rfl
  · rfl

theorem execute?_eq (pos : 0 < c.memory.size) (r : Request) :
    c.execute? r = some (c.execute r) := by
  obtain ⟨opcode, _ | address, _ | data | length⟩ := r
  · simp only [execute?, execute, runCommand?_eq pos]
    rfl
  · rfl
  · rfl
  · simp only [execute?, execute, runErase?_eq pos]
    rfl
  · simp only [execute?, execute, runProgram?_eq pos]
    rfl
  · exact runRead?_eq pos _ _ _

theorem perform?_eq (pos : 0 < c.memory.size) (r : Request) :
    c.perform? r = some (c.perform r) := by
  have pos' : 0 < (c.start r.opcode).2.memory.size := pos
  unfold perform? perform
  rcases started : c.start r.opcode with ⟨_ | _, c'⟩
  · rw [started] at pos'
    simp only [execute?_eq pos', Option.bind_eq_bind, Option.bind_some]
    rfl
  · rfl

theorem spiFrom?_eq (pos : 0 < c.memory.size) (sent : Bytes) (answers : List Bytes)
    (operations : List SpiOperation) :
    c.spiFrom? sent answers operations = some (c.spiFrom sent answers operations) := by
  induction operations generalizing c sent answers with
  | nil =>
    simp only [spiFrom?, spiFrom]
    split
    · cases writtenRequest? sent with
      | none => rfl
      | some r =>
        simp only [perform?_eq pos, Option.bind_eq_bind, Option.bind_some]
        rcases c.perform r with ⟨_ | _, _⟩ <;> rfl
    · rfl
  | cons operation rest ih =>
    cases operation with
    | write data => exact ih pos _ _
    | read length =>
      simp only [spiFrom?, spiFrom]
      cases answeredRequest? length sent with
      | none => rfl
      | some r =>
        have pos' : 0 < (c.perform r).2.memory.size := by
          rwa [(c.heard_perform r).endures.size]
        simp only [perform?_eq pos, Option.bind_eq_bind, Option.bind_some]
        rcases performed : c.perform r with ⟨_ | _, c'⟩
        · rfl
        · rw [performed] at pos'
          exact ih pos' _ _
    | delay nanoseconds => exact ih pos _ _
    | transfer length data | transferInPlace data => rfl

theorem performFrame?_eq (pos : 0 < c.memory.size) (f : Frame) (phase : DataPhase) :
    c.performFrame? f phase = some (c.performFrame f phase) := by
  have pos' : 0 < (({ c with frameLog := c.frameLog.push f } : Chip).start
    f.opcode).2.memory.size := pos
  rcases started : ({ c with frameLog := c.frameLog.push f } : Chip).start f.opcode with ⟨_ | _, c'⟩
  · rw [started] at pos'
    simp only [performFrame?, performFrame, started, execute?_eq pos', Option.bind_eq_bind,
      Option.bind_some]
    split <;> rfl
  · simp only [performFrame?, performFrame, started]

/-- The strict chip carries out every transaction. -/
theorem transact?_eq (pos : 0 < c.memory.size) (t : Transaction) :
    c.transact? t = some (c.transact t) := by
  cases t with
  | request r =>
    simp only [transact?, perform?_eq pos]
    rfl
  | spi operations => exact spiFrom?_eq pos [] [] operations
  | frame f phase =>
    simp only [transact?, performFrame?_eq pos]
    rfl

end Chip

end SerialFlash
