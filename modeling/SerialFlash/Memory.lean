import SerialFlash.Geometry
import SerialFlash.Request

/-!
The cell array of a chip. Every operation is described by what it does to
`byteAt`, the point-wise view; none changes the size.
-/

namespace SerialFlash

/-- A cell that keeps its value through every erase. -/
structure StuckCell where
  offset : Nat
  value : UInt8
  deriving DecidableEq, Repr

structure Memory where
  bytes : ByteArray

namespace Memory

def size (m : Memory) : Nat :=
  m.bytes.size

/-- The byte at an address; outside the array an erased one. -/
def byteAt (m : Memory) (i : Nat) : UInt8 :=
  if h : i < m.bytes.size then m.bytes[i] else erasedByte

/-- Stores a byte; outside the array nothing happens. -/
def set (m : Memory) (i : Nat) (b : UInt8) : Memory :=
  ⟨if h : i < m.bytes.size then m.bytes.set i b h else m.bytes⟩

theorem ext {m n : Memory} (size : m.size = n.size)
    (byteAt : ∀ i < m.size, m.byteAt i = n.byteAt i) : m = n := by
  cases m with
  | mk a =>
    cases n with
    | mk b =>
      congr 1
      refine ByteArray.ext_getElem size fun i ha hb => ?_
      have := byteAt i ha
      simpa [Memory.byteAt, ha, hb] using this

@[simp] theorem size_set (m : Memory) (i : Nat) (b : UInt8) : (m.set i b).size = m.size := by
  unfold set size
  split <;> simp [← ByteArray.size_data]

theorem byteAt_of_size_le {m : Memory} {i : Nat} (h : m.size ≤ i) : m.byteAt i = erasedByte :=
  dif_neg (Nat.not_lt.mpr h)

theorem byteAt_set (m : Memory) (i j : Nat) (b : UInt8) :
    (m.set i b).byteAt j = if j = i ∧ j < m.size then b else m.byteAt j := by
  by_cases hj : j < m.size
  · have hj' : j < m.bytes.size := hj
    by_cases hi : i < m.bytes.size
    · have hs : j < (m.bytes.set i b hi).size := by
        simpa [← ByteArray.size_data] using hj'
      simp only [byteAt, set, hi, hs, hj', dif_pos, hj, and_true]
      simp only [ByteArray.getElem_eq_getElem_data, ByteArray.data_set, Array.getElem_set]
      by_cases h : j = i
      · simp [h]
      · simp [h, Ne.symm h]
    · have : j ≠ i := by omega
      simp [byteAt, set, hi, this]
  · rw [byteAt_of_size_le (by simpa using hj), byteAt_of_size_le (by simpa using hj)]
    simp [hj]

/-! ### Whole runs of cells -/

/-- Appends `n` copies of a byte. -/
def pad (bytes : ByteArray) (b : UInt8) : Nat → ByteArray
  | 0 => bytes
  | n + 1 => pad (bytes.push b) b n

/-- An array of `n` erased cells. -/
def blank (n : Nat) : Memory :=
  ⟨pad (ByteArray.emptyWithCapacity n) erasedByte n⟩

/-- Stores one byte `n` times from `start` on. -/
def fill (m : Memory) (b : UInt8) (start : Nat) : Nat → Memory
  | 0 => m
  | n + 1 => (m.set start b).fill b (start + 1) n

/-- Stores bytes from `start` on. -/
def write (m : Memory) (start : Nat) : Bytes → Memory
  | [] => m
  | b :: bs => (m.set start b).write (start + 1) bs

/-- Reads `n` bytes from `start` on, coming round at the end of the array. -/
def read (m : Memory) (start n : Nat) : Bytes :=
  (List.range n).map fun k => m.byteAt ((start + k) % m.size)

@[simp] theorem length_read (m : Memory) (start n : Nat) : (m.read start n).length = n := by
  simp [read]

theorem data_pad (bytes : ByteArray) (b : UInt8) (n : Nat) :
    (pad bytes b n).data = bytes.data ++ Array.replicate n b := by
  induction n generalizing bytes with
  | zero => simp [pad]
  | succ n ih => simp [pad, ih, Array.replicate_succ']

theorem data_blank (n : Nat) : (blank n).bytes.data = Array.replicate n erasedByte := by
  rw [blank, data_pad]
  exact Array.empty_append

@[simp] theorem size_blank (n : Nat) : (blank n).size = n := by
  simp [size, ← ByteArray.size_data, data_blank]

@[simp] theorem byteAt_blank (n i : Nat) : (blank n).byteAt i = erasedByte := by
  unfold byteAt
  split
  · simp [ByteArray.getElem_eq_getElem_data, data_blank]
  · rfl

@[simp] theorem size_fill (m : Memory) (b : UInt8) (start n : Nat) :
    (m.fill b start n).size = m.size := by
  induction n generalizing m start with
  | zero => rfl
  | succ n ih => simp [fill, ih]

theorem byteAt_fill (m : Memory) (b : UInt8) (start n i : Nat) :
    (m.fill b start n).byteAt i =
      if start ≤ i ∧ i < start + n ∧ i < m.size then b else m.byteAt i := by
  induction n generalizing m start with
  | zero =>
    simp only [fill]
    split
    · omega
    · rfl
  | succ n ih =>
    rw [fill, ih, byteAt_set]
    grind [size_set]

@[simp] theorem size_write (m : Memory) (start : Nat) (bs : Bytes) :
    (m.write start bs).size = m.size := by
  induction bs generalizing m start with
  | nil => rfl
  | cons b bs ih => simp [write, ih]

theorem byteAt_write (m : Memory) (start i : Nat) (bs : Bytes) :
    (m.write start bs).byteAt i =
      if start ≤ i ∧ i < m.size then bs.getD (i - start) (m.byteAt i) else m.byteAt i := by
  induction bs generalizing m start with
  | nil => simp [write]
  | cons b bs ih =>
    rw [write, ih, byteAt_set, size_set]
    by_cases h : i = start
    · subst h
      have : ¬ i + 1 ≤ i := by omega
      by_cases hs : i < m.size <;> simp [hs, this]
    · by_cases hlt : start ≤ i
      · have : i - start = (i - (start + 1)) + 1 := by omega
        have hle : start + 1 ≤ i := by omega
        simp [h, this, hlt, hle]
      · have : ¬ start + 1 ≤ i := by omega
        simp [h, hlt, this]

/-! ### Programming and erasing -/

/-- Clears the bits of a cell that are zero in `mask`. -/
def clearBits (m : Memory) (i : Nat) (mask : UInt8) : Memory :=
  m.set i (m.byteAt i &&& mask)

/-- Clears bits byte by byte; past the end of its page the column comes round
to the start of the same page. -/
def programFrom (m : Memory) (page column : Nat) : Bytes → Memory
  | [] => m
  | b :: bs =>
      (m.clearBits ((page + column % pageSize) % m.size) b).programFrom page (column + 1) bs

/-- One page program at an address. -/
def program (m : Memory) (address : Nat) (data : Bytes) : Memory :=
  m.programFrom (address / pageSize * pageSize) address data

/-- Cells stuck inside `[start, stop)` take their value back, in list order. -/
def restick (m : Memory) (start stop : Nat) : List StuckCell → Memory
  | [] => m
  | c :: cs =>
      (if start ≤ c.offset ∧ c.offset < stop then m.set c.offset c.value else m).restick
        start stop cs

/-- Erases the aligned unit of `unit` bytes that holds `address`. -/
def erase (m : Memory) (unit address : Nat) (stuck : List StuckCell) : Memory :=
  let start := address / unit * unit % m.size
  let stop := min (start + unit) m.size
  (m.fill erasedByte start (stop - start)).restick start stop stuck

@[simp] theorem size_clearBits (m : Memory) (i : Nat) (mask : UInt8) :
    (m.clearBits i mask).size = m.size :=
  size_set _ _ _

@[simp] theorem size_programFrom (m : Memory) (page column : Nat) (data : Bytes) :
    (m.programFrom page column data).size = m.size := by
  induction data generalizing m column with
  | nil => rfl
  | cons b bs ih => simp [programFrom, ih]

@[simp] theorem size_program (m : Memory) (address : Nat) (data : Bytes) :
    (m.program address data).size = m.size :=
  size_programFrom _ _ _ _

@[simp] theorem size_restick (m : Memory) (start stop : Nat) (stuck : List StuckCell) :
    (m.restick start stop stuck).size = m.size := by
  induction stuck generalizing m with
  | nil => rfl
  | cons c cs ih =>
    rw [restick, ih]
    split <;> simp

@[simp] theorem size_erase (m : Memory) (unit address : Nat) (stuck : List StuckCell) :
    (m.erase unit address stuck).size = m.size := by
  simp [erase]

theorem byteAt_clearBits (m : Memory) (i j : Nat) (mask : UInt8) :
    (m.clearBits i mask).byteAt j =
      if j = i ∧ j < m.size then m.byteAt j &&& mask else m.byteAt j := by
  rw [clearBits, byteAt_set]
  split
  · next h => rw [h.1]
  · rfl

/-- Only cells of the page are programmed. -/
theorem byteAt_programFrom_of_ne {m : Memory} {page i : Nat}
    (h : ∀ k < pageSize, (page + k) % m.size ≠ i) (column : Nat) (data : Bytes) :
    (m.programFrom page column data).byteAt i = m.byteAt i := by
  induction data generalizing m column with
  | nil => rfl
  | cons b bs ih =>
    have hne := h (column % pageSize) (Nat.mod_lt _ pageSize_pos)
    rw [programFrom, ih (by simpa using h), byteAt_clearBits, if_neg fun hi => hne hi.1.symm]

/-- A cell that is not stuck inside the range keeps its value. -/
theorem byteAt_restick_of_not_stuck {stuck : List StuckCell} {i start stop : Nat}
    (h : ∀ c ∈ stuck, c.offset = i → ¬ (start ≤ i ∧ i < stop)) (m : Memory) :
    (m.restick start stop stuck).byteAt i = m.byteAt i := by
  induction stuck generalizing m with
  | nil => rfl
  | cons c cs ih =>
    rw [restick, ih fun d hd => h d (List.mem_cons_of_mem _ hd)]
    split
    · next hc =>
      rw [byteAt_set, if_neg]
      rintro ⟨rfl, _⟩
      exact h c List.mem_cons_self rfl hc
    · rfl

end Memory

end SerialFlash
