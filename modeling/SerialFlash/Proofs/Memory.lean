import SerialFlash.Memory
import SerialFlash.Pages
import SerialFlash.Word32

/-!
Programming and erasing over whole runs of cells. A page program wraps inside its
page and an erase clips its unit to the array; data that stays in its page, and
units that divide the array, never see either. What is left is said by three
relations between the cells before and after: a run of bytes stored, a run
programmed, a run erased. Each is a statement about every cell, so it also says
which cells are left alone.
-/

namespace SerialFlash.Memory

variable {m m₁ m₂ : Memory} {stuck : List StuckCell} {i : Nat}

/-- What a cell holds after an erase. Of several values that one cell is stuck
at, the one listed last counts. -/
def afterErase (stuck : List StuckCell) (i : Nat) : UInt8 :=
  stuck.foldl (fun value c => if c.offset = i then c.value else value) erasedByte

/-- The cells from `offset` on hold `data`, and all others are as before. -/
def StoresTo (m : Memory) (offset : Nat) (data : Bytes) (m' : Memory) : Prop :=
  m'.size = m.size ∧ ∀ i, m'.byteAt i =
    if offset ≤ i ∧ i < offset + data.length then data.getD (i - offset) 0 else m.byteAt i

/-- In the cells from `offset` on the bits that are zero in `data` are cleared,
and all other cells are as before. -/
def ProgramsTo (m : Memory) (offset : Nat) (data : Bytes) (m' : Memory) : Prop :=
  m'.size = m.size ∧ ∀ i, m'.byteAt i =
    if offset ≤ i ∧ i < offset + data.length then m.byteAt i &&& data.getD (i - offset) 0
    else m.byteAt i

/-- The cells of `[start, stop)` are erased, and all others are as before. -/
def ErasesTo (m : Memory) (stuck : List StuckCell) (start stop : Nat) (m' : Memory) : Prop :=
  m'.size = m.size ∧ ∀ i, m'.byteAt i =
    if start ≤ i ∧ i < stop then afterErase stuck i else m.byteAt i

/-- The cells of `length` addresses from `offset` on are erased, or stuck at something else,
and all others are as before. -/
def BlanksTo (m : Memory) (stuck : List StuckCell) (offset length : Nat) (m' : Memory) : Prop :=
  m'.size = m.size ∧ ∀ i,
    if offset ≤ i ∧ i < offset + length then
      m'.byteAt i = erasedByte ∨ ∃ c ∈ stuck, c.offset = i ∧ c.value = m'.byteAt i
    else m'.byteAt i = m.byteAt i

/-- A sector whose replacement has failed is partly cleared, in whole flash sectors, or cleared
as a whole and then partly written, in whole pages. -/
def PartlyReplaced (m : Memory) (stuck : List StuckCell) (flashSector offset : Nat) (data : Bytes)
    (m' : Memory) : Prop :=
  (∃ k, k * flashSector ≤ data.length ∧ m.BlanksTo stuck offset (k * flashSector) m') ∨
    ∃ k, k * pageSize ≤ data.length ∧ m.StoresTo offset (data.take (k * pageSize) ++
      List.replicate (data.length - k * pageSize) erasedByte) m'

/-- The cells of `length` addresses from `offset` on. -/
def slice (m : Memory) (offset length : Nat) : Bytes :=
  (List.range length).map fun k => m.byteAt (offset + k)

/-! ### Slices -/

@[simp] theorem length_slice (m : Memory) (offset length : Nat) :
    (m.slice offset length).length = length := by
  simp [slice]

@[simp] theorem slice_zero (m : Memory) (offset : Nat) : m.slice offset 0 = [] := rfl

theorem slice_add (m : Memory) (offset a b : Nat) :
    m.slice offset (a + b) = m.slice offset a ++ m.slice (offset + a) b := by
  simp only [slice, List.range_add, List.map_append, List.map_map]
  congr 2
  funext k
  simp [Nat.add_assoc]

/-- A read that ends inside the array does not come round. -/
theorem read_eq_slice {offset length : Nat} (bound : offset + length ≤ m.size) :
    m.read offset length = m.slice offset length := by
  refine List.map_congr_left fun k hk => ?_
  rw [Nat.mod_eq_of_lt (by have := List.mem_range.mp hk; omega)]

theorem slice_eq_replicate_iff {offset length : Nat} {b : UInt8} :
    m.slice offset length = List.replicate length b ↔
      ∀ i, offset ≤ i → i < offset + length → m.byteAt i = b := by
  rw [List.eq_replicate_iff, and_iff_right (length_slice m offset length)]
  simp only [slice, List.mem_map, List.mem_range]
  constructor
  · intro h i le lt
    exact h _ ⟨i - offset, by omega, by rw [Nat.add_sub_cancel' le]⟩
  · intro h _ ended
    obtain ⟨k, lt, rfl⟩ := ended
    exact h _ (Nat.le_add_right _ _) (by omega)

theorem slice_congr {m' : Memory} {offset length : Nat}
    (same : ∀ i, offset ≤ i → i < offset + length → m'.byteAt i = m.byteAt i) :
    m'.slice offset length = m.slice offset length :=
  List.map_congr_left fun _ hk =>
    same _ (Nat.le_add_right _ _) (Nat.add_lt_add_left (List.mem_range.mp hk) _)

theorem StoresTo.slice_eq {offset : Nat} {data : Bytes} (stored : m.StoresTo offset data m₁) :
    m₁.slice offset data.length = data := by
  refine List.ext_getElem (length_slice _ _ _) fun k _ bound => ?_
  simp [slice, stored.2, bound]

/-! ### Putting runs together -/

/-- Units that follow one another make up a run of cells. -/
theorem exists_unit_iff {first last size : Nat} (pos : 0 < size) :
    (∃ n, (first ≤ n ∧ n < last) ∧ n * size ≤ i ∧ i < n * size + size) ↔
      first * size ≤ i ∧ i < last * size := by
  constructor
  · rintro ⟨n, ⟨from_first, before_last⟩, le, lt⟩
    have start : first * size ≤ n * size := Nat.mul_le_mul_right _ from_first
    have stop : (n + 1) * size ≤ last * size := Nat.mul_le_mul_right _ before_last
    rw [Nat.succ_mul] at stop
    exact ⟨by omega, by omega⟩
  · rintro ⟨le, lt⟩
    exact ⟨i / size, ⟨(Nat.le_div_iff_mul_le pos).mpr le, (Nat.div_lt_iff_lt_mul pos).mpr lt⟩,
      Nat.div_mul_le_self i size, Nat.lt_div_mul_add pos⟩

theorem StoresTo.nil (m : Memory) (offset : Nat) : m.StoresTo offset [] m :=
  ⟨rfl, fun i => by rw [if_neg (by simp)]⟩

theorem ProgramsTo.nil (m : Memory) (offset : Nat) : m.ProgramsTo offset [] m :=
  ⟨rfl, fun i => by rw [if_neg (by simp)]⟩

theorem ErasesTo.empty (m : Memory) (stuck : List StuckCell) {start stop : Nat}
    (h : stop ≤ start) : m.ErasesTo stuck start stop m :=
  ⟨rfl, fun i => by rw [if_neg (by omega)]⟩

theorem StoresTo.append {offset : Nat} {xs ys : Bytes} (first : m.StoresTo offset xs m₁)
    (rest : m₁.StoresTo (offset + xs.length) ys m₂) : m.StoresTo offset (xs ++ ys) m₂ := by
  refine ⟨rest.1.trans first.1, fun i => ?_⟩
  rw [rest.2, first.2]
  grind

theorem ProgramsTo.append {offset : Nat} {xs ys : Bytes} (first : m.ProgramsTo offset xs m₁)
    (rest : m₁.ProgramsTo (offset + xs.length) ys m₂) : m.ProgramsTo offset (xs ++ ys) m₂ := by
  refine ⟨rest.1.trans first.1, fun i => ?_⟩
  rw [rest.2, first.2]
  grind

theorem ErasesTo.append {start middle stop : Nat} (first : m.ErasesTo stuck start middle m₁)
    (rest : m₁.ErasesTo stuck middle stop m₂) (le : start ≤ middle) (le' : middle ≤ stop) :
    m.ErasesTo stuck start stop m₂ := by
  refine ⟨rest.1.trans first.1, fun i => ?_⟩
  rw [rest.2, first.2]
  grind

/-- Programming the front of a run of erased cells stores the data there. -/
theorem StoresTo.program_front {offset n : Nat} {data : Bytes}
    (erased : m.StoresTo offset (List.replicate n erasedByte) m₁) (le : data.length ≤ n)
    (programmed : m₁.ProgramsTo offset data m₂) :
    m.StoresTo offset (data ++ List.replicate (n - data.length) erasedByte) m₂ := by
  have clean (k : Nat) (lt : k < n) : (List.replicate n erasedByte).getD k 0 = 0xFF := by
    simp [List.getD_eq_getElem?_getD, lt, erasedByte]
  refine ⟨programmed.1.trans erased.1, fun i => ?_⟩
  rw [programmed.2, erased.2, List.length_append, List.length_replicate, List.length_replicate,
    Nat.add_sub_cancel' le]
  by_cases inside : offset ≤ i ∧ i < offset + n
  · rw [if_pos inside, if_pos inside, clean _ (by omega)]
    by_cases front : i < offset + data.length
    · rw [if_pos ⟨inside.1, front⟩, List.getD_eq_getElem?_getD, List.getD_eq_getElem?_getD,
        List.getElem?_append_left (by omega)]
      exact UInt8.neg_one_and
    · rw [if_neg (by omega), List.getD_eq_getElem?_getD, List.getElem?_append_right (by omega)]
      simp [show i - offset - data.length < n - data.length by omega, erasedByte]
  · rw [if_neg inside, if_neg inside, if_neg (by omega)]

/-- Programming a run of erased cells stores the data. -/
theorem StoresTo.program {offset : Nat} {data : Bytes}
    (erased : m.StoresTo offset (List.replicate data.length erasedByte) m₁)
    (programmed : m₁.ProgramsTo offset data m₂) : m.StoresTo offset data m₂ := by
  simpa using erased.program_front (Nat.le_refl _) programmed

/-! ### One page program -/

theorem byteAt_programFrom {page column : Nat} {data : Bytes}
    (room : column % pageSize + data.length ≤ pageSize)
    (bound : page + column % pageSize + data.length ≤ m.size) :
    (m.programFrom page column data).byteAt i =
      if page + column % pageSize ≤ i ∧ i < page + column % pageSize + data.length then
        m.byteAt i &&& data.getD (i - (page + column % pageSize)) 0
      else m.byteAt i := by
  induction data generalizing m column with
  | nil => rw [if_neg (by simp)]; rfl
  | cons b bs ih =>
    simp only [List.length_cons] at room bound
    have here : (page + column % pageSize) % m.size = page + column % pageSize :=
      Nat.mod_eq_of_lt (by omega)
    cases bs with
    | nil =>
      rw [programFrom, programFrom, here, byteAt_clearBits]
      by_cases h : i = page + column % pageSize
      · subst h
        simp [show page + column % pageSize < m.size by omega]
      · rw [if_neg (by simp [h]), if_neg (by simp; omega)]
    | cons b' bs =>
      -- the next column is still in the page, so it does not come round
      have next : (column + 1) % pageSize = column % pageSize + 1 := by
        simp only [List.length_cons, pageSize] at room ⊢
        omega
      rw [programFrom, here, ih (by rw [next]; omega) (by rw [next, size_clearBits]; omega),
        byteAt_clearBits, next, ← Nat.add_assoc]
      by_cases first : i = page + column % pageSize
      · subst first
        have bound : page + column % pageSize < m.size := by omega
        rw [if_neg (by omega), if_pos ⟨rfl, bound⟩, if_pos ⟨Nat.le_refl _, by simp⟩, Nat.sub_self]
        rfl
      · by_cases later : page + column % pageSize + 1 ≤ i ∧
            i < page + column % pageSize + 1 + (b' :: bs).length
        · have shift : i - (page + column % pageSize) =
              i - (page + column % pageSize + 1) + 1 := by omega
          rw [if_pos later, if_neg fun h => first h.1,
            if_pos (by simp only [List.length_cons] at later ⊢; omega), shift, List.getD_cons_succ]
        · rw [if_neg later, if_neg fun h => first h.1,
            if_neg (by simp only [List.length_cons] at later ⊢; omega)]

/-- Data that does not leave its page is programmed where it is put. -/
theorem program_programsTo {address : Nat} {data : Bytes}
    (room : address % pageSize + data.length ≤ pageSize)
    (bound : address + data.length ≤ m.size) :
    m.ProgramsTo address data (m.program address data) := by
  have start : address / pageSize * pageSize + address % pageSize = address :=
    Nat.div_add_mod' address pageSize
  refine ⟨size_program _ _ _, fun i => ?_⟩
  rw [program, byteAt_programFrom room (by rwa [start]), start]

/-! ### One erase -/

theorem byteAt_restick {start stop : Nat} (inside : start ≤ i ∧ i < stop) (bound : i < m.size)
    (stuck : List StuckCell) :
    (m.restick start stop stuck).byteAt i =
      stuck.foldl (fun value c => if c.offset = i then c.value else value) (m.byteAt i) := by
  induction stuck generalizing m with
  | nil => rfl
  | cons c cs ih =>
    rw [restick, List.foldl_cons]
    by_cases h : c.offset = i
    · subst h
      rw [if_pos inside, ih (by rwa [size_set]), byteAt_set, if_pos ⟨rfl, bound⟩, if_pos rfl]
    · rw [if_neg h]
      split
      · rw [ih (by rwa [size_set]), byteAt_set, if_neg fun hi => h hi.1.symm]
      · exact ih bound

/-- A unit that divides the array is erased from its start to its end. -/
theorem erase_erasesTo {unit address : Nat} (divides : unit ∣ m.size) (bound : address < m.size)
    (stuck : List StuckCell) :
    m.ErasesTo stuck (address / unit * unit) (address / unit * unit + unit)
      (m.erase unit address stuck) := by
  obtain ⟨units, size⟩ := divides
  have pos : 0 < unit := Nat.pos_of_mul_pos_right (by omega : 0 < unit * units)
  -- the array ends with a unit, so the one that holds the address is whole
  have last : address / unit + 1 ≤ units := Nat.div_lt_of_lt_mul (by omega)
  have fits : address / unit * unit + unit ≤ m.size := by
    calc address / unit * unit + unit = unit * (address / unit + 1) := by
          rw [Nat.mul_add, Nat.mul_one, Nat.mul_comm]
      _ ≤ m.size := size ▸ Nat.mul_le_mul_left _ last
  have start : address / unit * unit % m.size = address / unit * unit :=
    Nat.mod_eq_of_lt (by omega)
  refine ⟨size_erase _ _ _ _, fun i => ?_⟩
  simp only [erase, start, Nat.min_eq_left fits, Nat.add_sub_cancel_left]
  split
  · next inside =>
    have bound : i < m.size := by omega
    rw [byteAt_restick inside (by rwa [size_fill]), byteAt_fill, if_pos ⟨inside.1, inside.2, bound⟩]
    rfl
  · next outside =>
    rw [byteAt_restick_of_not_stuck fun _ _ _ => outside, byteAt_fill,
      if_neg fun h => outside ⟨h.1, h.2.1⟩]

/-- Without stuck cells an erased unit reads as ones. -/
theorem slice_erase {unit address : Nat} (divides : unit ∣ m.size) (aligned : unit ∣ address)
    (bound : address < m.size) :
    (m.erase unit address []).slice address unit = List.replicate unit erasedByte := by
  refine slice_eq_replicate_iff.mpr fun i le lt => ?_
  rw [(erase_erasesTo divides bound []).2, Nat.div_mul_cancel aligned, if_pos ⟨le, lt⟩]
  rfl

/-- What has been programmed without its first bytes has been programmed if those would have
changed nothing. -/
theorem ProgramsTo.iff_of_drop {offset n : Nat} {data : Bytes}
    (h : m.ProgramsTo (offset + n) (data.drop n) m₁) :
    m.ProgramsTo offset data m₁ ↔ m.ProgramsTo offset (data.take n) m := by
  -- outside the first `n` bytes the two sides say the same
  have cell (i : Nat) : (m₁.byteAt i = if offset ≤ i ∧ i < offset + data.length then
        m.byteAt i &&& data.getD (i - offset) 0 else m.byteAt i) ↔
      (m.byteAt i = if offset ≤ i ∧ i < offset + (data.take n).length then
        m.byteAt i &&& (data.take n).getD (i - offset) 0 else m.byteAt i) := by
    rw [h.2]
    simp only [List.length_take, List.length_drop, List.getD_eq_getElem?_getD, List.getElem?_take,
      List.getElem?_drop]
    grind
  exact ⟨fun whole => ⟨rfl, fun i => (cell i).mp (whole.2 i)⟩,
    fun needless => ⟨h.1, fun i => (cell i).mpr (needless.2 i)⟩⟩

/-- What has been erased but for its start has been erased if that was so already. -/
theorem ErasesTo.iff_of_lost {start n stop : Nat} (h : m.ErasesTo stuck (start + n) stop m₁) :
    m.ErasesTo stuck start stop m₁ ↔ m.ErasesTo stuck start (min (start + n) stop) m := by
  have cell (i : Nat) : (m₁.byteAt i = if start ≤ i ∧ i < stop then afterErase stuck i
        else m.byteAt i) ↔
      (m.byteAt i = if start ≤ i ∧ i < min (start + n) stop then afterErase stuck i
        else m.byteAt i) := by
    rw [h.2]
    grind
  exact ⟨fun whole => ⟨rfl, fun i => (cell i).mp (whole.2 i)⟩,
    fun needless => ⟨h.1, fun i => (cell i).mpr (needless.2 i)⟩⟩

/-- An erase that may have been lost, and then the rest of a run. -/
theorem ErasesTo.cons {unit address stop : Nat} {lost : Bool} (divides : unit ∣ m.size)
    (aligned : unit ∣ address) (bound : address < m.size)
    (first : m₁ = if lost then m else m.erase unit address stuck)
    (rest : m₁.ErasesTo stuck (address + unit) stop m₂) (le : address + unit ≤ stop) :
    m.ErasesTo stuck (if lost then address + unit else address) stop m₂ := by
  cases lost with
  | true =>
    rw [if_pos rfl] at first ⊢
    rwa [first] at rest
  | false =>
    rw [if_neg Bool.false_ne_true] at first ⊢
    have erased := erase_erasesTo divides bound stuck
    rw [Nat.div_mul_cancel aligned, ← first] at erased
    exact erased.append rest (Nat.le_add_right _ _) le

/-- An erase that may have been lost, but whose unit has been found erased. -/
theorem StoresTo.of_erase {unit address : Nat} {lost : Bool} (divides : unit ∣ m.size)
    (aligned : unit ∣ address) (bound : address < m.size)
    (first : m₁ = if lost then m else m.erase unit address stuck)
    (clean : m₁.slice address unit = List.replicate unit erasedByte) :
    m.StoresTo address (List.replicate unit erasedByte) m₁ := by
  have erased : m.ErasesTo stuck (if lost then address + unit else address) (address + unit) m₁ :=
    .cons divides aligned bound first (.empty _ _ (Nat.le_refl _)) (Nat.le_refl _)
  refine ⟨erased.1, fun i => ?_⟩
  rw [List.length_replicate]
  split
  · next inside =>
    rw [slice_eq_replicate_iff.mp clean i inside.1 inside.2]
    simp [List.getD_eq_getElem?_getD, show i - address < unit by omega]
  · next outside =>
    rw [erased.2, if_neg]
    split <;> omega

/-! ### Erases that may fail -/

/-- An erased cell holds ones, or a value that it is stuck at. -/
theorem afterErase_cases (stuck : List StuckCell) (i : Nat) :
    afterErase stuck i = erasedByte ∨ ∃ c ∈ stuck, c.offset = i ∧ c.value = afterErase stuck i := by
  have fold (value : UInt8) :
      stuck.foldl (fun value c => if c.offset = i then c.value else value) value = value ∨
        ∃ c ∈ stuck, c.offset = i ∧
          c.value = stuck.foldl (fun value c => if c.offset = i then c.value else value) value := by
    induction stuck generalizing value with
    | nil => exact .inl rfl
    | cons c rest ih =>
      rw [List.foldl_cons]
      split
      · next here =>
        rcases ih c.value with same | ⟨c', mem, at', same⟩
        · exact .inr ⟨c, List.mem_cons_self, here, same.symm⟩
        · exact .inr ⟨c', List.mem_cons_of_mem _ mem, at', same⟩
      · rcases ih value with same | ⟨c', mem, at', same⟩
        · exact .inl same
        · exact .inr ⟨c', List.mem_cons_of_mem _ mem, at', same⟩
  exact fold erasedByte

theorem BlanksTo.of_eq (stuck : List StuckCell) (offset : Nat) (same : m₁ = m) :
    m.BlanksTo stuck offset 0 m₁ :=
  ⟨by rw [same], fun i => by rw [if_neg (by omega), same]⟩

theorem BlanksTo.append {offset a b : Nat} (first : m.BlanksTo stuck offset a m₁)
    (rest : m₁.BlanksTo stuck (offset + a) b m₂) : m.BlanksTo stuck offset (a + b) m₂ := by
  refine ⟨rest.1.trans first.1, fun i => ?_⟩
  have here := first.2 i
  have there := rest.2 i
  grind

theorem StoresTo.blanksTo {offset n : Nat} (stuck : List StuckCell)
    (erased : m.StoresTo offset (List.replicate n erasedByte) m₁) :
    m.BlanksTo stuck offset n m₁ := by
  refine ⟨erased.1, fun i => ?_⟩
  have cell := erased.2 i
  rw [List.length_replicate] at cell
  split at cell
  · next inside =>
    rw [if_pos inside, cell]
    simp [List.getD_eq_getElem?_getD, show i - offset < n by omega]
  · next outside =>
    rw [if_neg outside, cell]

theorem ErasesTo.blanksTo {offset length : Nat}
    (erased : m.ErasesTo stuck offset (offset + length) m₁) :
    m.BlanksTo stuck offset length m₁ := by
  refine ⟨erased.1, fun i => ?_⟩
  rw [erased.2]
  split
  · exact afterErase_cases stuck i
  · rfl

/-- An erase that may have been lost has cleared its unit, or nothing. -/
theorem BlanksTo.of_erase {unit address : Nat} {lost : Bool} (divides : unit ∣ m.size)
    (aligned : unit ∣ address) (bound : address < m.size)
    (first : m₁ = if lost then m else m.erase unit address stuck) :
    m.BlanksTo stuck address (if lost then 0 else unit) m₁ := by
  cases lost with
  | true => exact .of_eq stuck address first
  | false =>
    rw [if_neg Bool.false_ne_true] at first ⊢
    have erased := erase_erasesTo divides bound stuck
    rw [Nat.div_mul_cancel aligned, ← first] at erased
    exact erased.blanksTo

theorem PartlyReplaced.of_programmed {flashSector offset k : Nat} {data : Bytes}
    (pages : pageSize ∣ data.length)
    (erased : m.StoresTo offset (List.replicate data.length erasedByte) m₁)
    (programmed : m₁.ProgramsTo offset (data.take (k * pageSize)) m₂) :
    m.PartlyReplaced stuck flashSector offset data m₂ := by
  have front := erased.program_front (List.length_take_le' _ _) programmed
  by_cases le : k * pageSize ≤ data.length
  · rw [List.length_take_of_le le] at front
    exact .inr ⟨k, le, front⟩
  · -- past the end there are no more pages than the data has
    rw [List.take_of_length_le (by omega)] at front
    refine .inr ⟨data.length / pageSize, Nat.div_mul_le_self _ _, ?_⟩
    rwa [Nat.div_mul_cancel pages, List.take_length]

/-- However a replacement has failed, the cells around the sector are as before. -/
theorem PartlyReplaced.elsewhere {flashSector offset : Nat} {data : Bytes}
    (h : m.PartlyReplaced stuck flashSector offset data m₁) :
    m₁.size = m.size ∧
      ∀ i, ¬ (offset ≤ i ∧ i < offset + data.length) → m₁.byteAt i = m.byteAt i := by
  rcases h with ⟨k, le, size, cells⟩ | ⟨k, le, size, cells⟩
  · refine ⟨size, fun i away => ?_⟩
    have cell := cells i
    rwa [if_neg (by omega)] at cell
  · refine ⟨size, fun i away => ?_⟩
    rw [cells, List.length_append, List.length_replicate, List.length_take_of_le le,
      Nat.add_sub_cancel' le, if_neg away]

/-! ### The pieces of a program -/

/-- Programs one piece after the other. -/
def programPieces (m : Memory) (pieces : List Piece) : Memory :=
  pieces.foldl (fun m p => m.program p.address p.data) m

end Memory

/-- A page program that neither leaves its page nor the device of `size` bytes. -/
structure Piece.Fits (size : Nat) (p : Piece) : Prop where
  data_ne_nil : p.data ≠ []
  room : p.address % pageSize + p.data.length ≤ pageSize
  bound : p.address + p.data.length ≤ size

theorem length_take_pageRoom_le (address : Nat) (data : Bytes) :
    address % pageSize + (data.take (pageRoom address)).length ≤ pageSize := by
  have := Nat.mod_lt address pageSize_pos
  rw [List.length_take]
  unfold pageRoom
  omega

/-- Behind the first piece comes the splitting of what is left. -/
theorem splitPages_of_ne_nil {offset : Nat} {data : Bytes} (h : data ≠ [])
    (bound : offset + data.length < Word32.limit) :
    splitPages offset data =
      ⟨offset, data.take (pageRoom offset)⟩ ::
        splitPages (offset + (data.take (pageRoom offset)).length)
          (data.drop (pageRoom offset)) := by
  obtain ⟨b, bs, rfl⟩ := List.exists_cons_of_ne_nil h
  rw [splitPages_cons, Word32.satAdd_of_lt]
  have := List.length_take_le' (pageRoom offset) (b :: bs)
  omega

/-- The first pieces of data on whole pages are the pieces of the first pages. -/
theorem take_splitPages {offset : Nat} {data : Bytes} (aligned : pageSize ∣ offset)
    (bound : offset + data.length < Word32.limit) (k : Nat) :
    (splitPages offset data).take k = splitPages offset (data.take (k * pageSize)) := by
  induction k generalizing offset data with
  | zero => simp
  | succ k ih =>
    by_cases empty : data = []
    · simp [empty]
    · have room : pageRoom offset = pageSize := by
        rw [pageRoom, Nat.mod_eq_zero_of_dvd aligned, Nat.sub_zero]
      have some_pages : data.take ((k + 1) * pageSize) ≠ [] := by
        have pos : (k + 1) * pageSize ≠ 0 := Nat.ne_of_gt (Nat.mul_pos k.succ_pos pageSize_pos)
        simp [empty, pos]
      have front : (data.take ((k + 1) * pageSize)).take pageSize = data.take pageSize := by
        rw [List.take_take, Nat.min_eq_left (Nat.le_mul_of_pos_left _ k.succ_pos)]
      have back : (data.take ((k + 1) * pageSize)).drop pageSize =
          (data.drop pageSize).take (k * pageSize) := by
        rw [List.drop_take, Nat.succ_mul, Nat.add_sub_cancel]
      rw [splitPages_of_ne_nil empty bound, splitPages_of_ne_nil some_pages
        (by simp only [List.length_take]; omega), room, List.take_succ_cons, front, back]
      congr 1
      by_cases short : data.length ≤ pageSize
      · simp [List.drop_eq_nil_of_le short]
      · have full : (data.take pageSize).length = pageSize := by
          rw [List.length_take]
          omega
        rw [full]
        refine ih (Nat.dvd_add aligned (Nat.dvd_refl _)) ?_
        rw [List.length_drop]
        omega

theorem isEmpty_splitPages (offset : Nat) (data : Bytes) :
    (splitPages offset data).isEmpty = data.isEmpty := by
  cases data with
  | nil => rw [splitPages_nil]; rfl
  | cons b bs => rw [splitPages_cons]; rfl

theorem fits_of_mem_splitPages {size offset : Nat} {data : Bytes} {p : Piece}
    (bound : offset + data.length ≤ size) (word : size < Word32.limit)
    (mem : p ∈ splitPages offset data) : p.Fits size := by
  induction h : data.length using Nat.strongRecOn generalizing offset data with
  | ind n ih =>
    by_cases empty : data = []
    · simp [empty] at mem
    · have room := pageRoom_pos offset
      have some_left := List.length_pos_iff.mpr empty
      rw [splitPages_of_ne_nil empty (by omega)] at mem
      rcases List.mem_cons.mp mem with rfl | mem
      · refine ⟨?_, length_take_pageRoom_le offset data, ?_⟩
        · simp [empty, Nat.ne_of_gt room]
        · simp only [List.length_take]
          omega
      · refine ih _ ?_ ?_ mem rfl
        · simp only [List.length_drop]
          omega
        · simp only [List.length_take, List.length_drop]
          omega

namespace Memory

/-- The pieces of data cut at page boundaries together program the data. -/
theorem programPieces_splitPages {m : Memory} {offset : Nat} {data : Bytes}
    (bound : offset + data.length ≤ m.size) (word : m.size < Word32.limit) :
    m.ProgramsTo offset data (m.programPieces (splitPages offset data)) := by
  induction h : data.length using Nat.strongRecOn generalizing m offset data with
  | ind n ih =>
    by_cases empty : data = []
    · subst empty
      rw [splitPages_nil]
      exact .nil m offset
    · have room := pageRoom_pos offset
      have some_left := List.length_pos_iff.mpr empty
      rw [splitPages_of_ne_nil empty (by omega)]
      have first : m.ProgramsTo offset (data.take (pageRoom offset))
          (m.program offset (data.take (pageRoom offset))) :=
        program_programsTo (length_take_pageRoom_le offset data)
          (by simp only [List.length_take]; omega)
      -- the rest starts on the page behind, and is cut there as if it were alone
      have rest (m' : Memory) (size : m'.size = m.size) :
          m'.ProgramsTo (offset + (data.take (pageRoom offset)).length)
            (data.drop (pageRoom offset)) (m'.programPieces (splitPages
              (offset + (data.take (pageRoom offset)).length) (data.drop (pageRoom offset)))) := by
        refine ih _ ?_ ?_ (by rwa [size]) rfl
        · simp only [List.length_drop]
          omega
        · simp only [List.length_take, List.length_drop]
          omega
      simpa [programPieces] using first.append (rest _ (size_program _ _ _))

/-- The first pieces of data on whole pages program the first pages of it. -/
theorem programPieces_take_splitPages {m : Memory} {offset : Nat} {data : Bytes}
    (aligned : pageSize ∣ offset) (bound : offset + data.length ≤ m.size)
    (word : m.size < Word32.limit) (k : Nat) :
    m.ProgramsTo offset (data.take (k * pageSize))
      (m.programPieces ((splitPages offset data).take k)) := by
  rw [take_splitPages aligned (by omega)]
  refine programPieces_splitPages ?_ word
  rw [List.length_take]
  omega

/-- Without the first piece, the data is programmed from the next page on. -/
theorem programPieces_tail_splitPages {m : Memory} {offset : Nat} {data : Bytes}
    (bound : offset + data.length ≤ m.size) (word : m.size < Word32.limit) :
    m.ProgramsTo (offset + pageRoom offset) (data.drop (pageRoom offset))
      (m.programPieces (splitPages offset data).tail) := by
  by_cases short : data.length ≤ pageRoom offset
  · -- all of the data is in the first piece
    rw [List.drop_eq_nil_of_le short]
    have none_left : (splitPages offset data).tail = [] := by
      cases data with
      | nil => rw [splitPages_nil]; rfl
      | cons b bs =>
        rw [splitPages_cons, List.tail_cons, List.drop_eq_nil_of_le short, splitPages_nil]
    rw [none_left]
    exact .nil m _
  · have ne_nil : data ≠ [] := fun h => short (by simp [h])
    have full : (data.take (pageRoom offset)).length = pageRoom offset := by
      rw [List.length_take]
      omega
    rw [splitPages_of_ne_nil ne_nil (by omega), List.tail_cons, full]
    refine programPieces_splitPages ?_ word
    rw [List.length_drop]
    omega

end SerialFlash.Memory
