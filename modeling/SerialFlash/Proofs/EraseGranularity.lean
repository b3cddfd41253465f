import SerialFlash.Proofs.Refusals

/-!
The unit of an erase does not matter. An erased cell holds what it would hold behind any other
erase, so erases only add up the cells that they clear, and what a sequence of them leaves depends
neither on their order nor on how these cells are cut into units. A block is cleared as a block,
sector by sector or through the NOR interface, and the device at once or unit by unit, and the
memory behind it is the same.
-/

namespace SerialFlash

open Procedure

/-! ### Cells -/

namespace Memory

variable {m m₁ m₂ : Memory} {stuck : List StuckCell} {cells cells' : Nat → Prop}

/-- These cells are erased, and all others are as before. -/
def Clears (m : Memory) (stuck : List StuckCell) (cells : Nat → Prop) (m' : Memory) : Prop :=
  m'.size = m.size ∧ ∀ i, (cells i → m'.byteAt i = afterErase stuck i) ∧
    (¬ cells i → m'.byteAt i = m.byteAt i)

theorem Clears.nothing (m : Memory) (stuck : List StuckCell) : m.Clears stuck (fun _ => False) m :=
  ⟨rfl, fun _ => ⟨False.elim, fun _ => rfl⟩⟩

/-- A cell that is cleared twice holds what it holds when it is cleared once. -/
theorem Clears.trans (first : m.Clears stuck cells m₁) (rest : m₁.Clears stuck cells' m₂) :
    m.Clears stuck (fun i => cells i ∨ cells' i) m₂ := by
  refine ⟨rest.1.trans first.1, fun i => ⟨fun cleared => ?_, fun kept => ?_⟩⟩
  · by_cases again : cells' i
    · exact (rest.2 i).1 again
    · rw [(rest.2 i).2 again]
      exact (first.2 i).1 (cleared.resolve_right again)
  · obtain ⟨before, behind⟩ := not_or.mp kept
    rw [(rest.2 i).2 behind, (first.2 i).2 before]

theorem Clears.congr (cleared : m.Clears stuck cells m₁) (same : ∀ i, cells i ↔ cells' i) :
    m.Clears stuck cells' m₁ := by
  obtain rfl : cells = cells' := funext fun i => propext (same i)
  exact cleared

/-- The cells that are cleared decide what is left. -/
theorem Clears.unique (cleared : m.Clears stuck cells m₁) (cleared' : m.Clears stuck cells m₂) :
    m₁ = m₂ := by
  refine Memory.ext (cleared.1.trans cleared'.1.symm) fun i _ => ?_
  by_cases here : cells i
  · rw [(cleared.2 i).1 here, (cleared'.2 i).1 here]
  · rw [(cleared.2 i).2 here, (cleared'.2 i).2 here]

theorem clears_iff_erasesTo {start stop : Nat} :
    m.Clears stuck (fun i => start ≤ i ∧ i < stop) m₁ ↔ m.ErasesTo stuck start stop m₁ := by
  refine and_congr_right fun _ => forall_congr' fun i => ?_
  by_cases inside : start ≤ i ∧ i < stop <;> simp [inside]

end Memory

/-! ### Erases -/

namespace Driver

variable {d : Driver} {b b₁ b₂ : Bench} {cells cells' : Nat → Prop}

/-- The driver is ready on a chip that is idle and awake, has no fault armed, and is done with an
erase before the driver loses patience. -/
structure Calm (d : Driver) (b : Bench) : Prop where
  settled : d.Settled False d.options.eraseUnit b
  ready : d.state = .ready
  idle : b.chip.isBusy = false
  sound : b.chip.Sound
  patient : b.chip.eraseBusy ≤ d.options.eraseTimeout

/-- These cells are cleared, and the driver is as calm as before. -/
structure Clears (d : Driver) (b : Bench) (cells : Nat → Prop) (b' : Bench) : Prop where
  calm : d.Calm b'
  stuckCells : b'.chip.stuckCells = b.chip.stuckCells
  memory : b.chip.memory.Clears b.chip.stuckCells cells b'.chip.memory

theorem Clears.trans (first : d.Clears b cells b₁) (rest : d.Clears b₁ cells' b₂) :
    d.Clears b (fun i => cells i ∨ cells' i) b₂ :=
  ⟨rest.calm, rest.stuckCells.trans first.stuckCells,
    first.memory.trans (first.stuckCells ▸ rest.memory)⟩

theorem Clears.congr (cleared : d.Clears b cells b₁) (same : ∀ i, cells i ↔ cells' i) :
    d.Clears b cells' b₁ :=
  ⟨cleared.calm, cleared.stuckCells, cleared.memory.congr same⟩

namespace Calm

variable (calm : d.Calm b)

include calm

theorem nothing : d.Clears b (fun _ => False) b :=
  ⟨calm, rfl, .nothing _ _⟩

theorem knows : d.Knows False b :=
  calm.settled.attuned.knows (by rw [calm.ready]; trivial)

theorem later (settled : d.Settled False d.options.eraseUnit b₁) (endures : b.chip.Endures b₁.chip)
    (idle : b₁.chip.isBusy = false) : d.Calm b₁ :=
  ⟨settled, calm.ready, idle, calm.sound.later endures, endures.eraseBusy ▸ calm.patient⟩

/-- What comes of an erase of a unit that divides the array. -/
theorem clears_of_erase {size address : Nat}
    (settled : d.Settled False d.options.eraseUnit b₁) (endures : b.chip.Endures b₁.chip)
    (idle : b₁.chip.isBusy = false) (divides : size ∣ b.chip.memory.size)
    (aligned : size ∣ address) (bound : address < b.chip.memory.size)
    (memory : b₁.chip.memory = if b.chip.isBusy then b.chip.memory
      else b.chip.memory.erase size address b.chip.stuckCells) :
    d.Clears b (fun i => address ≤ i ∧ i < address + size) b₁ := by
  rw [calm.idle, if_neg Bool.false_ne_true] at memory
  refine ⟨calm.later settled endures idle, endures.stuckCells, ?_⟩
  rw [memory, Memory.clears_iff_erasesTo]
  have erased := Memory.erase_erasesTo divides bound b.chip.stuckCells
  rwa [Nat.div_mul_cancel aligned] at erased

theorem ensures_eraseSector {sector : Nat} (inside : sector < d.layout.sectorCount) :
    (beginEraseSector sector >>= fun _ => finishErase).Ensures d b
      (fun _ d' b' => d' = d ∧ d.Clears b (fun i => sector * d.options.eraseUnit.size ≤ i ∧
        i < sector * d.options.eraseUnit.size + d.options.eraseUnit.size) b')
      fun _ _ _ => False := by
  refine (eraseSector_succeeds calm.settled calm.ready calm.idle calm.sound calm.patient
    inside).ensures ((ensures_bind _ _).mpr (Driver.ensures_eraseSector calm.settled
      (fun _ _ _ _ => trivial) (fun _ _ _ _ _ _ => trivial)
      fun b' _ _ settled endures idle memory => ⟨rfl, ?_⟩))
  exact calm.clears_of_erase settled endures idle (calm.knows.unit_dvd _) (Nat.dvd_mul_left _ _)
    (calm.settled.attuned.sector_lt calm.knows inside) memory

theorem ensures_eraseAll :
    (beginEraseAll >>= fun _ => finishErase).Ensures d b
      (fun _ d' b' => d' = d ∧ d.Clears b (fun i => 0 ≤ i ∧ i < 0 + b.chip.memory.size) b')
      fun _ _ _ => False := by
  refine (eraseToEnd_succeeds calm.settled calm.ready calm.idle calm.sound calm.patient
    (i := .eraseChip) trivial rfl).ensures ((ensures_bind _ _).mpr
      (ensures_eraseToEnd calm.settled (i := .eraseChip) trivial rfl (fun _ _ _ _ => trivial)
        (fun _ _ _ _ _ => trivial) fun b' _ settled endures idle memory => ⟨rfl, ?_⟩))
  exact calm.clears_of_erase settled endures idle (Nat.dvd_refl _) (Nat.dvd_zero _)
    calm.knows.size_bounds.2.1 memory

theorem ensures_norErase {start stop : Nat} (le : start ≤ stop) (inside : stop ≤ d.layout.size)
    (first : sectorSize4K ∣ start) (last : sectorSize4K ∣ stop) :
    (Nor.erase start stop).Ensures d b
      (fun _ d' b' => d' = d ∧ d.Clears b (fun i => start ≤ i ∧ i < stop) b')
      fun _ _ _ => False := by
  have units : start + (stop - start) / Nor.eraseSize * sectorSize4K = stop := by
    simp only [Nor.eraseSize, sectorSize4K] at first last ⊢
    omega
  have succeeds : (Nor.erase start stop).Ensures d b (fun _ _ b' => b'.chip.isBusy = false)
      fun _ _ _ => False := by
    have run := ensures_eraseFrom_sound calm.settled calm.ready calm.idle calm.sound calm.patient
      (units ▸ inside)
    simp only [Nor.erase, ensures_bind, ensures_get, ensures_ite, ensures_throw]
    refine ⟨fun _ => by omega, fun _ => ⟨fun _ => run, fun misaligned => misaligned ?_⟩⟩
    exact ⟨Nat.mod_eq_zero_of_dvd first, Nat.mod_eq_zero_of_dvd last⟩
  refine (succeeds.and (((settles_norErase start stop).ensures b).and
    (((keeps_norErase start stop d b calm.settled).and (ensures_endures _)).and
      (Driver.ensures_norErase calm.settled start stop)))).mono ?_ fun _ _ _ ended => ended.1
  rintro _ _ b' ⟨idle, rfl, ⟨settled, -, endures⟩, -, -, -, erased⟩
  rw [calm.idle, if_neg Bool.false_ne_true] at erased
  exact ⟨rfl, calm.later settled endures idle, endures.stuckCells,
    Memory.clears_iff_erasesTo.mpr erased⟩

end Calm

end Driver

/-! ### Sessions -/

theorem Device.withDriver_withDriver (device : Device) (d d' : Driver) :
    (device.withDriver d).withDriver d' = device.withDriver d' := by
  cases device <;> rfl

/-- Erases sectors in this order, each to its end. -/
def eraseSectors (sectors : List Nat) : List Action :=
  sectors.flatMap fun sector => [.flash (.eraseSector sector), .flash .finishErase]

/-- Erases the device at once, to its end. -/
def eraseDevice : List Action :=
  [.flash .eraseAll, .flash .finishErase]

namespace Session

variable {s t : Session} {d e : Driver} {cells cells' : Nat → Prop} {actions actions' : List Action}

theorem outcomes_append (s : Session) (actions actions' : List Action) :
    s.outcomes (actions ++ actions') = s.outcomes actions ++ (s.run actions).outcomes actions' := by
  induction actions generalizing s with
  | nil => rfl
  | cons a rest ih => exact congrArg (List.cons _) (ih _)

/-- All of the actions succeed, and they leave this memory. -/
structure Leaves (s : Session) (actions : List Action) (m : Memory) : Prop where
  succeeds : ∀ outcome ∈ s.outcomes actions, outcome = .flash (.ok .nothing)
  memory : (s.run actions).bench.chip.memory = m

/-- All of the actions succeed, and together they clear these cells. -/
structure Clears (s : Session) (d : Driver) (actions : List Action) (cells : Nat → Prop) :
    Prop where
  succeeds : ∀ outcome ∈ s.outcomes actions, outcome = .flash (.ok .nothing)
  device : (s.run actions).device = s.device
  chip : d.Clears s.bench cells (s.run actions).bench

theorem Clears.append (first : s.Clears d actions cells)
    (rest : (s.run actions).Clears d actions' cells') :
    s.Clears d (actions ++ actions') fun i => cells i ∨ cells' i := by
  refine ⟨fun outcome mem => ?_, ?_, ?_⟩
  · rw [outcomes_append, List.mem_append] at mem
    exact mem.elim (first.succeeds outcome) (rest.succeeds outcome)
  · rw [run_append, rest.device, first.device]
  · rw [run_append]
    exact first.chip.trans rest.chip

theorem Clears.congr (cleared : s.Clears d actions cells) (same : ∀ i, cells i ↔ cells' i) :
    s.Clears d actions cells' :=
  ⟨cleared.succeeds, cleared.device, cleared.chip.congr same⟩

/-- Whatever clears these cells leaves one and the same memory. -/
theorem Clears.leaves {m : Memory} (cleared : s.Clears d actions cells)
    (whole : s.bench.chip.memory.Clears s.bench.chip.stuckCells cells m) : s.Leaves actions m :=
  ⟨cleared.succeeds, cleared.chip.memory.unique whole⟩

/-- An operation that succeeds is one step. -/
theorem exists_step_of_ensures {operation : FlashOperation} {op : FlashM Unit}
    {good : Unit → Driver → Bench → Prop} (found : s.device.driver? = some d)
    (runs : operation.run = FlashOperation.silent op)
    (succeeds : op.Ensures d s.bench good fun _ _ _ => False) : ∃ d' b',
      s.step (.flash operation) =
        (.flash (.ok .nothing), ⟨s.compareBuffer, s.device.withDriver d', b'⟩) ∧
      good () d' b' := by
  have ensures : operation.run.Ensures d s.bench (fun v d' b' => v = .nothing ∧ good () d' b')
      fun _ _ _ => False := by
    rw [runs, FlashOperation.silent, ensures_map]
    exact succeeds.mono (fun _ _ _ ended => ⟨rfl, ended⟩) fun _ _ _ => id
  rcases run : (operation.run.script d).run s.bench with ⟨⟨e | v, d'⟩, b'⟩
  · exact (ensures.of_failed run).elim
  · obtain ⟨rfl, ended⟩ := ensures.of_run run
    exact ⟨d', b', by rw [step_flash_eq found, run], ended⟩

/-- An operation that clears cells. -/
theorem clears_of_ensures {operation : FlashOperation} {op : FlashM Unit}
    (found : s.device.driver? = some d) (runs : operation.run = FlashOperation.silent op)
    (clears : op.Ensures d s.bench (fun _ d' b' => d' = d ∧ d.Clears s.bench cells b')
      fun _ _ _ => False) : s.Clears d [.flash operation] cells := by
  obtain ⟨_, b', step, same, cleared⟩ := exists_step_of_ensures found runs clears
  rw [same] at step
  have run : s.run [.flash operation] = ⟨s.compareBuffer, s.device.withDriver d, b'⟩ :=
    congrArg Prod.snd step
  refine ⟨fun outcome mem => ?_, ?_, ?_⟩
  · rw [outcomes, step, outcomes, List.mem_singleton] at mem
    exact mem
  · rw [run]
    exact Device.withDriver_self found
  · rw [run]
    exact cleared

/-- An erase and the wait for its end. -/
theorem clears_of_begun {operation : FlashOperation} {op : FlashM Unit}
    (found : s.device.driver? = some d) (runs : operation.run = FlashOperation.silent op)
    (clears : (op >>= fun _ => Driver.finishErase).Ensures d s.bench
      (fun _ d' b' => d' = d ∧ d.Clears s.bench cells b') fun _ _ _ => False) :
    s.Clears d [.flash operation, .flash .finishErase] cells := by
  obtain ⟨d₁, b₁, begun, clears⟩ := exists_step_of_ensures found runs ((ensures_bind _ _).mp clears)
  obtain ⟨_, b₂, ended, rfl, cleared⟩ :=
    exists_step_of_ensures (s := ⟨s.compareBuffer, s.device.withDriver d₁, b₁⟩)
      (Device.driver?_withDriver found d₁)
      (show FlashOperation.run .finishErase = FlashOperation.silent _ from rfl) clears
  have run : s.run [.flash operation, .flash .finishErase] =
      ⟨s.compareBuffer, s.device, b₂⟩ := by
    show ((s.step _).2.step _).2 = _
    rw [begun, ended, Device.withDriver_withDriver, Device.withDriver_self found]
  refine ⟨fun outcome mem => ?_, ?_, ?_⟩
  · rw [outcomes, begun, outcomes, ended, outcomes] at mem
    simpa using mem
  · rw [run]
  · rw [run]
    exact cleared

/-- Sectors are cleared one by one. -/
theorem clears_eraseSectors (found : s.device.driver? = some d) (calm : d.Calm s.bench)
    {sectors : List Nat} (inside : ∀ n ∈ sectors, n < d.layout.sectorCount) :
    s.Clears d (eraseSectors sectors) fun i => ∃ n ∈ sectors,
      n * d.options.eraseUnit.size ≤ i ∧
        i < n * d.options.eraseUnit.size + d.options.eraseUnit.size := by
  induction sectors generalizing s with
  | nil => exact ⟨nofun, rfl, calm.nothing.congr fun i => by simp⟩
  | cons sector sectors ih =>
    have runs : (FlashOperation.eraseSector sector).run = FlashOperation.silent _ := rfl
    have first := clears_of_begun found runs
      (calm.ensures_eraseSector (inside sector List.mem_cons_self))
    have rest := ih (first.device ▸ found) first.chip.calm fun n mem =>
      inside n (List.mem_cons_of_mem _ mem)
    exact (first.append rest).congr fun i => by simp

/-- A driver that some actions have led to is ready on a chip that is idle and awake, has no fault
armed, and is done with an erase before the driver loses patience. -/
structure Calm (s : Session) (d : Driver) : Prop where
  reached : s.Reached
  driver : s.device.driver? = some d
  ready : d.state = .ready
  awake : s.bench.chip.poweredDown = false
  idle : s.bench.chip.isBusy = false
  noFaults : s.bench.chip.faults = .none
  patient : s.bench.chip.eraseBusy ≤ d.options.eraseTimeout

namespace Calm

variable (h : s.Calm d)

include h

theorem calm : d.Calm s.bench :=
  ⟨h.reached.settled h.driver (fun _ => h.awake) False.elim, h.ready, h.idle,
    ⟨h.noFaults, (Chip.isBusy_eq_false_iff.mp h.idle).1, h.reached.placed⟩, h.patient⟩

/-- In whatever order the sectors from one to another are erased, the cells from the first to the
last are cleared. -/
theorem clears_eraseSectors {sectors : List Nat} (first : Nat) {last : Nat}
    (inside : last ≤ d.layout.sectorCount) (all : ∀ n, n ∈ sectors ↔ first ≤ n ∧ n < last) :
    s.Clears d (eraseSectors sectors) fun i =>
      first * d.options.eraseUnit.size ≤ i ∧ i < last * d.options.eraseUnit.size :=
  (Session.clears_eraseSectors h.driver h.calm fun n mem =>
      Nat.lt_of_lt_of_le ((all n).mp mem).2 inside).congr fun _ => by
    simp only [all]
    exact Memory.exists_unit_iff d.options.eraseUnit.size_pos

theorem clears_norBlock {block : Nat} (inside : 65536 * (block + 1) ≤ s.bench.chip.memory.size) :
    s.Clears d [.flash (.norErase (65536 * block) (65536 * (block + 1)))] fun i =>
      65536 * block ≤ i ∧ i < 65536 * (block + 1) := by
  have small : sectorSize4K ∣ 65536 := by decide
  exact clears_of_ensures h.driver rfl (h.calm.ensures_norErase (by omega)
    (h.calm.knows.layout_size ▸ inside) (Nat.dvd_mul_right_of_dvd small _)
    (Nat.dvd_mul_right_of_dvd small _))

theorem clears_eraseDevice :
    s.Clears d eraseDevice fun i => 0 ≤ i ∧ i < s.bench.chip.memory.size :=
  (clears_of_begun h.driver rfl h.calm.ensures_eraseAll).congr fun i => by rw [Nat.zero_add]

/-- All sectors of the device are as much as the device. -/
theorem clears_eachSector {sectors : List Nat} (all : ∀ n, n ∈ sectors ↔ n < d.layout.sectorCount) :
    s.Clears d (eraseSectors sectors) fun i => 0 ≤ i ∧ i < s.bench.chip.memory.size :=
  (h.clears_eraseSectors 0 (Nat.le_refl _) fun n => by simp [all]).congr fun i => by
    rw [Nat.zero_mul, h.calm.knows.sectorCount_mul]

end Calm

/-- Of two drivers of chips that hold the same, one erases blocks and the other sectors. A block is
left the same by its erase, by erases of its sectors in any order, and through the NOR interface of
either driver, and the device is left the same by its erase under either driver and by erases of all
blocks or all sectors in any order. -/
theorem erase_unit_irrelevant (coarse : s.Calm d) (fine : t.Calm e)
    (blocks : d.options.eraseUnit = .block64K) (sectors : e.options.eraseUnit = .sector4K)
    (memory : t.bench.chip.memory = s.bench.chip.memory)
    (stuck : t.bench.chip.stuckCells = s.bench.chip.stuckCells) :
    (∀ block, block < d.layout.sectorCount → ∃ m,
      s.bench.chip.memory.ErasesTo s.bench.chip.stuckCells (65536 * block) (65536 * (block + 1)) m ∧
      s.Leaves (eraseSectors [block]) m ∧
      (∀ order, (∀ n, n ∈ order ↔ 16 * block ≤ n ∧ n < 16 * (block + 1)) →
        t.Leaves (eraseSectors order) m) ∧
      s.Leaves [.flash (.norErase (65536 * block) (65536 * (block + 1)))] m ∧
      t.Leaves [.flash (.norErase (65536 * block) (65536 * (block + 1)))] m) ∧
    ∃ m, s.bench.chip.memory.ErasesTo s.bench.chip.stuckCells 0 s.bench.chip.memory.size m ∧
      s.Leaves eraseDevice m ∧ t.Leaves eraseDevice m ∧
      (∀ order, (∀ n, n ∈ order ↔ n < d.layout.sectorCount) → s.Leaves (eraseSectors order) m) ∧
      ∀ order, (∀ n, n ∈ order ↔ n < e.layout.sectorCount) → t.Leaves (eraseSectors order) m := by
  have sizes : d.layout.sectorCount * 65536 = s.bench.chip.memory.size ∧
      e.layout.sectorCount * 4096 = s.bench.chip.memory.size := by
    have whole := coarse.calm.knows.sectorCount_mul
    have whole' := fine.calm.knows.sectorCount_mul
    rw [blocks] at whole
    rw [sectors, memory] at whole'
    exact ⟨whole, whole'⟩
  constructor
  · intro block inside
    have fits : 65536 * (block + 1) ≤ s.bench.chip.memory.size := by omega
    have fits' : 65536 * (block + 1) ≤ t.bench.chip.memory.size := memory ▸ fits
    have asBlock : s.Clears d (eraseSectors [block]) fun i =>
        65536 * block ≤ i ∧ i < 65536 * (block + 1) :=
      (coarse.clears_eraseSectors block (Nat.succ_le_of_lt inside) fun n => by
        rw [List.mem_singleton]; omega).congr fun i => by
          rw [blocks, EraseUnit.size, blockSize64K]; omega
    have left := asBlock.chip.memory
    have left' := left
    rw [← memory, ← stuck] at left'
    refine ⟨_, Memory.clears_iff_erasesTo.mp left, asBlock.leaves left, fun order all => ?_,
      (coarse.clears_norBlock fits).leaves left, (fine.clears_norBlock fits').leaves left'⟩
    exact ((fine.clears_eraseSectors _ (by omega) all).congr fun i => by
      rw [sectors, EraseUnit.size, sectorSize4K]; omega).leaves left'
  · have atOnce := coarse.clears_eraseDevice
    have left := atOnce.chip.memory
    have left' := left
    rw [← memory, ← stuck] at left'
    exact ⟨_, Memory.clears_iff_erasesTo.mp left, atOnce.leaves left,
      fine.clears_eraseDevice.leaves left',
      fun _ all => (coarse.clears_eachSector all).leaves left,
      fun _ all => (fine.clears_eachSector all).leaves left'⟩

/-- A driver that erases these units, of a chip whose cells are all cleared but for one, which is
stuck at two values. -/
def worn (unit : EraseUnit) : Session :=
  (create ⟨0xEF, 0x40, 0x14⟩ .direct .standard
      { DriverOptions.standard with eraseUnit := unit }).run
    [.flash .identify, .configure (.storeAll 0), .configure (.stickCell ⟨70000, 0x11⟩),
      .configure (.stickCell ⟨70000, 0x33⟩)]

theorem worn_calm (unit : EraseUnit) : ∃ d, (worn unit).Calm d ∧ d.options.eraseUnit = unit ∧
    d.layout.sectorCount = 1048576 / unit.size := by
  cases unit <;>
    exact ⟨_, ⟨⟨_, _, _, _, _, rfl⟩, rfl, rfl, rfl, rfl, rfl, by decide⟩, rfl, rfl⟩

/-- The sectors of the second block, erased from the last to the first, leave what its erase leaves,
but for the stuck cell all of it erased. -/
theorem block_erased_backwards : ∃ m,
    (∀ i, 65536 ≤ i → i < 131072 → m.byteAt i = if i = 70000 then 0x33 else 0xFF) ∧
    (worn .block64K).Leaves (eraseSectors [1]) m ∧
    (worn .sector4K).Leaves (eraseSectors ((List.range 16).reverse.map (16 + ·))) m := by
  obtain ⟨d, coarse, blocks, count⟩ := worn_calm .block64K
  obtain ⟨e, fine, sectors, -⟩ := worn_calm .sector4K
  obtain ⟨m, erased, asBlock, asSectors, -⟩ :=
    (erase_unit_irrelevant coarse fine blocks sectors rfl rfl).1 1 (by rw [count]; decide)
  refine ⟨m, fun i from_start before_stop => ?_, asBlock, asSectors _ fun n => ?_⟩
  · have stuck : (worn .block64K).bench.chip.stuckCells = [⟨70000, 0x11⟩, ⟨70000, 0x33⟩] := rfl
    rw [erased.2, if_pos ⟨from_start, before_stop⟩, stuck]
    simp only [Memory.afterErase, List.foldl_cons, List.foldl_nil, eq_comm]
    split <;> rfl
  · simp only [List.mem_map, List.mem_reverse, List.mem_range]
    constructor
    · rintro ⟨k, lt, rfl⟩
      omega
    · exact fun bounds => ⟨n - 16, by omega, by omega⟩

end Session

end SerialFlash
