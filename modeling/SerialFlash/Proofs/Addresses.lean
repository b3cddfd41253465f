import SerialFlash.Proofs.Exactness

/-!
Where the commands of a driver go. Every opcode that takes an address is sent with one, and what it
addresses lies in one unit and inside the device: an array read in the array, a page program in a
page, an erase on a whole unit. That is so of the requests themselves, for every link, and whatever
the chip replies. So no address is cut to 24 bits, no sum behind one is clamped, and the chip never
comes round at the end of a page or of its array.
-/

namespace SerialFlash

namespace Request

variable {r : Request} {m : Memory} {size : Nat}

/-- The request erases a whole unit inside a device of `size` bytes. -/
def ErasesOne (unit size : Nat) (r : Request) : Prop :=
  r.phase = .none ∧ ∃ address, r.address = some address ∧ unit ∣ address ∧ address + unit ≤ size

/-- By its opcode, what the request addresses lies in one unit, inside a device of `size` bytes. -/
def Contained (size : Nat) (r : Request) : Prop :=
  match Opcode.ofByte? r.opcode with
  | some .read | some .fastRead | some .fastReadDualOutput | some .fastReadDualIo
  | some .fastReadQuadOutput | some .fastReadQuadIo =>
      ∃ address length, r.address = some address ∧ r.phase = .receive length ∧
        0 < length ∧ address + length ≤ size
  | some .pageProgram | some .quadPageProgram =>
      ∃ address data, r.address = some address ∧ r.phase = .send data ∧
        0 < data.length ∧ data.length ≤ 256 ∧
        (address + data.length - 1) / 256 = address / 256 ∧ address + data.length ≤ size
  | some .sectorErase4K => r.ErasesOne 4096 size
  | some .blockErase64K => r.ErasesOne 65536 size
  | some .blockErase32K => False
  | _ => r.address = none

/-- The run of bytes that the request addresses: where it starts, and its length. -/
def span? (r : Request) : Option (Nat × Nat) :=
  match r.address, r.phase with
  | some address, .receive length => some (address, length)
  | some address, .send data => some (address, data.length)
  | some address, .none => (Chip.unitOf? r.opcode).map fun unit => (address, unit)
  | none, _ => none

/-- On the memory a read, a program or an erase of the request is one of the cells from its address
on, in their order. -/
def Straight (m : Memory) (r : Request) : Prop :=
  match r.address, r.phase with
  | some address, .receive length => m.read address length = m.slice address length
  | some address, .send data => m.ProgramsTo address data (m.program address data)
  | some address, .none => ∀ unit stuck, Chip.unitOf? r.opcode = some unit →
      m.ErasesTo stuck address (address + unit) (m.erase unit address stuck)
  | none, _ => True

end Request

/-! ### One instruction -/

namespace Instruction

variable {i : Instruction} {m : Memory} {size : Nat}

theorem Inside.contained (h : i.Inside size) (l : Link) : (l.request i).Contained size := by
  cases i with
  | readArray address length =>
    have range : ∃ start count, some address = some start ∧
        DataPhase.receive length = .receive count ∧ 0 < count ∧ start + count ≤ size :=
      ⟨address, length, rfl, rfl, h⟩
    simp only [Request.Contained, Link.request, Request.receiveAt, Opcode.ofByte?_byte]
    rcases l with _ | _ | ⟨width | width | width, _⟩ <;> exact range
  | programPage address data =>
    have pos : 0 < data.length := List.length_pos_iff.mpr h.data_ne_nil
    have room := h.room
    have range : ∃ start bytes, some address = some start ∧ DataPhase.send data = .send bytes ∧
        0 < bytes.length ∧ bytes.length ≤ 256 ∧ (start + bytes.length - 1) / 256 = start / 256 ∧
        start + bytes.length ≤ size := by
      simp only [pageSize] at room
      exact ⟨address, data, rfl, rfl, pos, by omega, by omega, h.bound⟩
    simp only [Request.Contained, Link.request, Request.sendAt, Opcode.ofByte?_byte]
    rcases l with _ | _ | ⟨width | width | width, _⟩ <;> exact range
  | eraseSector unit address =>
    cases unit <;> exact ⟨rfl, address, rfl, h⟩
  | _ => rfl

/-- The bytes that an instruction addresses lie inside the device. -/
theorem Inside.span_le (h : i.Inside size) {l : Link} {address length : Nat}
    (span : (l.request i).span? = some (address, length)) :
    0 < length ∧ address + length ≤ size := by
  cases i with
  | readArray => cases span; exact h
  | programPage => cases span; exact ⟨List.length_pos_iff.mpr h.data_ne_nil, h.bound⟩
  | eraseSector unit start => cases unit <;> cases span <;> exact ⟨by decide, h.2⟩
  | _ => nomatch span

theorem Inside.straight (h : i.Inside m.size) (blocks : 65536 ∣ m.size) (l : Link) :
    (l.request i).Straight m := by
  cases i with
  | readArray => exact Memory.read_eq_slice h.2
  | programPage => exact Memory.program_programsTo h.room h.bound
  | eraseSector unit address =>
    obtain ⟨aligned, inside⟩ := h
    intro bytes stuck sized
    obtain rfl : unit.size = bytes := by cases unit <;> exact Option.some.inj sized
    have pos := unit.size_pos
    have whole : unit.size ∣ m.size := Nat.dvd_trans (by cases unit <;> decide) blocks
    have erased := Memory.erase_erasesTo whole (show address < m.size by omega) stuck
    rwa [Nat.div_mul_cancel aligned] at erased
  | _ => trivial

end Instruction

/-! ### Sessions -/

/-- Three bytes carry an address of the device as it is. -/
theorem ofBigEndian_addressBytes {address : Nat} (bound : address < 16777216) :
    ofBigEndian (addressBytes address) = address := by
  have spelt (high middle low : UInt8) :
      ofBigEndian [high, middle, low] = addressOf high middle low := by
    simp only [ofBigEndian, List.foldl_cons, List.foldl_nil, addressOf]
    omega
  rw [addressBytes, spelt, addressOf_addressBytes, Nat.mod_eq_of_lt bound]

namespace Session

/-- A device with any bytes has been identified, and is of the size of the chip. -/
theorem Recognised.size_eq {s : Session} (h : s.Recognised) {d : Driver}
    (found : s.device.driver? = some d) (pos : 0 < d.layout.size) :
    d.layout.size = s.bench.chip.memory.size := by
  have known := (h.driver d found).2
  rcases known.layout with unknown | ⟨size, listed, layout⟩
  · rw [unknown] at pos
    exact absurd pos (Nat.lt_irrefl 0)
  · rw [(Driver.Sized.bounds listed layout).1]
    rw [known.identity size listed] at listed
    exact (h.genuine size listed).symm

/-- Every command of a driver that takes an address stays inside its unit and inside the device,
whatever has been done before and whatever the chip replies. The device is then as large as the
chip, so the address fits its 24 bits, the sum behind it is no larger than a word can be, and the
chip does not come round. No step depends on the words being bounded. -/
theorem commands_stay_inside (id : Identity) (link : Link) (compareBuffer : CompareBuffer)
    (options : DriverOptions) (actions : List Action) {s : Session}
    (reached : s = (create id link compareBuffer options).run actions) {d : Driver}
    (found : s.device.driver? = some d) (a : Action) :
    (∀ request reply, .exchanged request reply ∈ s.events a →
      request.Contained d.layout.size ∧
      ∀ address length, request.span? = some (address, length) →
        d.layout.size = s.bench.chip.memory.size ∧ address < 16777216 ∧
        ofBigEndian (addressBytes address) = address ∧
        Word32.satAdd address length = address + length ∧
        ∀ m : Memory, m.size = s.bench.chip.memory.size → request.Straight m) ∧
    Unbounded.step s a = s.step a := by
  have recognised : s.Recognised := by
    rw [reached]
    exact (recognised_create id link compareBuffer options).run actions
  refine ⟨fun request reply said => ?_, unbounded_step recognised a⟩
  obtain ⟨i, speech, rfl⟩ := exists_said recognised found said
  have suits := (recognised.driver d found).2.suits
  refine ⟨speech.inside.contained s.bench.link, fun address length span => ?_⟩
  obtain ⟨some_bytes, inside⟩ := speech.inside.span_le span
  have bound := suits.bound
  have size := recognised.size_eq found (by omega)
  have reach : address < 16777216 := by omega
  refine ⟨size, reach, ofBigEndian_addressBytes reach, Word32.satAdd_of_lt ?_, fun m same => ?_⟩
  · exact Nat.lt_of_le_of_lt inside suits.size_lt_limit
  · have within := speech.inside
    have blocks := suits.blocks
    rw [size, ← same] at within blocks
    exact within.straight blocks _

/-- The last sector of a device of 1 MiB is erased up to the end of the device. -/
theorem last_sector_stays_inside : ∃ s d,
    s = (create ⟨0xEF, 0x40, 0x14⟩ .spi .standard .standard).run [.flash .identify] ∧
    s.device.driver? = some d ∧ d.layout.size = 1048576 ∧
    .exchanged (.commandAt .sectorErase4K 1044480) (.ok []) ∈ s.events (.flash (.eraseSector 255)) ∧
    Word32.satAdd 1044480 4096 = 1048576 ∧
    (Request.commandAt .sectorErase4K 1044480).Contained d.layout.size ∧
    Unbounded.step s (.flash (.eraseSector 255)) = s.step (.flash (.eraseSector 255)) := by
  obtain ⟨s, d, enable, rest, reached, found, size, events⟩ : ∃ s d enable rest,
      s = (create ⟨0xEF, 0x40, 0x14⟩ .spi .standard .standard).run [.flash .identify] ∧
      s.device.driver? = some d ∧ d.layout.size = 1048576 ∧
      s.events (.flash (.eraseSector 255)) =
        enable :: .exchanged (.commandAt .sectorErase4K 1044480) (.ok []) :: rest :=
    ⟨_, _, _, _, rfl, rfl, rfl, rfl⟩
  have said : .exchanged (.commandAt .sectorErase4K 1044480) (.ok []) ∈
      s.events (.flash (.eraseSector 255)) := by
    rw [events]
    exact .tail _ (.head _)
  obtain ⟨contained, exact⟩ := commands_stay_inside ⟨0xEF, 0x40, 0x14⟩ .spi .standard .standard
    [.flash .identify] reached found (.flash (.eraseSector 255))
  obtain ⟨within, rest⟩ := contained _ _ said
  exact ⟨s, d, reached, found, size, said, (rest 1044480 4096 rfl).2.2.2.1, within, exact⟩

end Session

end SerialFlash
