import SerialFlash.Proofs.Trims

/-!
The geometry of a disk. The size of its sectors is decided when it is made, and lasts as long as the
disk does, whatever becomes of the flash underneath. What a sector of the disk is to reads, an
offset, and what it is to writes and trims, a run of flash sectors, are the same bytes of the
device, and no two sectors share any.
-/

namespace SerialFlash

open Procedure

/-! ### For life -/

/-- The disk stays in use. -/
def Action.KeepsDisk : Action → Prop
  | unwrap | rebuild _ _ => False
  | _ => True

namespace Session

variable {s : Session} {d : Disk} {a : Action} {actions : List Action}

theorem isSome_disk_step (found : s.device.disk?.isSome = true) (keeps : a.KeepsDisk) :
    (s.step a).2.device.disk?.isSome = true := by
  obtain ⟨compareBuffer, device, b⟩ := s
  cases device with
  | bare | gone => contradiction
  | disk d | shared d =>
    cases a with
    | unwrap | rebuild => exact keeps.elim
    | _ => rfl

/-- An action that keeps the disk keeps its format and the options of its driver. -/
theorem disk_step_of_keeps (recognised : s.Recognised) (found : s.device.disk? = some d)
    (keeps : a.KeepsDisk) : ∃ d', (s.step a).2.device.disk? = some d' ∧ d'.format = d.format ∧
      d'.flash.options = d.flash.options := by
  obtain ⟨d', found'⟩ := Option.isSome_iff_exists.mp
    (isSome_disk_step (Option.isSome_of_eq_some found) keeps)
  have rest driver (used : s.device.driver? = some driver) := (recognised.driver driver used).1
  rcases disk_step rest found' with ⟨d₁, before, format, options⟩ | ⟨driver, before, -⟩
  · cases found.symm.trans before
    exact ⟨d', found', format, options⟩
  · rw [before] at found
    contradiction

theorem disk_run_of_keeps (recognised : s.Recognised) (found : s.device.disk? = some d)
    (keeps : ∀ a ∈ actions, a.KeepsDisk) : ∃ d', (s.run actions).device.disk? = some d' ∧
      d'.format = d.format ∧ d'.flash.options = d.flash.options := by
  refine (run_preserves (I := fun w => w.Recognised ∧ ∃ d', w.device.disk? = some d' ∧
    d'.format = d.format ∧ d'.flash.options = d.flash.options) ?_
    ⟨recognised, d, found, rfl, rfl⟩).2
  rintro w a mem ⟨recognised, d₁, found₁, format₁, options₁⟩
  obtain ⟨d₂, found₂, format₂, options₂⟩ := disk_step_of_keeps recognised found₁ (keeps a mem)
  exact ⟨recognised.step a, d₂, found₂, format₂.trans format₁, options₂.trans options₁⟩

end Session

/-! ### Under a sector -/

/-- The opcode is that of an erase, of a unit or of the whole chip. -/
def opcodeErases (opcode : UInt8) : Bool :=
  opcode == 0x20 || opcode == 0x52 || opcode == 0xD8 || opcode == 0xC7

/-- The requests to erase something, in their order. -/
def eraseRequests (events : List Event) : List Request :=
  (requestsSent events).filter fun r => opcodeErases r.opcode

theorem opcodeWorks_of_erases {opcode : UInt8} (erases : opcodeErases opcode = true) :
    opcodeWorks opcode = true := by
  simp only [opcodeErases, Bool.or_eq_true, beq_iff_eq] at erases
  obtain ((rfl | rfl) | rfl) | rfl := erases <;> rfl

theorem eraseRequests_eq (events : List Event) :
    eraseRequests events = (workRequests events).filter fun r => opcodeErases r.opcode := by
  rw [eraseRequests, workRequests, List.filter_filter]
  refine List.filter_congr fun r _ => ?_
  cases erases : opcodeErases r.opcode with
  | false => rfl
  | true => rw [opcodeWorks_of_erases erases, Bool.and_self]

namespace Disk

variable {d : Disk} {sector : Nat}

/-- A sector of the disk is the same bytes of the device to every operation. -/
structure Places (d : Disk) (sector : Nat) : Prop where
  /-- Where it is read, in numbers that know no overflow. -/
  offset : d.offsetOf? sector = some (sector * d.sectorSize)
  /-- The flash sectors under it are there. -/
  valid : ∀ n, sector * d.flashSectors ≤ n → n < sector * d.flashSectors + d.flashSectors →
    d.flash.layout.sectorStart? n = some (n * d.flash.layout.sectorSize)
  /-- They are its bytes, and these are on the device. -/
  covers : ∀ i, (∃ n, (sector * d.flashSectors ≤ n ∧
      n < sector * d.flashSectors + d.flashSectors) ∧ n * d.flash.layout.sectorSize ≤ i ∧
      i < n * d.flash.layout.sectorSize + d.flash.layout.sectorSize) ↔
    sector * d.sectorSize ≤ i ∧ i < sector * d.sectorSize + d.sectorSize
  inside : sector * d.sectorSize + d.sectorSize ≤ d.flash.layout.size
  /-- They are what is erased under it, one by one and all of them if nothing fails, and what comes
  back is where it is read. -/
  erases : ∀ verify b,
    eraseRequests (((eraseUnder d.flashSectors sector verify).script d.flash).exchanges b) <+:
      (d.flash.erasures (sector * d.flashSectors) d.flashSectors).map b.link.request ∧
    ∀ offset flash b', ((eraseUnder d.flashSectors sector verify).script d.flash).run b =
        ((.ok offset, flash), b') → d.offsetOf? sector = some offset ∧
      eraseRequests (((eraseUnder d.flashSectors sector verify).script d.flash).exchanges b) =
        (d.flash.erasures (sector * d.flashSectors) d.flashSectors).map b.link.request

end Disk

namespace Link

/-- Goes out as an erase. -/
def erases (l : Link) (i : Instruction) : Bool :=
  opcodeErases (l.request i).opcode

theorem erases_eraseSector (l : Link) (unit : EraseUnit) (address : Nat) :
    l.erases (.eraseSector unit address) = true := by
  cases unit <;> rfl

theorem erases_readArray (l : Link) (address length : Nat) :
    l.erases (.readArray address length) = false := by
  rcases l with _ | _ | ⟨_ | _ | _⟩ <;> rfl

end Link

namespace Driver

variable {d : Driver} {l : Link}

theorem filter_erasures (d : Driver) (l : Link) (first count : Nat) :
    (d.erasures first count).filter l.erases = d.erasures first count := by
  refine List.filter_eq_self.mpr fun i mem => ?_
  obtain ⟨k, -, rfl⟩ := List.mem_map.mp mem
  exact l.erases_eraseSector _ _

/-- Reading back is no erase. -/
theorem filter_renewals (d : Driver) (l : Link) (first count : Nat) :
    (d.renewals first count).filter l.erases = d.erasures first count := by
  have renewal (sector : Nat) : (d.renewal sector).filter l.erases =
      [.eraseSector d.options.eraseUnit (sector * d.options.eraseUnit.size)] := by
    rw [renewal, List.filter_cons_of_pos (l.erases_eraseSector _ _), List.filter_eq_nil_iff.mpr]
    intro i mem
    obtain ⟨j, -, rfl⟩ := List.mem_map.mp mem
    rw [l.erases_readArray]
    exact Bool.false_ne_true
  rw [renewals, List.filter_flatMap]
  simp only [renewal, erasures]
  exact List.map_eq_flatMap.symm

/-- The erases under a logical sector are those of its plan. -/
theorem exists_plan (suits : d.layout.Suits d.options.eraseUnit)
    (erased : d.layout.erasedValue = erasedByte) (ready : d.state = .ready) {sector count : Nat}
    (inside : sector + count ≤ d.layout.sectorCount) (verify : Bool) : ∃ plan,
      (Disk.eraseRun verify count sector).Does l d.options d plan () ∧ (∀ i ∈ plan, i.Works) ∧
      plan.filter l.erases = d.erasures sector count := by
  cases verify with
  | false => exact ⟨_, does_eraseRun_only suits ready inside, fun _ => works_of_mem_erasures,
      d.filter_erasures l _ _⟩
  | true => exact ⟨_, does_eraseRun suits erased ready inside,
      fun _ mem => (works_of_mem_renewals mem).1, d.filter_renewals l _ _⟩

end Driver

namespace Disk

variable {d : Disk} {sector : Nat}

theorem sector_le (inside : sector < d.sectorCount) :
    sector * d.sectorSize + d.sectorSize ≤ d.flash.layout.size := by
  rw [← Nat.succ_mul]
  exact mul_sectorSize_le inside

namespace Cut

variable (cut : d.Cut)

include cut

/-- Nothing is erased unless the flash is ready. -/
theorem script_eraseUnder_of_unready (inside : sector < d.sectorCount) (verify : Bool)
    (unready : d.flash.state ≠ .ready) :
    (eraseUnder d.flashSectors sector verify).script d.flash =
      .done (.error (.busy d.flash.state), d.flash) := by
  have bound := cut.flashSectors_le inside
  rw [Nat.succ_mul] at bound
  obtain ⟨rest, count⟩ := Nat.exists_eq_succ_of_ne_zero (Nat.ne_of_gt cut.flashSectors_pos)
  rw [eraseUnder_eq cut.suits bound, count]
  simp [eraseRun, Driver.beginEraseSector, unready]

theorem erases (inside : sector < d.sectorCount) (verify : Bool) (b : Bench) :
    eraseRequests (((eraseUnder d.flashSectors sector verify).script d.flash).exchanges b) <+:
      (d.flash.erasures (sector * d.flashSectors) d.flashSectors).map b.link.request ∧
    ∀ offset flash b', ((eraseUnder d.flashSectors sector verify).script d.flash).run b =
        ((.ok offset, flash), b') → offset = sector * d.sectorSize ∧
      eraseRequests (((eraseUnder d.flashSectors sector verify).script d.flash).exchanges b) =
        (d.flash.erasures (sector * d.flashSectors) d.flashSectors).map b.link.request := by
  by_cases ready : d.flash.state = .ready
  · have bound := cut.flashSectors_le inside
    have last := bound
    rw [Nat.succ_mul] at last
    have some_bytes : 0 < d.flash.layout.size :=
      Nat.lt_of_lt_of_le cut.pos (Nat.le_trans (Nat.le_add_left _ _) (sector_le inside))
    obtain ⟨plan, does, works, erasures⟩ := Driver.exists_plan (l := b.link) cut.suits
      (cut.erased some_bytes) ready last verify
    have tracks := Driver.does_eraseUnder cut.suits cut.flashSectors_pos bound does []
    rw [List.append_nil] at tracks
    obtain ⟨k', followed, ended⟩ := Script.Tracks.exchanges tracks (b := b) rfl
    obtain ⟨front, split, sent, -⟩ := Agenda.follow_front works followed
    simp only at split
    have erased :
        eraseRequests (((eraseUnder d.flashSectors sector verify).script d.flash).exchanges b) =
          (front.filter b.link.erases).map b.link.request := by
      rw [eraseRequests_eq, sent, List.filter_map]
      rfl
    rw [erased, ← erasures, split, List.filter_append, List.map_append]
    refine ⟨List.prefix_append _ _, fun offset flash b' run => ?_⟩
    rw [run] at ended
    obtain ⟨rfl, -, rfl⟩ := ended
    exact ⟨by rw [Nat.mul_assoc, cut.whole], by simp⟩
  · rw [cut.script_eraseUnder_of_unready inside verify ready, Script.run_done]
    refine ⟨?_, fun _ _ _ run => nomatch (Prod.ext_iff.mp (Prod.ext_iff.mp run).1).1⟩
    rw [show eraseRequests _ = [] from rfl]
    exact List.nil_prefix

theorem places (inside : sector < d.sectorCount) : d.Places sector := by
  have bound := cut.flashSectors_le inside
  rw [Nat.succ_mul] at bound
  have offset : d.offsetOf? sector = some (sector * d.sectorSize) :=
    if_pos (Nat.lt_of_le_of_lt (mul_sectorSize_le (Nat.le_of_lt inside)) cut.suits.size_lt_limit)
  refine ⟨offset, fun n _ before => ?_, fun i => ?_, sector_le inside, fun verify b => ?_⟩
  · rw [cut.suits.sectorSize]
    exact cut.suits.sectorStart?_eq (Nat.lt_of_lt_of_le before bound)
  · rw [Memory.exists_unit_iff (cut.suits.sectorSize ▸ d.flash.options.eraseUnit.size_pos),
      cut.suits.sectorSize, Nat.add_mul, Nat.mul_assoc, cut.whole]
  · obtain ⟨sent, done⟩ := cut.erases inside verify b
    refine ⟨sent, fun _ flash b' run => ?_⟩
    obtain ⟨rfl, all⟩ := done _ flash b' run
    exact ⟨offset, all⟩

end Cut

end Disk

/-! ### Sessions -/

/-- What a disk has been made with and what it is later. -/
structure Disk.Keeps (made d : Disk) : Prop where
  sectorSize : d.sectorSize = made.sectorSize
  flashSector : d.flash.layout.sectorSize = made.flash.layout.sectorSize
  /-- A flash sector is what its driver erases at a time. -/
  unit : d.flash.layout.sectorSize = d.flash.options.eraseUnit.size
  pos : 0 < d.sectorSize
  whole : d.flash.layout.sectorSize ∣ d.sectorSize
  /-- As many whole sectors as the device holds, and none while it is not known. -/
  count : d.sectorCount = d.flash.layout.size / d.sectorSize
  unidentified : d.flash.isIdentified = false → d.sectorCount = 0
  places : ∀ sector, sector < d.sectorCount → d.Places sector
  disjoint : ∀ m n i, m ≠ n → m * d.sectorSize ≤ i → i < m * d.sectorSize + d.sectorSize →
    ¬ (n * d.sectorSize ≤ i ∧ i < n * d.sectorSize + d.sectorSize)

namespace Session

variable {s : Session} {d made : Disk} {driver : Driver} {format : DiskFormat}
  {actions : List Action}

/-- A flash that is not identified has no bytes to divide. -/
theorem Reached.sectorCount_of_unidentified (reached : s.Reached)
    (found : s.device.disk? = some d) (unidentified : d.flash.isIdentified = false) :
    d.sectorCount = 0 := by
  have recognises := (reached.recognised.driver _ (Device.driver?_of_disk? found)).2
  have empty : d.flash.layout.size = 0 := by
    rcases recognises.layout with unknown | ⟨size, listed, layout⟩
    · rw [unknown]
      rfl
    · have none : d.flash.layout.sectorCount = 0 := by
        simpa [Driver.isIdentified, listed] using unidentified
      rw [recognises.suits.size, none, Nat.zero_mul]
  rw [Disk.sectorCount, empty, Nat.zero_div]

/-- From when it is made, and whatever is done through the disk, its driver, the NOR interface or
past them, for as long as it is in use: a disk has the sectors that it was made with, and each of
them is the same bytes of the device to reads, writes and trims. -/
theorem disk_geometry (reached : s.Reached) (bare : s.device = .bare driver)
    (created : Disk.create driver format = .ok made) (keeps : ∀ a ∈ actions, a.KeepsDisk) :
    ∃ d, (s.run (.intoDisk format :: actions)).device.disk? = some d ∧ made.Keeps d := by
  have start : (s.step (.intoDisk format)).2.device.disk? = some made := by
    simp only [step, bare, created]
    rfl
  have began : (s.step (.intoDisk format)).2.Reached := reached.run [.intoDisk format]
  obtain ⟨d, found, format, options⟩ := disk_run_of_keeps began.recognised start keeps
  have cut := (began.run actions).cut found
  have flashSector : d.flash.layout.sectorSize = made.flash.layout.sectorSize := by
    rw [cut.suits.sectorSize, (began.cut start).suits.sectorSize, options]
  refine ⟨d, found, ?_⟩
  exact {
    sectorSize := by rw [Disk.sectorSize, Disk.sectorSize, format, flashSector]
    flashSector
    unit := cut.suits.sectorSize
    pos := cut.pos
    whole := by
      rw [cut.suits.sectorSize, ← cut.whole]
      exact Nat.dvd_mul_left _ _
    count := rfl
    unidentified := (began.run actions).sectorCount_of_unidentified found
    places := fun _ inside => cut.places inside
    disjoint := fun m n i other le lt shared => other <| by
      rw [← Nat.div_eq_of_lt_le le (by rwa [Nat.succ_mul]),
        Nat.div_eq_of_lt_le shared.1 (by rw [Nat.succ_mul]; exact shared.2)] }

/-- What may happen to a disk: its flash is identified, and fails to be, and is again. -/
def troubles : List Action :=
  [.flash .identify, .share, .disk (.control (.trim 0 1)), .configure (.failOpcode 0x9F 0),
    .flash .identify, .flash (.norErase 0 4096), .flash .powerDown, .disk (.read 0 8192),
    .flash .releasePowerDown, .flash .identify]

/-- A disk of two flash sectors to a sector has the same last sector behind all of it. -/
theorem geometry_after_troubles : ∃ d,
    ((create ⟨0xEF, 0x40, 0x14⟩ .direct .standard .standard).run
      (.intoDisk ⟨some 8192⟩ :: troubles)).device.disk? = some d ∧
    d.sectorSize = 8192 ∧ d.sectorCount = 128 ∧ d.offsetOf? 127 = some 1040384 ∧
    d.flash.layout.sectorStart? 254 = some 1040384 := by
  obtain ⟨made, created, size⟩ : ∃ made, Disk.create
      (.create .standard .standard false) ⟨some 8192⟩ = .ok made ∧ made.sectorSize = 8192 :=
    ⟨_, rfl, rfl⟩
  have stays : ∀ a ∈ troubles, a.KeepsDisk := by simp [troubles, Action.KeepsDisk]
  obtain ⟨d, found, keeps⟩ := disk_geometry
    (s := create ⟨0xEF, 0x40, 0x14⟩ .direct .standard .standard)
    ⟨_, _, _, _, [], rfl⟩ rfl created stays
  obtain ⟨d', found', size', capacity⟩ : ∃ d',
      ((create ⟨0xEF, 0x40, 0x14⟩ .direct .standard .standard).run
        (.intoDisk ⟨some 8192⟩ :: troubles)).device.disk? = some d' ∧
      d'.flash.layout.sectorSize = 4096 ∧ d'.flash.layout.size = 1048576 := ⟨_, rfl, rfl, rfl⟩
  cases found.symm.trans found'
  have count : d.sectorCount = 128 := by rw [keeps.count, capacity, keeps.sectorSize, size]
  have places := keeps.places 127 (by omega)
  have offset := places.offset
  have perSector : d.flashSectors = 2 := by
    rw [Disk.flashSectors, keeps.sectorSize, size, size']
  have start := places.valid 254 (by omega) (by omega)
  rw [keeps.sectorSize, size] at offset
  rw [size'] at start
  exact ⟨d, found, keeps.sectorSize.trans size, count, offset, start⟩

end Session

end SerialFlash
