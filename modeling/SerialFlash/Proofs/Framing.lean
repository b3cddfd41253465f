import SerialFlash.Proofs.Logs
import SerialFlash.Proofs.Relaying
import SerialFlash.Proofs.Speech
import SerialFlash.Delivery

/-!
Only well-formed commands reach the bus. Whatever a driver sends spells an instruction inside its
device, so the chip knows the shape of every transaction, on any link, and an error of the bus is
never that a shape is unknown. On a multi-line link each phase of a frame runs on the right number
of lines, and the dummy phase of an array read is as long as the configuration asks for, the mode
byte included. A frame with another mode byte could leave a part in continuous read.
-/

namespace SerialFlash

/-- The instructions that read the array. -/
def Opcode.arrayReads : List Opcode :=
  [.read, .fastRead, .fastReadDualOutput, .fastReadDualIo, .fastReadQuadOutput, .fastReadQuadIo]

namespace Frame

variable {config : LineConfig} {f : Frame}

def ReadsArray (f : Frame) : Prop :=
  f.opcode ∈ Opcode.arrayReads.map Opcode.byte

/-- A read on the lines of the configuration. The one-line read has no mode byte, the others send
all ones, and mode byte and idle cycles together fill the dummy phase. -/
structure SuitsRead (config : LineConfig) (f : Frame) : Prop where
  addressLines : f.addressLines = config.width.lines
  dataLines : f.dataLines = config.width.lines
  modeByte : f.modeByte = if config.width = .single then none else some 0xFF
  modeLines : f.modeLines = if config.width = .single then .none else config.width.lines
  dummyPhase : f.modeLines.cyclesPerByte + f.dummyCycles = config.dummyCycles

/-- A command on one line without a dummy phase. Only the four-line program has its data on more
lines. -/
structure Plain (f : Frame) : Prop where
  modeByte : f.modeByte = none
  dummyCycles : f.dummyCycles = 0
  addressLines : f.addressLines = .none ∨ f.addressLines = .single
  dataLines : f.dataLines = .quad ↔ f.opcode = 0x32

structure WellFormed (config : LineConfig) (f : Frame) : Prop where
  opcodeLines : f.opcodeLines = .single
  address : f.address.isSome ↔ f.addressLines ≠ .none
  modeByte : f.modeByte.isSome ↔ f.modeLines ≠ .none
  read : f.ReadsArray → f.SuitsRead config
  other : ¬ f.ReadsArray → f.Plain

theorem WellFormed.plain (op : Opcode) (address : Option Nat) (data : Lines)
    (other : op.byte ∉ Opcode.arrayReads.map Opcode.byte)
    (narrow : data = .quad ↔ op.byte = 0x32) :
    Frame.WellFormed config { instruction op.byte with
      address := address
      addressLines := match address with | some _ => .single | none => .none
      dataLines := data } where
  opcodeLines := rfl
  address := by cases address <;> simp
  modeByte := by simp [instruction]
  read read := absurd read other
  other _ := ⟨rfl, rfl, by cases address <;> simp, narrow⟩

end Frame

namespace LineConfig

variable (config : LineConfig)

theorem wellFormed_readFrame (address : Nat) :
    (config.readFrame config.width.readOpcode.byte address).WellFormed config := by
  have suits : (config.readFrame config.width.readOpcode.byte address).SuitsRead config := by
    obtain ⟨width, dummy, pos, le, mode⟩ := config
    cases width <;> refine ⟨rfl, rfl, rfl, rfl, ?_⟩
    · exact Nat.zero_add dummy
    · exact Nat.add_sub_of_le mode
    · exact Nat.add_sub_of_le mode
  have reads : (config.readFrame config.width.readOpcode.byte address).ReadsArray := by
    cases width : config.width <;> simp [Frame.ReadsArray, readFrame, width] <;> decide
  have addressed : (config.readFrame config.width.readOpcode.byte address).address =
      some address := by simp [readFrame]
  refine ⟨by simp [readFrame], ?_, ?_, fun _ => suits, fun other => absurd reads other⟩
  · rw [addressed, suits.addressLines]
    cases config.width <;> simp [Width.lines]
  · rw [suits.modeByte, suits.modeLines]
    cases config.width <;> decide

theorem wellFormed_programFrame (address : Nat) :
    (programFrame config.width.programOpcode.byte address).WellFormed config := by
  cases config.width with
  | single | dual => exact .plain .pageProgram address .single (by decide) (by decide)
  | quad => exact .plain .quadPageProgram address .quad (by decide) (by decide)

/-- Every instruction goes out in a well-formed frame. -/
theorem wellFormed_frame (i : Instruction) :
    (config.frame ((Link.wide config).request i)).WellFormed config := by
  cases i with
  | readArray address length => exact config.wellFormed_readFrame address
  | programPage address data => exact config.wellFormed_programFrame address
  | eraseSector unit address =>
    cases unit with
    | sector4K => exact .plain .sectorErase4K address .none (by decide) (by decide)
    | block64K => exact .plain .blockErase64K address .none (by decide) (by decide)
  | writeEnable => exact .plain .writeEnable none .none (by decide) (by decide)
  | readStatus1 => exact .plain .readStatus1 none .single (by decide) (by decide)
  | readStatus2 => exact .plain .readStatus2 none .single (by decide) (by decide)
  | writeStatus first second => exact .plain .writeStatus none .single (by decide) (by decide)
  | readId => exact .plain .readId none .single (by decide) (by decide)
  | readUniqueId => exact .plain .readUniqueId none .single (by decide) (by decide)
  | eraseChip => exact .plain .chipErase none .none (by decide) (by decide)
  | powerDown => exact .plain .powerDown none .none (by decide) (by decide)
  | releasePowerDown => exact .plain .releasePowerDown none .none (by decide) (by decide)

end LineConfig

/-- What a link spells legibly fits its 24 address bits. -/
theorem Link.fits_of_legible (l : Link) {i : Instruction} (legible : (l.request i).Legible) :
    i.Fits := by
  cases i with
  | readArray address length => exact legible
  | programPage address data => exact legible.2
  | eraseSector unit address => exact legible.2
  | _ => trivial

namespace Session

variable {s : Session} {a : Action} {config : LineConfig}

/-- The chip knows the shape of whatever the driver sends. -/
theorem understood_of_said (recognised : s.Recognised) {request : Request} {reply : Reply}
    (said : .exchanged request reply ∈ s.events a) : reply ≠ .error .unsupported := by
  obtain ⟨d, found⟩ := exists_driver_of_said said
  have bound := (recognised.driver d found).2.suits.bound
  obtain ⟨i, speech, spelt⟩ := exists_said recognised found said
  obtain ⟨⟨b, i'⟩, -, spelt', answered⟩ := mem_events_iff.mp said
  have legible := s.bench.link.legible_request (speech.inside.fits bound)
  rw [← spelt, ← spelt'] at legible
  rw [← answered]
  rcases b.send_cases (b.link.fits_of_legible legible) with ⟨-, failed, -⟩ | ⟨answer, -⟩
  · rw [failed]
    nofun
  · rw [answer]
    nofun

/-- No operation fails for the shape of a transaction. -/
theorem understood_of_failed (recognised : s.Recognised) :
    (s.step a).1 ≠ .flash (.error (.bus .unsupported)) := by
  intro failed
  cases a with
  | flash operation =>
    cases found : s.device.driver? with
    | none => simp [Session.step, found] at failed
    | some d =>
      rw [step_flash_eq found] at failed
      rcases run : (operation.run.script d).run s.bench with ⟨⟨r, d'⟩, b'⟩
      rw [run] at failed
      cases failed
      obtain ⟨request, said⟩ := operation.exists_exchanged_of_bus run
      have event : .exchanged request (.error .unsupported) ∈ s.events (.flash operation) := by
        simp only [events, found]
        exact List.mem_append_left _ said
      exact understood_of_said recognised event rfl
  | disk operation | join first second =>
    simp only [Session.step, Session.onDisk] at failed
    split at failed
    · cases failed
    · split at failed <;> cases failed
  | request r =>
    simp only [Session.step] at failed
    split at failed <;> cases failed
  | intoDisk format =>
    simp only [Session.step] at failed
    split at failed
    · split at failed <;> cases failed
    · cases failed
    · cases failed
  | _ => cases failed

/-- The chip notes one well-formed frame for every instruction of an action. -/
theorem wellFormed_step (recognised : s.Recognised) (link : s.bench.link = .wide config)
    (through : a.Through fun _ => True)
    (known : ∀ f ∈ s.bench.chip.frameLog.toList, f.WellFormed config) :
    ∀ f ∈ (s.step a).2.bench.chip.frameLog.toList, f.WellFormed config := by
  rw [logs_step Chip.logs_frames through]
  refine List.forall_mem_append.mpr ⟨known, fun f noted => ?_⟩
  obtain ⟨event, said, entry⟩ := List.mem_filterMap.mp noted
  cases event with
  | returned => contradiction
  | exchanged request reply =>
    obtain ⟨d, found⟩ := exists_driver_of_said said
    obtain ⟨i, -, rfl⟩ := exists_said recognised found said
    rw [link] at entry
    cases entry
    exact config.wellFormed_frame i

/-- On a multi-line link every frame that a driver or a disk sends is well-formed, whatever faults
are armed and however the chip is set up. On no link does the chip answer a request of theirs that
it does not know its shape, so no operation fails with that error. -/
theorem only_wellFormed_commands (id : Identity) (link : Link) (compareBuffer : CompareBuffer)
    (options : DriverOptions) (actions : List Action) :
    (∀ config, link = .wide config → (∀ a ∈ actions, a.Through fun _ => True) →
      (∀ link' options', .rebuild link' options' ∈ actions → link' = link) →
      ∀ f ∈ ((create id link compareBuffer options).run actions).bench.chip.frameLog.toList,
        f.WellFormed config) ∧
    ∀ s, s = (create id link compareBuffer options).run actions → ∀ a,
      (∀ request, .exchanged request (.error .unsupported) ∉ s.events a) ∧
      (s.step a).1 ≠ .flash (.error (.bus .unsupported)) := by
  have start := recognised_create id link compareBuffer options
  refine ⟨fun config wide through same => ?_, ?_⟩
  · refine (run_preserves (I := fun s => s.Recognised ∧ s.bench.link = .wide config ∧
      ∀ f ∈ s.bench.chip.frameLog.toList, f.WellFormed config) ?_
        ⟨start, wide, List.forall_mem_nil _⟩).2.2
    rintro s a mem ⟨recognised, linked, known⟩
    refine ⟨recognised.step a, ?_, wellFormed_step recognised linked (through a mem) known⟩
    cases a with
    | rebuild link' options' => exact (same link' options' mem).trans wide
    | _ => exact (link_step (by rintro _ _ ⟨⟩)).trans linked
  · rintro s rfl a
    exact ⟨fun request said => understood_of_said (start.run actions) said rfl,
      understood_of_failed (start.run actions)⟩

/-- A four-line read sends its mode byte in two cycles and idles for four more. -/
theorem quad_read_wellFormed :
    ∃ f ∈ ((create ⟨0xEF, 0x40, 0x14⟩ (.wide .standard) .standard .standard).run
        [.flash .identify, .configure (.failOpcode 0xEB 0),
          .flash (.read 4 8)]).bench.chip.frameLog.toList,
      f.WellFormed .standard ∧ f.opcode = 0xEB ∧ f.address = some 4 ∧ f.modeByte = some 0xFF ∧
        f.modeLines = .quad ∧ f.dummyCycles = 4 := by
  have wellFormed := (only_wellFormed_commands ⟨0xEF, 0x40, 0x14⟩ (.wide .standard) .standard
    .standard [.flash .identify, .configure (.failOpcode 0xEB 0), .flash (.read 4 8)]).1 .standard
    rfl (by simp [Action.Through]) (by simp)
  have last : ((create ⟨0xEF, 0x40, 0x14⟩ (.wide .standard) .standard .standard).run
      [.flash .identify, .configure (.failOpcode 0xEB 0),
        .flash (.read 4 8)]).bench.chip.frameLog.toList.getLast? =
      some ⟨0xEB, .single, some 4, .quad, some 0xFF, .quad, 4, .quad⟩ := rfl
  have noted := List.mem_of_getLast? last
  exact ⟨_, noted, wellFormed _ noted, rfl, rfl, rfl, rfl, rfl⟩

end Session

end SerialFlash
