import SerialFlash.Proofs.Initialised
import SerialFlash.Proofs.Lockstep

/-!
Links cannot be told apart. A one-line link carries every request that a driver puts on it
without loss, so that a session over it is the session on the chip itself, down to the last
counter. A multi-line link puts array reads and page programs on its wires with opcodes of its
own; on a chip whose quad-enable bit is set they do the same, so that the sessions differ in
nothing but these opcodes, and in the bit.
-/

namespace SerialFlash

open Procedure

/-- What comes of an instruction that is put on the link. -/
theorem Bench.send_eq (b : Bench) {i : Instruction} (fits : i.Fits) :
    ((b.send i).1, (b.send i).2.chip) =
      (b.link.logged b.chip (b.link.request i)).perform (b.link.request i) :=
  b.link.exchange_request b.chip fits

/-! ### One line -/

namespace Bench

/-- The same chip on itself and over one line, at the same time. -/
structure Serialised (b b' : Bench) : Prop where
  link : b.link = .direct
  link' : b'.link = .spi
  chip : b'.chip = b.chip
  clock : b'.clock = b.clock

theorem Serialised.send {b b' : Bench} (h : b.Serialised b') {i : Instruction} (fits : i.Fits) :
    (b'.send i).1 = (b.send i).1 ∧ (b.send i).2.Serialised (b'.send i).2 := by
  have same : Link.spi.request i = Link.direct.request i := by cases i <;> rfl
  have sent := b.send_eq fits
  have sent' := b'.send_eq fits
  rw [h.link] at sent
  rw [h.link', h.chip, same] at sent'
  obtain ⟨reply, chip⟩ := Prod.mk.inj (sent'.trans sent.symm)
  exact ⟨reply, h.link, h.link', chip, h.clock⟩

theorem serialised_parallel :
    Parallel True True (fun _ => True) Serialised where
  send _ _ _ said h := h.send said.1
  wait _ _ ns h := ⟨h.link, h.link', h.chip, congrArg (Clock.wait · ns) h.clock⟩
  waitFirst unpaced := absurd trivial unpaced
  waitSecond unpaced := absurd trivial unpaced
  configure _ _ setting _ h :=
    ⟨h.link, h.link', congrArg (Chip.configure · setting) h.chip, h.clock⟩

end Bench

theorem Driver.Siblings.eq {d d' : Driver} (h : d.Siblings True True d') : d' = d := by
  obtain ⟨_, -, -, _, _, _, rfl, link, pace⟩ := h
  obtain rfl := link trivial
  obtain ⟨rfl, rfl⟩ := pace trivial
  rfl

/-- Whatever is done with driver and disk, and however the chip is set up and faults are armed in
between, a session over a one-line link has the outcomes that it has on the chip itself, and the
same driver, chip and clock at every time. -/
theorem Session.spi_is_direct (id : Identity) (compareBuffer : CompareBuffer)
    (options : DriverOptions) (actions : List Action)
    (common : ∀ a ∈ actions, a.Common True fun _ => True) :
    (create id .spi compareBuffer options).outcomes actions =
        (create id .direct compareBuffer options).outcomes actions ∧
      ((create id .spi compareBuffer options).run actions).device =
        ((create id .direct compareBuffer options).run actions).device ∧
      ((create id .spi compareBuffer options).run actions).bench.chip =
        ((create id .direct compareBuffer options).run actions).bench.chip ∧
      ((create id .spi compareBuffer options).run actions).bench.clock =
        ((create id .direct compareBuffer options).run actions).bench.clock := by
  have start : (create id .direct compareBuffer options).Alongside True True Bench.Serialised
      (create id .spi compareBuffer options) :=
    ⟨.bare ⟨_, rfl, Layout.suits_unknown _, _, _, _, rfl, fun _ => rfl, fun _ => ⟨rfl, rfl⟩⟩,
      rfl, rfl, rfl, rfl⟩
  obtain ⟨outcomes, devices, benches⟩ := start.run Bench.serialised_parallel common
  refine ⟨outcomes, ?_, benches.chip, benches.clock⟩
  generalize ((create id .direct compareBuffer options).run actions).device = device at devices ⊢
  generalize ((create id .spi compareBuffer options).run actions).device = device' at devices ⊢
  cases devices with
  | bare h | disk h | shared h => rw [h.eq]
  | gone => rfl

/-- A write that an armed fault breaks off is broken off at the same place. -/
theorem Session.spi_is_direct_when_broken_off :
    (∀ a ∈ [.configure (.failAny 3), .flash .identify, .flash (.program 0 [1, 2])],
        Action.Common True (fun _ => True) a) ∧
      (create ⟨0xEF, 0x40, 0x14⟩ .spi .standard .standard).outcomes
          [.configure (.failAny 3), .flash .identify, .flash (.program 0 [1, 2])] =
        (create ⟨0xEF, 0x40, 0x14⟩ .direct .standard .standard).outcomes
          [.configure (.failAny 3), .flash .identify, .flash (.program 0 [1, 2])] := by
  have common : ∀ a ∈ [.configure (.failAny 3), .flash .identify, .flash (.program 0 [1, 2])],
      Action.Common True (fun _ => True) a := by
    simp [Action.Common]
  exact ⟨common, (spi_is_direct ⟨0xEF, 0x40, 0x14⟩ .standard .standard _ common).1⟩

/-! ### Several lines -/

namespace LineConfig

variable {config : LineConfig} {opcode : UInt8} {armed : Option (UInt8 × Nat)}

/-- The opcode that goes out on the link in place of the plain one. -/
def rename (config : LineConfig) (opcode : UInt8) : UInt8 :=
  if opcode = Opcode.read.byte then config.width.readOpcode.byte
  else if opcode = Opcode.pageProgram.byte then config.width.programOpcode.byte
  else opcode

/-- Neither reads nor programs the array, on the link or without it. -/
def Spares (config : LineConfig) (opcode : UInt8) : Prop :=
  opcode ≠ Opcode.read.byte ∧ opcode ≠ Opcode.pageProgram.byte ∧
    opcode ≠ config.width.readOpcode.byte ∧ opcode ≠ config.width.programOpcode.byte

theorem opcode_request_wide (config : LineConfig) (i : Instruction) :
    ((Link.wide config).request i).opcode = config.rename (Link.direct.request i).opcode := by
  cases i with
  | eraseSector unit address => cases unit <;> rfl
  | _ => rfl

/-- A fault on another opcode does not see the difference. -/
theorem countOpcode_rename (spared : ∀ target skip, armed = some (target, skip) →
    config.Spares target) :
    Faults.countOpcode (config.rename opcode) armed = Faults.countOpcode opcode armed := by
  rcases armed with _ | ⟨target, skip⟩
  · rfl
  · obtain ⟨read, program, wideRead, wideProgram⟩ := spared target skip rfl
    have same : target = config.rename opcode ↔ target = opcode := by
      unfold rename
      split
      · next plain => simp [plain, read, wideRead]
      · split
        · next plain => simp [plain, program, wideProgram]
        · exact Iff.rfl
    simp only [Faults.countOpcode, same]

theorem count_rename {f : Faults} (spared : ∀ target skip, f.onOpcode = some (target, skip) →
    config.Spares target) : f.count (config.rename opcode) = f.count opcode := by
  unfold Faults.count
  rw [countOpcode_rename spared]

end LineConfig

/-- The quad-enable bit is left to the driver, and no fault is armed on an opcode in which the
links differ. -/
def Setting.Spares (config : LineConfig) : Setting → Prop
  | quadEnabled _ => False
  | failOpcode opcode _ => config.Spares opcode
  | _ => True

/-- A fault that is still armed has the target that it was armed with. -/
theorem Faults.target_of_count {f : Faults} {opcode target : UInt8} {skip : Nat}
    (armed : (f.count opcode).2.onOpcode = some (target, skip)) :
    ∃ skip, f.onOpcode = some (target, skip) := by
  obtain ⟨onAny, onOpcode⟩ := f
  have counted (h : (countOpcode opcode onOpcode).2 = some (target, skip)) :
      ∃ skip, onOpcode = some (target, skip) := by
    rcases onOpcode with _ | ⟨target', skip'⟩
    · contradiction
    · simp only [countOpcode] at h
      split at h
      · split at h <;> cases h
        exact ⟨_, rfl⟩
      · cases h
        exact ⟨_, rfl⟩
  unfold count at armed
  split at armed
  · exact ⟨skip, armed⟩
  · exact counted armed
  · exact counted armed

namespace Chip

/-- The same chip with the quad-enable bit set. -/
def withQuad (c : Chip) : Chip :=
  { c with quadEnabled := true }

/-- On a chip that may use all its lines, an instruction does on several lines what it does on
one. -/
theorem obey_wide (c : Chip) (config : LineConfig) {i : Instruction} (routine : i.Routine) :
    c.withQuad.obey (.wide config) i = ((c.obey .direct i).1, (c.obey .direct i).2.withQuad) := by
  have serves : c.withQuad.serves (.wide config) = true := Bool.or_true _
  have direct : c.serves .direct = true := rfl
  have responsive : c.withQuad.responsive = c.responsive := rfl
  cases i with
  | readId | readStatus2 | writeStatus => exact routine.elim
  | writeEnable =>
    rw [obey_writeEnable, obey_writeEnable, responsive]
    split <;> rfl
  | readStatus1 =>
    rw [obey_readStatus1, obey_readStatus1]
    show (if c.poweredDown then _ else _) = _
    split <;> rfl
  | readUniqueId =>
    simp only [obey, Link.request, Request.receive, execute, runReceive, Opcode.ofByte?_byte,
      responsive]
    cases c.responsive <;> rfl
  | readArray address length =>
    rw [obey_readArray, obey_readArray, serves, direct, responsive]
    split <;> rfl
  | programPage address data =>
    rw [obey_programPage, obey_programPage, serves, direct, responsive]
    show ([], if c.responsive && c.writeEnabled && true then _ else _) = _
    split <;> rfl
  | eraseSector unit address =>
    rw [obey_eraseSector, obey_eraseSector, responsive]
    show ([], if c.responsive && c.writeEnabled then _ else _) = _
    split <;> rfl
  | eraseChip =>
    rw [obey_eraseChip, obey_eraseChip, responsive]
    show ([], if c.responsive && c.writeEnabled then _ else _) = _
    split <;> rfl
  | powerDown =>
    rw [obey_powerDown, obey_powerDown, responsive]
    split <;> rfl
  | releasePowerDown =>
    rw [obey_releasePowerDown, obey_releasePowerDown]
    rfl

theorem faults_perform (c : Chip) (r : Request) :
    (c.perform r).2.faults = (c.faults.count r.opcode).2 := by
  rw [perform_eq]
  split
  · rfl
  · exact faults_execute _ r

/-- Both chips start the transaction alike, and carry it out alike if it comes to that. -/
theorem perform_wide (c : Chip) (config : LineConfig) {i : Instruction} (routine : i.Routine)
    (spared : ∀ target skip, c.faults.onOpcode = some (target, skip) → config.Spares target)
    (opcodes : Array UInt8) (frames : Array Frame) :
    (c.withQuad.withBooks c.faults opcodes frames).perform ((Link.wide config).request i) =
      ((c.perform (Link.direct.request i)).1,
        (c.perform (Link.direct.request i)).2.withQuad.withBooks
          (c.perform (Link.direct.request i)).2.faults
          (opcodes.push (config.rename (Link.direct.request i).opcode)) frames) := by
  have started (o : UInt8) :
      (c.withQuad.withBooks c.faults opcodes frames).start (config.rename o) =
        ((c.start o).1, (c.start o).2.withQuad.withBooks (c.start o).2.faults
          (opcodes.push (config.rename o)) frames) := by
    simp only [start, faults_withBooks, LineConfig.count_rename spared]
    rfl
  rw [perform_eq, perform_eq, config.opcode_request_wide, started]
  split
  · rfl
  · have obeyed := obey_wide (c.start (Link.direct.request i).opcode).2 config routine
    simp only [obey] at obeyed
    rw [execute_withBooks, obeyed, faults_execute]

end Chip

namespace Bench

/-- The second bench is the first one on several lines. The chip on it may use them all, and
since the start it has heard the same, in the link's own opcodes, and has waited as long. -/
structure Widened (config : LineConfig) (start start' : Bench) (b b' : Bench) : Prop where
  link : b.link = .direct
  link' : b'.link = .wide config
  spared : ∀ target skip, b.chip.faults.onOpcode = some (target, skip) → config.Spares target
  chip : ∃ heard frames, b.chip.opcodeLog = start.chip.opcodeLog ++ heard ∧
    b'.chip = b.chip.withQuad.withBooks b.chip.faults
      (start'.chip.opcodeLog ++ heard.map config.rename) frames
  clock : ∃ nanoseconds calls,
    b.clock = ⟨start.clock.nanoseconds + nanoseconds, start.clock.calls + calls⟩ ∧
      b'.clock = ⟨start'.clock.nanoseconds + nanoseconds, start'.clock.calls + calls⟩

variable {config : LineConfig} {start start' b b' : Bench}

theorem Widened.send (h : Widened config start start' b b') {i : Instruction} (fits : i.Fits)
    (routine : i.Routine) :
    (b'.send i).1 = (b.send i).1 ∧ Widened config start start' (b.send i).2 (b'.send i).2 := by
  obtain ⟨heard, frames, log, chip⟩ := h.chip
  have sent := b.send_eq fits
  have sent' := b'.send_eq fits
  have logged (frames' : Array Frame) : { b'.chip with frameLog := frames' } =
      b.chip.withQuad.withBooks b.chip.faults
        (start'.chip.opcodeLog ++ heard.map config.rename) frames' := by
    rw [chip]
    rfl
  rw [h.link] at sent
  rw [h.link', Link.logged, logged, Chip.perform_wide _ _ routine h.spared] at sent'
  have chip₁ : (b.send i).2.chip = (b.chip.perform (Link.direct.request i)).2 :=
    congrArg Prod.snd sent
  have chip₁' := congrArg Prod.snd sent'
  refine ⟨(congrArg Prod.fst sent').trans (congrArg Prod.fst sent).symm, h.link, h.link', ?_,
    ⟨heard.push (Link.direct.request i).opcode,
      b'.chip.frameLog.push (config.frame ((Link.wide config).request i)), ?_, ?_⟩, h.clock⟩
  · intro target skip armed
    rw [chip₁, Chip.faults_perform] at armed
    obtain ⟨skip, armed⟩ := Faults.target_of_count armed
    exact h.spared target skip armed
  · rw [chip₁, Chip.opcodeLog_perform, Array.append_push, ← log]
  · rw [chip₁, Array.map_push, Array.append_push]
    exact chip₁'

theorem widened_parallel (config : LineConfig) (start start' : Bench) :
    Parallel False True (Setting.Spares config) (Widened config start start') where
  send _ _ _ said h := h.send said.1 (said.2 id)
  wait b b' ns h := by
    obtain ⟨nanoseconds, calls, clock, clock'⟩ := h.clock
    refine ⟨h.link, h.link', h.spared, h.chip, nanoseconds + ns, calls + 1, ?_, ?_⟩
    · simp only [Bench.wait, Clock.wait, clock, Nat.add_assoc]
    · simp only [Bench.wait, Clock.wait, clock', Nat.add_assoc]
  waitFirst unpaced := absurd trivial unpaced
  waitSecond unpaced := absurd trivial unpaced
  configure b b' setting allowed h := by
    obtain ⟨heard, frames, log, chip⟩ := h.chip
    refine ⟨h.link, h.link', ?_, ⟨heard, frames, ?_, ?_⟩, h.clock⟩
    · intro target skip armed
      cases setting with
      | failOpcode opcode skip => cases armed; exact allowed
      | _ => exact h.spared target skip armed
    · cases setting <;> exact log
    · show b'.chip.configure setting = _
      rw [chip]
      cases setting with
      | quadEnabled on => exact allowed.elim
      | _ => rfl

end Bench

/-- Drivers that pause alike differ in what they need of the link. -/
theorem Device.Alongside.rewired {device device' : Device}
    (h : device.Alongside False True device') :
    device = .gone ∧ device' = .gone ∨ ∃ d needsQuad, device.driver? = some d ∧
      device' = device.withDriver { d with needsQuad } := by
  have rewired {d d' : Driver} (h : d.Siblings False True d') :
      ∃ needsQuad, d' = { d with needsQuad } := by
    obtain ⟨_, -, -, needsQuad, _, _, rfl, -, pace⟩ := h
    obtain ⟨rfl, rfl⟩ := pace trivial
    exact ⟨needsQuad, rfl⟩
  cases h with
  | gone => exact .inl ⟨rfl, rfl⟩
  | bare h | disk h | shared h =>
    obtain ⟨needsQuad, rfl⟩ := rewired h
    exact .inr ⟨_, needsQuad, rfl, rfl⟩

namespace Session

/-- Some actions, of any kind, lead to the session. -/
def Reached (s : Session) : Prop :=
  ∃ id link compareBuffer options actions, s = (create id link compareBuffer options).run actions

theorem Reached.run {s : Session} (h : s.Reached) (actions : List Action) :
    (s.run actions).Reached := by
  obtain ⟨id, link, compareBuffer, options, before, rfl⟩ := h
  exact ⟨id, link, compareBuffer, options, before ++ actions, (run_append _ _ _).symm⟩

theorem Reached.recognised {s : Session} (h : s.Reached) : s.Recognised := by
  obtain ⟨id, link, compareBuffer, options, actions, rfl⟩ := h
  exact (recognised_create id link compareBuffer options).run actions

theorem Reached.fitted {s : Session} (h : s.Reached) : s.Fitted := by
  obtain ⟨id, link, compareBuffer, options, actions, rfl⟩ := h
  exact (recognised_fitted_run ⟨recognised_create id link compareBuffer options,
    fitted_create id link compareBuffer options⟩ actions).2

/-- Raw requests can only put the chip to sleep, or keep it from serving its link. In every other
respect the driver is settled in every state that any actions lead to. -/
theorem Reached.settled {alone : Prop} {s : Session} (h : s.Reached) {d : Driver}
    (found : s.device.driver? = some d)
    (awake : d.state.Active → s.bench.chip.poweredDown = false)
    (serves : alone → s.bench.chip.serves s.bench.link = true) :
    d.Settled alone d.options.eraseUnit s.bench := by
  obtain ⟨rest, known⟩ := h.recognised.driver d found
  have knows : d.Sized → d.Knows alone s.bench := by
    rintro ⟨size, listed, layout⟩
    obtain rfl := h.recognised.genuine size (known.identity size listed ▸ listed)
    exact ⟨known.identity _ listed ▸ listed, layout, serves⟩
  refine ⟨⟨rfl, h.fitted.needsQuad d found, h.recognised.genuine, known.layout.imp_right knows,
    fun active => ⟨knows (known.sized ?_), awake active⟩⟩, rest⟩
  cases state : d.state with
  | ready => exact .inl rfl
  | erasing => exact .inr rfl
  | notReady | failed | reading | programming => simp_all [DriverState.Active, DriverState.AtRest]

/-- Ready drivers of one configuration on chips with one identity know the same. -/
theorem siblings_of_ready {s w : Session} (recognised : s.Recognised) (recognised' : w.Recognised)
    (id : w.bench.chip.id = s.bench.chip.id) {d d' : Driver} (found : s.device.driver? = some d)
    (found' : w.device.driver? = some d') (ready : d.state = .ready) (ready' : d'.state = .ready)
    (options : d'.options = d.options) (compareBuffer : d'.compareBuffer = d.compareBuffer) :
    d.Siblings False True d' := by
  have known := (recognised.driver d found).2
  have known' := (recognised'.driver d' found').2
  obtain ⟨size, listed, layout⟩ := known.sized (.inl ready)
  obtain ⟨size', listed', layout'⟩ := known'.sized (.inl ready')
  have identity : d'.identity = d.identity := by
    rw [known.identity size listed, known'.identity size' listed', id]
  obtain rfl : size' = size := by
    rw [identity, listed] at listed'
    exact (Option.some.inj listed').symm
  refine ⟨_, layout, Layout.suits_tile listed _, d'.needsQuad, d.options.pauses,
    d.options.pollInterval, ?_, False.elim, fun _ => ⟨rfl, rfl⟩⟩
  obtain ⟨_, _, needsQuad, _, _, _⟩ := d'
  obtain ⟨_, _, _, _, _, _⟩ := d
  simp_all [Driver.tuned]

/-- Take two ready drivers of one configuration, one on a chip itself and one on several lines of
a chip that differs in its quad-enable bit, which is set. Whatever is then done with driver and
disk, identification apart, and however the chips are set up and faults are armed in between, the
outcomes, the states of the drivers and the chips are the same. What was heard on the several
lines differs in the opcodes of the link. -/
theorem wide_is_direct {s w : Session} {config : LineConfig} (reached : s.Reached)
    (reached' : w.Reached) {d d' : Driver} (device : s.device = .bare d)
    (device' : w.device = .bare d') (ready : d.state = .ready) (ready' : d'.state = .ready)
    (options : d'.options = d.options) (compareBuffer : d'.compareBuffer = d.compareBuffer)
    (link : s.bench.link = .direct) (link' : w.bench.link = .wide config)
    (chip : w.bench.chip = { s.bench.chip with
      quadEnabled := true
      opcodeLog := w.bench.chip.opcodeLog
      frameLog := w.bench.chip.frameLog })
    (spared : ∀ target skip, s.bench.chip.faults.onOpcode = some (target, skip) →
      config.Spares target)
    (actions : List Action) (common : ∀ a ∈ actions, a.Common False (Setting.Spares config)) :
    w.outcomes actions = s.outcomes actions ∧
      ((s.run actions).device = .gone ∧ (w.run actions).device = .gone ∨
        ∃ d needsQuad, (s.run actions).device.driver? = some d ∧
          (w.run actions).device = (s.run actions).device.withDriver { d with needsQuad }) ∧
      (∃ heard, (s.run actions).bench.chip.opcodeLog = s.bench.chip.opcodeLog ++ heard ∧
        (w.run actions).bench.chip = { (s.run actions).bench.chip with
          quadEnabled := true
          opcodeLog := w.bench.chip.opcodeLog ++ heard.map config.rename
          frameLog := (w.run actions).bench.chip.frameLog }) ∧
      ∃ nanoseconds calls,
        (s.run actions).bench.clock =
          ⟨s.bench.clock.nanoseconds + nanoseconds, s.bench.clock.calls + calls⟩ ∧
        (w.run actions).bench.clock =
          ⟨w.bench.clock.nanoseconds + nanoseconds, w.bench.clock.calls + calls⟩ := by
  have siblings := siblings_of_ready reached.recognised reached'.recognised (by rw [chip])
    (by rw [device]; rfl) (by rw [device']; rfl) ready ready' options compareBuffer
  have start : s.Alongside False True (Bench.Widened config s.bench w.bench) w := by
    refine ⟨?_, link, link', spared, ⟨#[], w.bench.chip.frameLog, ?_, ?_⟩, 0, 0, rfl, rfl⟩
    · rw [device, device']
      exact .bare siblings
    · rw [Array.append_empty]
    · rw [Array.map_empty, Array.append_empty]
      exact chip
  obtain ⟨outcomes, devices, benches⟩ :=
    start.run (Bench.widened_parallel config s.bench w.bench) common
  obtain ⟨heard, frames, log, chips⟩ := benches.chip
  refine ⟨outcomes, devices.rewired, ⟨heard, log, ?_⟩, benches.clock⟩
  rw [chips]
  rfl

/-- After an identification on four lines a program has the outcome that it has on one. -/
theorem wide_is_direct_after_identify :
    ((create ⟨0xEF, 0x40, 0x14⟩ (.wide .standard) .standard .standard).run
        [.flash .identify]).outcomes [.flash (.program 0 [1, 2])] =
      ((create ⟨0xEF, 0x40, 0x14⟩ .direct .standard .standard).run
        [.flash .identify]).outcomes [.flash (.program 0 [1, 2])] := by
  obtain ⟨d, d', device, device', ready, ready', options, compareBuffer⟩ : ∃ d d',
      ((create ⟨0xEF, 0x40, 0x14⟩ .direct .standard .standard).run
        [.flash .identify]).device = .bare d ∧
      ((create ⟨0xEF, 0x40, 0x14⟩ (.wide .standard) .standard .standard).run
        [.flash .identify]).device = .bare d' ∧
      d.state = .ready ∧ d'.state = .ready ∧ d'.options = d.options ∧
      d'.compareBuffer = d.compareBuffer := ⟨_, _, rfl, rfl, rfl, rfl, rfl, rfl⟩
  exact (wide_is_direct ⟨_, _, _, _, _, rfl⟩ ⟨_, _, _, _, _, rfl⟩ device device' ready ready'
    options compareBuffer rfl rfl rfl nofun _ (by simp [Action.Common])).1

end Session

end SerialFlash
