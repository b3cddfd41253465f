import SerialFlash.Proofs.StateMachine

/-!
What a driver knows of its chip. Only an identification learns an identity, and it takes it
from the chip's own answer, so a listed identity is that of the chip in every state that any
actions lead to, raw requests included. The layout is unknown, or the one that the identity
stands for, and always the latter if the driver is ready or erasing. An identification that
fails behind the answer forgets the layout, and without one there is no way to the ready
state but another identification.
-/

namespace SerialFlash

open Procedure

/-! ### One chip -/

namespace Chip

variable {c : Chip}

/-- A whole one-line transaction, of any form, may put several requests to the chip. -/
theorem endures_spiFrom (sent : Bytes) (answers : List Bytes) (operations : List SpiOperation) :
    c.Endures (c.spiFrom sent answers operations).2 := by
  induction operations generalizing c sent answers with
  | nil =>
    simp only [spiFrom]
    split
    · split
      · next r _ =>
        have heard := (c.heard_perform r).endures
        split <;> next performed => rwa [performed] at heard
      · exact .refl c
    · exact .refl c
  | cons operation rest ih =>
    cases operation with
    | write data => exact ih _ _
    | read length =>
      simp only [spiFrom]
      split
      · next r _ =>
        have heard := (c.heard_perform r).endures
        split
        · next performed =>
          rw [performed] at heard
          exact heard.trans (ih _ _)
        · next performed => rwa [performed] at heard
      · exact .refl c
    | delay nanoseconds => exact ih _ _
    | transfer length data | transferInPlace data => exact .refl c

theorem id_configure (c : Chip) (setting : Setting) : (c.configure setting).id = c.id := by
  cases setting <;> rfl

end Chip

namespace Session

variable {s : Session} {a : Action} {α : Type}

theorem chip_onDisk (op : StateT Disk Script α) (wrap : α → Outcome) :
    s.bench.chip.Endures (s.onDisk op wrap).2.bench.chip := by
  simp only [Session.onDisk]
  cases s.device.disk? with
  | none => exact .refl _
  | some d => exact (endures_run (op.run d) s.bench).2

/-- Only a setting does more to a chip than time does. -/
theorem endures_step (other : ∀ setting, a ≠ .configure setting) :
    s.bench.chip.Endures (s.step a).2.bench.chip := by
  cases a with
  | configure setting => exact absurd rfl (other setting)
  | flash operation =>
    cases found : s.device.driver? with
    | none => simp only [Session.step, found, Chip.Endures.refl]
    | some driver =>
      rw [step_flash_eq found]
      exact (endures_run (operation.run.script driver) s.bench).2
  | disk operation => exact chip_onDisk _ _
  | join first second => exact chip_onDisk _ _
  | request r =>
    obtain ⟨compareBuffer, device, b⟩ := s
    cases device with
    | gone => exact .refl _
    | bare | disk | shared => exact (b.chip.heard_exchange b.link r).endures
  | frame f phase => exact (s.bench.chip.heard_performFrame f phase).endures
  | spi operations => exact Chip.endures_spiFrom _ _ _
  | intoDisk format =>
    simp only [Session.step]
    split
    · split <;> exact .refl _
    · exact .refl _
    · exact .refl _
  | wait | share | unwrap | rebuild => exact .refl _

/-- No action exchanges the chip, or changes its size. -/
theorem chip_step (s : Session) (a : Action) :
    (s.step a).2.bench.chip.id = s.bench.chip.id ∧
      (s.step a).2.bench.chip.memory.size = s.bench.chip.memory.size := by
  by_cases configured : ∃ setting, a = .configure setting
  · obtain ⟨setting, rfl⟩ := configured
    rw [chip_step_configure]
    exact ⟨s.bench.chip.id_configure setting, s.bench.chip.size_configure setting⟩
  · have endures := endures_step (s := s) fun setting same => configured ⟨setting, same⟩
    exact ⟨endures.id, endures.size⟩

end Session

/-! ### Identification -/

namespace Driver

variable {d d' : Driver} {b : Bench}

/-- The layout is unknown, and the chip is not taken to be awake. -/
def Forgotten (d : Driver) : Prop :=
  d.layout = .unknown d.options.eraseUnit.size ∧ (d.state = .notReady ∨ d.state = .failed)

/-- The layout is the one that the identity read last stands for. -/
def Sized (d : Driver) : Prop :=
  ∃ size, d.identity.capacity? = some size ∧ d.layout = .tile size d.options.eraseUnit.size

/-- An identification that has had an answer has taken the identity from it, and if it fails it
has forgotten the rest. Otherwise nothing has happened. -/
theorem ensures_identify (d : Driver) (b : Bench) :
    identify.Ensures d b
      (fun _ d' _ => ∃ reply, (b.send .readId).1 = .ok reply ∧ d'.identity = .ofBytes reply)
      fun e d' _ =>
        (d' = d ∧ (d.state = .erasing ∧ e = .busy .erasing ∨
          ∃ error, (b.send .readId).1 = .error error ∧ e = .bus error)) ∨
        ∃ reply, (b.send .readId).1 = .ok reply ∧ d'.identity = .ofBytes reply ∧
          d'.Forgotten := by
  simp only [identify, ensures_bind, ensures_get, ensures_ite, ensures_throw, ensures_ask_iff]
  refine ⟨fun erasing => .inl ⟨trivial, .inl ⟨erasing, trivial⟩⟩, fun _ => ?_⟩
  rcases heard : (b.send .readId).1 with error | reply
  · exact .inl ⟨trivial, .inr ⟨error, rfl, rfl⟩⟩
  · simp only [ensures_modify]
    split
    · exact .inr ⟨reply, rfl, rfl, rfl, .inl rfl⟩
    · simp only [ensures_bind, ensures_get, ensures_ite, ensures_tryCatch, ensures_pure,
        ensures_modify]
      refine ⟨fun _ => (always_ensureQuad.ensures _).mono ?_ ?_, fun _ => ⟨reply, rfl, rfl⟩⟩
      · rintro _ _ _ rfl
        exact ⟨reply, rfl, rfl⟩
      · rintro e _ _ ⟨rfl, -⟩
        refine .inr ⟨reply, rfl, rfl, rfl, ?_⟩
        cases e.isTimeout
        · exact .inl rfl
        · exact .inr rfl

/-- A listed identity in an answer is that of the chip: one that does not respond answers with
ones. -/
theorem identity_of_reply {reply : Bytes} (heard : (b.send .readId).1 = .ok reply) {size : Nat}
    (listed : (Identity.ofBytes reply).capacity? = some size) :
    Identity.ofBytes reply = b.chip.id := by
  rcases b.send_cases (i := .readId) trivial with ⟨-, failed, -⟩ | ⟨answered, -⟩
  · nomatch heard.symm.trans failed
  · cases heard.symm.trans answered
    rw [Chip.obey_readId] at listed ⊢
    cases responsive : b.chip.responsive with
    | true => rfl
    | false => rw [responsive] at listed; contradiction

/-- What a driver knows of the chip on its bench. -/
structure Recognises (d : Driver) (b : Bench) : Prop where
  layout : d.layout = .unknown d.options.eraseUnit.size ∨ d.Sized
  identity : ∀ size, d.identity.capacity? = some size → d.identity = b.chip.id
  sized : d.state = .ready ∨ d.state = .erasing → d.Sized

theorem Sized.of_isIdentified (layout : d.layout = .unknown d.options.eraseUnit.size ∨ d.Sized)
    (identified : d.isIdentified) : d.Sized := by
  refine layout.resolve_left fun unknown => ?_
  simp [isIdentified, unknown, Layout.unknown] at identified

/-- A layout that an identity stands for fills 64 KiB blocks and 24 address bits at most. -/
theorem Sized.bounds {size : Nat} (listed : d.identity.capacity? = some size)
    (layout : d.layout = .tile size d.options.eraseUnit.size) :
    d.layout.size = size ∧ 65536 ∣ size ∧ size ≤ 16777216 := by
  unfold Identity.capacity? at listed
  split at listed
  · obtain ⟨blocks, divides⟩ := Identity.sizeOfCode?_bounds listed
    have unit : d.options.eraseUnit.size ∣ size :=
      Nat.dvd_trans (by cases d.options.eraseUnit <;> decide) blocks
    refine ⟨?_, blocks, Nat.le_of_dvd (by decide) divides⟩
    rw [layout]
    exact Nat.div_mul_cancel unit
  · contradiction

end Driver

namespace FlashOperation

variable {operation : FlashOperation} {d d' : Driver} {r : Except (DriverError BusError) FlashValue}

/-- A move keeps the layout true to the identity. -/
theorem Moves.layout (h : operation.Moves d r d')
    (layout : d.layout = .unknown d.options.eraseUnit.size ∨ d.Sized)
    (sized : d.state = .ready ∨ d.state = .erasing → d.Sized) :
    (d'.layout = .unknown d'.options.eraseUnit.size ∨ d'.Sized) ∧
      (d'.state = .ready ∨ d'.state = .erasing → d'.Sized) := by
  cases h with
  | keep | fail | refuse | unheard => exact ⟨layout, sized⟩
  | giveUp | expire | sleep => exact ⟨layout, by simp⟩
  | begin _ ready => exact ⟨layout, fun _ => sized (.inl ready)⟩
  | finish _ erasing => exact ⟨layout, fun _ => sized (.inr erasing)⟩
  | wake _ identified => exact ⟨layout, fun _ => Driver.Sized.of_isIdentified layout identified⟩
  | unlisted => exact ⟨.inl rfl, by simp⟩
  | unfit =>
    refine ⟨.inl rfl, fun active => ?_⟩
    split at active <;> simp at active
  | identified _ listed => exact ⟨.inr ⟨_, listed, rfl⟩, fun _ => ⟨_, listed, rfl⟩⟩

/-- Only an identification changes the identity. -/
theorem Moves.identity (h : operation.Moves d r d') (other : operation ≠ .identify) :
    d'.identity = d.identity := by
  cases h <;> first | rfl | exact absurd rfl other

/-- Without the layout only an identification that succeeds makes the driver ready. -/
theorem Moves.forgotten (h : operation.Moves d r d') (forgotten : d.Forgotten)
    (unidentified : operation = .identify → ∀ v, r ≠ .ok v) : d'.Forgotten := by
  obtain ⟨layout, state⟩ := forgotten
  cases h with
  | keep | fail | refuse | unheard => exact ⟨layout, state⟩
  | giveUp _ active | begin _ active | sleep active | finish _ active | expire active =>
    rw [active] at state
    rcases state with same | same <;> contradiction
  | wake _ identified => simp [Driver.isIdentified, layout, Layout.unknown] at identified
  | unlisted => exact ⟨rfl, .inl rfl⟩
  | unfit =>
    refine ⟨rfl, ?_⟩
    show (if _ then _ else _) = _ ∨ (if _ then _ else _) = _
    split
    · exact .inr rfl
    · exact .inl rfl
  | identified => exact absurd rfl (unidentified rfl _)

end FlashOperation

/-! ### Sessions -/

namespace Session

variable {s : Session} {a : Action}

/-- The driver in use recognises its chip and is at rest, and a listed chip has its size. -/
structure Recognised (s : Session) : Prop where
  genuine : ∀ size, s.bench.chip.id.capacity? = some size → s.bench.chip.memory.size = size
  driver : ∀ d, s.device.driver? = some d → d.state.AtRest ∧ d.Recognises s.bench

theorem recognised_create (id : Identity) (link : Link) (compareBuffer : CompareBuffer)
    (options : DriverOptions) : (create id link compareBuffer options).Recognised := by
  refine ⟨(settled_create False id link compareBuffer options).genuine, fun d found => ?_⟩
  cases found
  exact ⟨trivial, .inl rfl, nofun, by simp [Driver.create]⟩

/-- An operation of the driver keeps a listed identity that of the chip. -/
theorem identity_move {operation : FlashOperation} {d : Driver} {b : Bench}
    (rest : d.state.AtRest)
    (known : ∀ size, d.identity.capacity? = some size → d.identity = b.chip.id) :
    ∀ size, ((operation.run.script d).run b).1.2.identity.capacity? = some size →
      ((operation.run.script d).run b).1.2.identity = b.chip.id := by
  by_cases identifies : operation = .identify
  · subst identifies
    have answered {d' : Driver} {reply : Bytes} (heard : (b.send .readId).1 = .ok reply)
        (same : d'.identity = .ofBytes reply) (size : Nat)
        (listed : d'.identity.capacity? = some size) : d'.identity = b.chip.id := by
      rw [same] at listed ⊢
      exact Driver.identity_of_reply heard listed
    have ended : (FlashValue.layout <$> Driver.identify).Ensures d b
        (fun _ d' _ => ∀ size, d'.identity.capacity? = some size → d'.identity = b.chip.id)
        fun _ d' _ => ∀ size, d'.identity.capacity? = some size → d'.identity = b.chip.id := by
      rw [ensures_map]
      refine (Driver.ensures_identify d b).mono ?_ ?_
      · rintro _ d' _ ⟨reply, heard, same⟩
        exact answered heard same
      · rintro _ d' _ (⟨rfl, -⟩ | ⟨reply, heard, same, -⟩)
        · exact known
        · exact answered heard same
    exact ended.after
  · have same := (moves_run operation rest b).identity identifies
    rw [same]
    exact known

theorem Recognised.step (h : s.Recognised) (a : Action) : (s.step a).2.Recognised := by
  obtain ⟨id, size⟩ := chip_step s a
  refine ⟨fun capacity listed => ?_, fun d' found => ?_⟩
  · rw [size]
    exact h.genuine capacity (id ▸ listed)
  have drives := drives_step (fun d found => (h.driver d found).1) found
  refine ⟨drives.atRest fun d found => (h.driver d found).1, ?_⟩
  generalize before : s.device.driver? = driver at drives
  cases drives with
  | keep =>
    have known := (h.driver d' before).2
    exact ⟨known.layout, id ▸ known.identity, known.sized⟩
  | giveUp =>
    have known := (h.driver _ before).2
    exact ⟨known.layout, id ▸ known.identity, by simp⟩
  | renew => exact ⟨.inl rfl, nofun, by simp [Driver.create]⟩
  | @move d _ operation r action result moves =>
    obtain ⟨rest, known⟩ := h.driver d before
    obtain ⟨layout, sized⟩ := moves.layout known.layout known.sized
    refine ⟨layout, ?_, sized⟩
    subst action
    rw [step_flash_eq before, Device.driver?_withDriver before] at found
    cases found
    rw [id]
    exact identity_move rest known.identity

theorem Recognised.run (h : s.Recognised) (actions : List Action) :
    (s.run actions).Recognised :=
  run_preserves (fun _ a _ known => known.step a) h

/-- What is forgotten stays so until an identification succeeds. -/
theorem forgotten_run (h : s.Recognised)
    (forgotten : ∀ d, s.device.driver? = some d → d.Forgotten) {later : List Action}
    (unidentified : ∀ before v, before ++ [.flash .identify] <+: later →
      ((s.run before).step (.flash .identify)).1 ≠ .flash (.ok v)) {d' : Driver}
    (found : (s.run later).device.driver? = some d') : d'.Forgotten := by
  induction later generalizing s with
  | nil => exact forgotten d' found
  | cons a later ih =>
    refine ih (s := (s.step a).2) (h.step a) (fun d found => ?_) (fun before v shorter => ?_) found
    · have drives := drives_step (fun d found => (h.driver d found).1) found
      generalize before : s.device.driver? = driver at drives
      cases drives with
      | keep => exact forgotten d before
      | giveUp _ ready =>
        have unready := (forgotten _ before).2
        rw [ready] at unready
        rcases unready with same | same <;> contradiction
      | renew => exact ⟨rfl, .inl rfl⟩
      | move action result moves =>
        refine moves.forgotten (forgotten _ before) fun identifies v same => ?_
        subst action identifies same
        exact unidentified [] v ⟨later, rfl⟩ result
    · exact unidentified (a :: before) v (List.cons_prefix_cons.mpr ⟨rfl, shorter⟩)

/-- A failure behind the answer to an identification leaves the layout forgotten. -/
theorem forgotten_of_failed {d : Driver} (found : s.device.driver? = some d)
    {e : DriverError BusError} {s' : Session}
    (failed : s.step (.flash .identify) = (.flash (.error e), s'))
    (behind : (∃ id, e = .unknownDevice id) ∨ e = .quadNotLatched ∨
      d.state ≠ .erasing ∧ ∃ reply, (s.bench.send .readId).1 = .ok reply) {d' : Driver}
    (found' : s'.device.driver? = some d') : d'.Forgotten := by
  have ended : (FlashValue.layout <$> Driver.identify).Ensures d s.bench (fun _ _ _ => True)
      fun e d' _ => ((∃ id, e = .unknownDevice id) ∨ e = .quadNotLatched ∨
        d.state ≠ .erasing ∧ ∃ reply, (s.bench.send .readId).1 = .ok reply) → d'.Forgotten := by
    rw [ensures_map]
    refine (Driver.ensures_identify d s.bench).mono (fun _ _ _ _ => trivial) ?_
    rintro _ d' _ (⟨-, ⟨erasing, rfl⟩ | ⟨error, unheard, rfl⟩⟩ | ⟨reply, -, -, forgotten⟩)
    · rintro (⟨_, same⟩ | same | ⟨idle, -⟩)
      · contradiction
      · contradiction
      · exact absurd erasing idle
    · rintro (⟨_, same⟩ | same | ⟨-, reply, heard⟩)
      · contradiction
      · contradiction
      · nomatch unheard.symm.trans heard
    · exact fun _ => forgotten
  rw [step_flash_eq found] at failed
  rcases run : (FlashOperation.identify.run.script d).run s.bench with ⟨⟨r, d₁⟩, b₁⟩
  rw [run] at failed
  cases failed
  cases (Device.driver?_withDriver found d₁).symm.trans found'
  exact ended.of_failed run behind

/-- In every state that any actions lead to, the layout is unknown or that of the identity read
last, and the latter, with the size of the chip, if the driver is ready or erasing. An
identification that has failed behind the answer of the chip leaves no way to the ready state
but an identification that succeeds. -/
theorem layout_recognises_chip (id : Identity) (link : Link) (compareBuffer : CompareBuffer)
    (options : DriverOptions) (actions : List Action) {s : Session}
    (reached : s = (create id link compareBuffer options).run actions) {d : Driver}
    (found : s.device.driver? = some d) :
    (d.layout = .unknown d.options.eraseUnit.size ∨ d.Sized) ∧
    (d.state = .ready ∨ d.state = .erasing →
      d.Sized ∧ d.layout.size = s.bench.chip.memory.size) ∧
    d.layout.size = d.layout.sectorCount * d.layout.sectorSize ∧
    d.layout.size ≤ 16777216 ∧ 65536 ∣ d.layout.size ∧
    ∀ e s₁, s.step (.flash .identify) = (.flash (.error e), s₁) →
      ((∃ id, e = .unknownDevice id) ∨ e = .quadNotLatched ∨
        d.state ≠ .erasing ∧ ∃ reply, (s.bench.send .readId).1 = .ok reply) →
      ∀ later, (∀ before v, before ++ [.flash .identify] <+: later →
          ((s₁.run before).step (.flash .identify)).1 ≠ .flash (.ok v)) →
        ∀ d', (s₁.run later).device.driver? = some d' → d'.state ≠ .ready := by
  have recognised : s.Recognised := by
    rw [reached]
    exact (recognised_create id link compareBuffer options).run actions
  have known := (recognised.driver d found).2
  refine ⟨known.layout, fun active => ?_, ?_, ?_, ?_, ?_⟩
  · obtain ⟨size, listed, layout⟩ := known.sized active
    refine ⟨⟨size, listed, layout⟩, ?_⟩
    rw [(Driver.Sized.bounds listed layout).1]
    rw [known.identity size listed] at listed
    exact (recognised.genuine size listed).symm
  · rcases known.layout with layout | ⟨size, -, layout⟩ <;> rw [layout]
    · exact (Nat.zero_mul _).symm
    · exact Layout.tile_size _ _
  · rcases known.layout with layout | ⟨size, listed, layout⟩
    · rw [layout]
      exact Nat.zero_le _
    · obtain ⟨same, -, bound⟩ := Driver.Sized.bounds listed layout
      rwa [same]
  · rcases known.layout with layout | ⟨size, listed, layout⟩
    · rw [layout]
      exact Nat.dvd_zero _
    · obtain ⟨same, blocks, -⟩ := Driver.Sized.bounds listed layout
      rwa [same]
  · intro e s₁ failed behind later unidentified d' found'
    have recognised₁ : s₁.Recognised := by
      have after := recognised.step (.flash .identify)
      rwa [failed] at after
    have forgotten := forgotten_run recognised₁
      (fun _ found₁ => forgotten_of_failed found failed behind found₁) unidentified found'
    intro ready
    rcases forgotten.2 with same | same <;> rw [ready] at same <;> contradiction

/-- On four lines a device with a locked status register is not identified, and releasing it from
power-down does not make the driver ready. -/
theorem release_does_not_recognise :
    ∃ e s₁, ((create ⟨0xEF, 0x40, 0x14⟩ (.wide .standard) .standard .standard).run
        [.configure (.statusLocked true)]).step (.flash .identify) = (.flash (.error e), s₁) ∧
      ∀ d, (s₁.run [.flash .releasePowerDown]).device.driver? = some d → d.state ≠ .ready := by
  obtain ⟨d, found, s₁, failed⟩ : ∃ d,
      ((create ⟨0xEF, 0x40, 0x14⟩ (.wide .standard) .standard .standard).run
        [.configure (.statusLocked true)]).device.driver? = some d ∧ ∃ s₁,
      ((create ⟨0xEF, 0x40, 0x14⟩ (.wide .standard) .standard .standard).run
        [.configure (.statusLocked true)]).step (.flash .identify) =
          (.flash (.error .quadNotLatched), s₁) := ⟨_, rfl, _, rfl⟩
  have unidentified before v (shorter : before ++ [Action.flash .identify] <+:
      [.flash .releasePowerDown]) :
      ((s₁.run before).step (.flash .identify)).1 ≠ .flash (.ok v) := by
    cases before <;> simp at shorter
  exact ⟨_, s₁, failed, (layout_recognises_chip ⟨0xEF, 0x40, 0x14⟩ (.wide .standard) .standard
    .standard [.configure (.statusLocked true)] rfl found).2.2.2.2.2 _ s₁ failed
      (.inr (.inl rfl)) _ unidentified⟩

end Session

end SerialFlash
