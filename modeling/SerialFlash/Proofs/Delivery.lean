import SerialFlash.Proofs.Reception

/-!
No command is lost on a chip that nobody has tampered with. A driver that takes its chip for idle
is right: what leaves a chip busy leaves the driver waiting, or has made it give the chip up, and
back from there only an identification leads, which a busy chip does not answer. An erase or a
program of an earlier driver keeps a new one from identifying the chip in the same way. So every
operation that is not refused starts in a phase that is true of the chip, and its commands are
delivered.
-/

namespace SerialFlash

open Procedure

/-! ### Operations of a driver -/

namespace Driver

variable {unit : EraseUnit} {d d' : Driver} {b b' : Bench}

/-- The driver takes its chip for idle: it is ready, or will be when it has woken the chip up. -/
def Relies (d : Driver) : Prop :=
  d.state = .ready ∨ d.state = .notReady ∧ d.isIdentified = true

/-- Nothing is wrong with the chip, and it is idle if the driver takes it for idle. -/
structure Abreast (d : Driver) (b : Bench) : Prop where
  noFaults : b.chip.faults = .none
  unstuck : b.chip.stuckBusy = false
  idle : d.Relies → b.chip.isBusy = false

theorem Abreast.later (h : d.Abreast b) (endures : b.chip.Endures b'.chip)
    (idle : d'.Relies → b'.chip.isBusy = false) : d'.Abreast b' :=
  ⟨endures.noFaults h.noFaults, endures.stuckBusy.trans h.unstuck, idle⟩

/-- What disturbs nothing cannot surprise a driver that has not come to rely on more. -/
theorem Abreast.undisturbed (h : d.Abreast b) (endures : b.chip.Endures b'.chip)
    (same : b.chip.Undisturbed b'.chip) (relies : d'.Relies → d.Relies) : d'.Abreast b' :=
  h.later endures fun now => same.idle (h.idle (relies now))

theorem Relies.state_ne (h : d.Relies) : d.state ≠ .failed ∧ d.state ≠ .erasing := by
  rcases h with state | ⟨state, -⟩ <;> rw [state] <;> exact ⟨nofun, nofun⟩

theorem Attuned.suits {alone : Prop} (h : d.Attuned alone unit b) :
    d.layout.Suits d.options.eraseUnit := by
  rcases h.layout with unknown | knows
  · rw [unknown, h.eraseUnit]
    exact Layout.suits_unknown _
  · rw [knows.layout]
    exact Layout.suits_tile knows.capacity _

end Driver

/-- Nothing is waited for behind the back of a driver that takes its chip for idle. -/
theorem Phase.Suits.ne_waiting {k : Phase} {d : Driver} (h : k.Suits d) (relies : d.Relies) :
    k ≠ .waiting := by
  rintro rfl
  rcases h with free | ⟨-, erasing⟩
  · nomatch free
  · exact relies.state_ne.2 erasing

namespace FlashOperation

variable {unit : EraseUnit} {operation : FlashOperation} {d : Driver} {b : Bench}

/-- What a driver sends that takes its chip for identified and awake goes by the phases. -/
theorem delivers_of_active (settled : d.Settled True unit b) (abreast : d.Abreast b)
    (active : d.state.Active) (identify : operation ≠ .identify) (sleep : operation ≠ .powerDown)
    (release : operation ≠ .releasePowerDown) :
    (∀ v ∈ (operation.run.script d).sendings b, v.1.Delivers v.2) ∧
      (((operation.run.script d).run b).1.2.Relies →
        ((operation.run.script d).run b).2.chip.isBusy = false) := by
  obtain ⟨knows, awake⟩ := settled.attuned.awake active
  have layout := settled.attuned.suits
  obtain ⟨k, suits, shows⟩ : ∃ k : Phase, k.Suits d ∧ k.Shows b.chip := by
    cases state : d.state with
    | ready =>
      exact ⟨.free, .inl rfl,
        Phase.shows_free abreast.noFaults abreast.unstuck (abreast.idle (.inl state))⟩
    | erasing =>
      exact ⟨.waiting, .inr ⟨rfl, state⟩, abreast.noFaults, abreast.unstuck, absurd rfl, nofun⟩
    | notReady | failed => rw [state] at active; exact active.elim
    | reading | programming =>
      have rest := settled.atRest
      rw [state] at rest
      exact rest.elim
  have keepsPower (i : Instruction) (said : operation.Says i) : i.KeepsPower := by
    cases operation with
    | powerDown => exact absurd rfl sleep
    | releasePowerDown => exact absurd rfl release
    | _ => exact said
  have suited (i : Instruction) (said : operation.Says i ∧ d.Says (.flash operation) i) :
      i.Suits d.layout.size :=
    ⟨said.2.inside, keepsPower i said.1,
      fun _ => said.2.routine fun same => identify (Action.flash.inj same)⟩
  have said := ((operation.always_run settled.atRest).and (operation.says_run layout)).mono
    suited fun _ => id
  obtain ⟨delivered, k', ended, shows'⟩ :=
    (operation.tracks_run settled.atRest suits).delivers said layout.bound rfl
      ⟨awake, fun _ => knows.serves trivial⟩ shows
  refine ⟨delivered, fun relies => ?_⟩
  have moved := (Session.moves_run operation settled.atRest b).transition settled.atRest
  generalize (operation.run.script d).run b = ran at *
  obtain ⟨⟨e | v, d'⟩, b'⟩ := ran
  · refine shows'.idle (ended.elim (fun suits => suits.ne_waiting relies) ?_)
    rintro ⟨-, timeout⟩
    -- a wait has been given up, and the chip with it
    exact absurd (moved.timeout e rfl timeout) relies.state_ne.1
  · exact shows'.idle (Phase.Suits.ne_waiting ended relies)

/-- What has nothing to carry out may be said to any chip. -/
theorem delivers_of_quiet {P : Instruction → Prop} {good : FlashValue → Driver → Prop}
    {bad : DriverError BusError → Driver → Prop} (said : operation.run.Always P d good bad)
    (quiet : ∀ i, P i → ∀ c : Chip, c.carryOut? i = none) :
    ∀ v ∈ (operation.run.script d).sendings b, v.1.Delivers v.2 := by
  intro v sent answer c taken
  rw [quiet _ (Script.Always.of_mem_sendings said sent)] at taken
  contradiction

/-- Only an identification and the end of an erase let a driver take its chip for idle that has not
done so before. -/
theorem Moves.relies {r : Except (DriverError BusError) FlashValue} {d' : Driver}
    (h : operation.Moves d r d') (identify : operation ≠ .identify)
    (asks : operation.Asks → d.state ≠ .erasing) (relies : d'.Relies) : d.Relies := by
  cases h with
  | keep | fail => exact relies
  | giveUp | expire => exact absurd rfl relies.state_ne.1
  | begin _ ready | sleep ready => exact .inl ready
  | wake asleep identified => exact .inr ⟨asleep, identified⟩
  | finish ends erasing => exact absurd erasing (asks ends)
  | refuse | unheard | unlisted | unfit | identified => exact absurd rfl identify

theorem abreast_of_passive {P : Instruction → Prop} {good : FlashValue → Driver → Prop}
    {bad : DriverError BusError → Driver → Prop} (abreast : d.Abreast b) (rest : d.state.AtRest)
    (identify : operation ≠ .identify) (asks : operation.Asks → d.state ≠ .erasing)
    (said : operation.run.Always P d good bad) (passive : ∀ i, P i → i.Passive) :
    ((operation.run.script d).run b).1.2.Abreast ((operation.run.script d).run b).2 :=
  abreast.undisturbed (endures_run _ b).2 (said.ensures_undisturbed passive).after
    ((Session.moves_run operation rest b).relies identify asks)

/-- A driver that does not take its chip for awake looks at the status at most, or wakes it up. -/
theorem always_run_of_inactive (identify : operation ≠ .identify)
    (inactive : operation ≠ .releasePowerDown → ¬ d.state.Active) :
    operation.run.Always (fun i => i = .readStatus1 ∨ i = .releasePowerDown) d
      (fun _ _ => True) fun _ _ => True := by
  have asked (inactive : ¬ d.state.Active) : Driver.eraseProgress.Always
      (fun i => i = .readStatus1 ∨ i = .releasePowerDown) d (fun _ _ => False)
      fun _ _ => True := by
    rw [Driver.eraseProgress, always_bind, always_get]
    cases state : d.state with
    | notReady | failed => exact trivial
    | _ => rw [state] at inactive; exact absurd trivial inactive
  by_cases release : operation = .releasePowerDown
  · subst release
    simp only [run, silent, Driver.leavePowerDown, always_map, always_bind, always_get]
    split
    · simp
    · trivial
  replace inactive := inactive release
  by_cases asks : operation.Asks
  · cases operation with
    | eraseProgress =>
      exact (always_map _ _).mpr ((asked inactive).imp (fun _ _ => False.elim) fun _ _ => id)
    | finishErase =>
      rw [run, silent, always_map, Driver.finishErase, always_bind, always_get]
      cases d.options.eraseTimeout <;> rw [Driver.finishWithin, always_bind] <;>
        exact (asked inactive).imp (fun _ _ => False.elim) fun _ _ => id
    | _ => exact asks.elim
  · refine (always_run_of_unready identify asks release fun ready => inactive ?_).mono
      (fun _ => .inl) (fun _ _ _ => trivial) fun _ _ _ => trivial
    rw [ready]
    trivial

theorem delivers_powerDown (settled : d.Settled True unit b) (abreast : d.Abreast b) :
    ∀ v ∈ (FlashOperation.powerDown.run.script d).sendings b, v.1.Delivers v.2 := by
  by_cases ready : d.state = .ready
  · have awake := (settled.attuned.awake (by rw [ready]; trivial)).2
    have responsive := Chip.responsive_iff.mpr ⟨awake, abreast.idle (.inl ready)⟩
    have once : (FlashOperation.powerDown.run.script d).sendings b = [(b, .powerDown)] := by
      simp only [run, silent, Driver.enterPowerDown, script_map, script_bind,
        Driver.script_guardReady, ready, if_true, Script.done_bind, follow_ok, Driver.script_ask,
        Script.send_bind, Script.sendings]
      cases (b.send .powerDown).1 <;> rfl
    rw [once, List.forall_mem_singleton]
    exact b.delivers_of_responsive trivial abreast.noFaults responsive False.elim (absurd trivial)
  · have silent : (FlashOperation.powerDown.run.script d).sendings b = [] := by
      simp [run, silent, Driver.enterPowerDown, ready, Script.sendings]
    rw [silent]
    exact List.forall_mem_nil _

/-- An identification goes on only behind the answer of an idle chip that is awake. -/
theorem delivers_identify (settled : d.Settled True unit b) (abreast : d.Abreast b) :
    ∀ v ∈ (FlashOperation.identify.run.script d).sendings b, v.1.Delivers v.2 := by
  cases responsive : b.chip.responsive with
  | true =>
    obtain ⟨awake, idle⟩ := Chip.responsive_iff.mp responsive
    have inside := ((Driver.agrees_identify
      ⟨_, d.alongside_self settled.attuned.suits⟩).map FlashValue.layout).always
    have suited (i : Instruction) (said : i.KeepsPower ∧ ∀ size, i.Inside size) : i.Suits 0 :=
      ⟨said.2 0, said.1, fun pos => absurd pos (Nat.lt_irrefl 0)⟩
    have said := ((FlashOperation.identify.always_run settled.atRest).and inside).mono
      suited fun _ => id
    exact ((FlashOperation.identify.tracks_run settled.atRest (.inl rfl)).delivers said
      (Nat.zero_le _) rfl ⟨awake, fun pos => absurd pos (Nat.lt_irrefl 0)⟩
      (Phase.shows_free abreast.noFaults abreast.unstuck idle)).1
  | false =>
    by_cases erasing : d.state = .erasing
    · refine delivers_of_quiet (always_run_of_erasing id erasing) ?_
      rintro _ rfl c
      rfl
    · obtain ⟨reply, -⟩ := b.send_obeyed (i := .readId) trivial abreast.noFaults
      rw [Chip.obey_readId, responsive, if_neg Bool.false_ne_true] at reply
      have once : (FlashOperation.identify.run.script d).sendings b = [(b, .readId)] := by
        simp only [run, Driver.identify, script_map, script_bind, script_get, Script.done_bind,
          follow_ok, if_neg erasing, Driver.script_ask, Script.send_bind, Script.sendings, reply]
        rfl
      rw [once, List.forall_mem_singleton]
      -- a chip that does not answer carries nothing out
      rintro _ _ ⟨⟩

/-- An identification that succeeds has found the chip idle, and one that fails has forgotten it. -/
theorem abreast_identify (settled : d.Settled True unit b) (abreast : d.Abreast b) :
    ((FlashOperation.identify.run.script d).run b).1.2.Abreast
      ((FlashOperation.identify.run.script d).run b).2 := by
  have known := ((Driver.ensures_identify d b).and
    (settled.attuned.wired.ensures_identify True)).and (ensures_endures Driver.identify)
  have ended : (FlashValue.layout <$> Driver.identify).Ensures d b (fun _ => Driver.Abreast)
      fun _ => Driver.Abreast := by
    refine (ensures_map _ _).mpr (known.mono ?_ ?_)
    · rintro _ d' b' ⟨⟨-, -, -, -, idle⟩, -, endures⟩
      exact abreast.later endures fun _ => idle
    · rintro _ d' b' ⟨⟨failed, -⟩, -, endures⟩
      refine abreast.later endures fun relies => ?_
      rcases failed with ⟨rfl, ⟨erasing, -⟩ | ⟨error, unheard, -⟩⟩ | ⟨-, -, -, layout, state⟩
      · exact absurd erasing relies.state_ne.2
      · obtain ⟨reply, -⟩ := b.send_obeyed (i := .readId) trivial abreast.noFaults
        nomatch unheard.symm.trans reply
      · rcases relies with ready | ⟨-, identified⟩
        · rw [ready] at state
          rcases state with same | same <;> contradiction
        · simp [Driver.isIdentified, layout, Layout.unknown] at identified
  exact ended.after

/-- Every operation delivers what it sends, and leaves the driver abreast of the chip. -/
theorem delivers_run (operation : FlashOperation) (settled : d.Settled True unit b)
    (abreast : d.Abreast b) :
    (∀ v ∈ (operation.run.script d).sendings b, v.1.Delivers v.2) ∧
      ((operation.run.script d).run b).1.2.Abreast ((operation.run.script d).run b).2 := by
  by_cases identify : operation = .identify
  · subst identify
    exact ⟨delivers_identify settled abreast, abreast_identify settled abreast⟩
  by_cases sleep : operation = .powerDown
  · subst sleep
    refine ⟨delivers_powerDown settled abreast, abreast_of_passive abreast settled.atRest identify
      False.elim (FlashOperation.powerDown.always_run settled.atRest) ?_⟩
    rintro _ rfl
    trivial
  by_cases active : operation ≠ .releasePowerDown ∧ d.state.Active
  · obtain ⟨delivered, idle⟩ :=
      delivers_of_active settled abreast active.2 identify sleep active.1
    exact ⟨delivered, abreast.later (endures_run _ b).2 idle⟩
  · have inactive (other : operation ≠ .releasePowerDown) : ¬ d.state.Active :=
      fun now => active ⟨other, now⟩
    have said := always_run_of_inactive identify inactive
    refine ⟨delivers_of_quiet said ?_,
      abreast_of_passive abreast settled.atRest identify ?_ said ?_⟩
    · rintro _ (rfl | rfl) c <;> rfl
    · intro asks erasing
      refine inactive ?_ (by rw [erasing]; trivial)
      rintro rfl
      exact asks
    · rintro _ (rfl | rfl) <;> trivial

end FlashOperation

/-! ### Operations of a disk -/

/-- The same for the operations of a disk. -/
theorem DiskOperation.delivers_run (operation : DiskOperation) {unit : EraseUnit} {d : Disk}
    {b : Bench} (settled : d.flash.Settled True unit b) (abreast : d.flash.Abreast b) :
    (∀ v ∈ (operation.run.run d).sendings b, v.1.Delivers v.2) ∧
      ((operation.run.run d).run b).1.2.flash.Abreast ((operation.run.run d).run b).2 := by
  have endures := (endures_run (operation.run.run d) b).2
  by_cases ready : d.flash.state = .ready
  · have active : d.flash.state.Active := by rw [ready]; trivial
    obtain ⟨knows, awake⟩ := settled.attuned.awake active
    have layout := settled.attuned.suits
    have tracks := operation.tracks_run (l := b.link) (k := .free) (d := d) (.inl rfl)
    have plain := operation.always_run d
    have routine := operation.always_routine layout
    rw [Procedure.Tracks, script_liftM_state, Script.tracks_bind] at tracks
    rw [Procedure.Always, script_liftM_state, Script.always_bind] at plain routine
    have suited (i : Instruction)
        (said : i.Plain ∧ i.Inside d.flash.layout.size ∧ i.Routine) :
        i.Suits d.flash.layout.size :=
      ⟨said.2.1, said.1.keepsPower, fun _ => said.2.2⟩
    have said := (plain.and routine).mono suited fun _ => id
    obtain ⟨delivered, k, ended, shows⟩ := tracks.delivers said layout.bound rfl
      ⟨awake, fun _ => knows.serves trivial⟩
      (Phase.shows_free abreast.noFaults abreast.unstuck (abreast.idle (.inl ready)))
    refine ⟨delivered, abreast.later endures fun relies => shows.idle ?_⟩
    rcases ended with suits | ⟨-, -, failed⟩
    · exact suits.ne_waiting relies
    · exact absurd failed relies.state_ne.1
  · have silent := operation.always_run_of_unready ready
    have same := (ensures_liftM_state operation.run).mp (silent.ensures b)
    have undisturbed := (ensures_liftM_state operation.run).mp
      (silent.ensures_undisturbed (b := b) fun _ => False.elim)
    rw [Procedure.Always, script_liftM_state, Script.always_bind] at silent
    refine ⟨fun v sent => (silent.of_mem_sendings sent).elim, ?_⟩
    rw [same]
    exact abreast.undisturbed endures undisturbed id

/-! ### Sessions -/

/-- No fault is armed, the chip does not stay busy for good, and the quad-enable bit is left to
the driver. -/
def Setting.LeavesAble : Setting → Prop
  | failOpcode _ _ | failAny _ | stuckBusy _ | quadEnabled _ => False
  | _ => True

namespace Session

variable {s : Session} {a : Action}

/-- Nothing is wrong with the chip, and it is idle if the driver in use takes it for idle. -/
structure Abreast (s : Session) : Prop where
  noFaults : s.bench.chip.faults = .none
  unstuck : s.bench.chip.stuckBusy = false
  idle : ∀ d, s.device.driver? = some d → d.Relies → s.bench.chip.isBusy = false

theorem abreast_create (id : Identity) (link : Link) (compareBuffer : CompareBuffer)
    (options : DriverOptions) : (create id link compareBuffer options).Abreast :=
  ⟨rfl, rfl, fun _ _ _ => rfl⟩

theorem Abreast.driver (h : s.Abreast) {d : Driver} (found : s.device.driver? = some d) :
    d.Abreast s.bench :=
  ⟨h.noFaults, h.unstuck, h.idle d found⟩

theorem Abreast.of_driver {d : Driver} (found : s.device.driver? = some d)
    (abreast : d.Abreast s.bench) : s.Abreast :=
  ⟨abreast.noFaults, abreast.unstuck, fun d' found' => by
    cases found.symm.trans found'; exact abreast.idle⟩

/-- What leaves the chip as it is, and brings no other driver. -/
theorem Abreast.of_chip (h : s.Abreast) {s' : Session} (chip : s'.bench.chip = s.bench.chip)
    (same : ∀ d, s'.device.driver? = some d → s.device.driver? = some d) : s'.Abreast := by
  refine ⟨?_, ?_, fun d found => ?_⟩ <;> rw [chip]
  · exact h.noFaults
  · exact h.unstuck
  · exact h.idle d (same d found)

theorem flash_delivers (settled : s.Settled True) (abreast : s.Abreast)
    (operation : FlashOperation) :
    (∀ v ∈ s.sendings (.flash operation), v.1.Delivers v.2) ∧
      (s.step (.flash operation)).2.Abreast := by
  cases found : s.device.driver? with
  | none =>
    simp only [sendings, Session.step, found]
    exact ⟨List.forall_mem_nil _, abreast⟩
  | some d =>
    obtain ⟨unit, held, -⟩ := settled.device.driver found
    obtain ⟨delivered, after⟩ := operation.delivers_run held (abreast.driver found)
    simp only [sendings, found, step_flash_eq found]
    exact ⟨delivered, .of_driver (Device.driver?_withDriver found _) after⟩

theorem disk_delivers (settled : s.Settled True) (abreast : s.Abreast)
    (operation : DiskOperation) :
    (∀ v ∈ s.diskSendings operation, v.1.Delivers v.2) ∧
      (s.step (.disk operation)).2.Abreast := by
  cases found : s.device.disk? with
  | none =>
    simp only [diskSendings, Session.step, Session.onDisk, found]
    exact ⟨List.forall_mem_nil _, abreast⟩
  | some d =>
    obtain ⟨unit, held, -⟩ := settled.device.driver (Device.driver?_of_disk? found)
    obtain ⟨delivered, after⟩ := operation.delivers_run held
      (abreast.driver (Device.driver?_of_disk? found))
    simp only [diskSendings, Session.step, Session.onDisk, found]
    exact ⟨delivered, .of_driver (Device.driver?_of_disk? (Device.disk?_withDisk found _)) after⟩

/-- Whatever an action makes the driver send is delivered. -/
theorem sendings_delivered (settled : s.Settled True) (abreast : s.Abreast) (a : Action) :
    ∀ v ∈ s.sendings a, v.1.Delivers v.2 := by
  cases a with
  | flash operation => exact (flash_delivers settled abreast operation).1
  | disk operation => exact (disk_delivers settled abreast operation).1
  | join first second =>
    obtain ⟨delivered, abreast'⟩ := disk_delivers settled abreast first
    have settled' : (s.step (.disk first)).2.Settled True := settled.onDisk first.keeps_run
    exact List.forall_mem_append.mpr ⟨delivered, (disk_delivers settled' abreast' second).1⟩
  | _ => exact List.forall_mem_nil _

theorem Abreast.step (h : s.Abreast) (settled : s.Settled True)
    (through : a.Through Setting.LeavesAble) : (s.step a).2.Abreast := by
  have rest (d : Driver) (found : s.device.driver? = some d) : d.state.AtRest := by
    obtain ⟨unit, held, -⟩ := settled.device.driver found
    exact held.atRest
  have kept (chip : (s.step a).2.bench.chip = s.bench.chip)
      (flash : ∀ operation, a ≠ .flash operation) (disk : ¬ a.OnDisk)
      (renewed : ∀ link options, a ≠ .rebuild link options) : (s.step a).2.Abreast := by
    refine h.of_chip chip fun d found => ?_
    have drives := drives_step rest found
    generalize s.device.driver? = before at drives
    cases drives with
    | keep => rfl
    | move action => exact absurd action (flash _)
    | giveUp onDisk => exact absurd onDisk disk
    | renew action => exact absurd action (renewed _ _)
  cases a with
  | flash operation => exact (flash_delivers settled h operation).2
  | disk operation => exact (disk_delivers settled h operation).2
  | join first second =>
    rw [step_join]
    exact (disk_delivers (settled.onDisk first.keeps_run) (disk_delivers settled h first).2
      second).2
  | configure setting =>
    cases setting with
    | failOpcode | failAny | stuckBusy | quadEnabled => exact through.elim
    | _ => exact ⟨h.noFaults, h.unstuck, h.idle⟩
  | intoDisk format =>
    refine kept ?_ (by rintro _ ⟨⟩) id (by rintro _ _ ⟨⟩)
    simp only [Session.step]
    split
    · split <;> rfl
    · rfl
    · rfl
  | wait | share | unwrap => exact kept rfl (by rintro _ ⟨⟩) id (by rintro _ _ ⟨⟩)
  | rebuild link options =>
    refine ⟨h.noFaults, h.unstuck, fun d found relies => ?_⟩
    cases found
    rcases relies with ready | ⟨-, identified⟩
    · cases ready
    · cases identified
  | request | frame | spi => exact through.elim

theorem Reachable.abreast (h : s.Reachable Setting.LeavesAble) : s.Settled True ∧ s.Abreast := by
  have leaves (_ : True) (setting : Setting) (able : setting.LeavesAble) : setting.LeavesQuad := by
    cases setting <;> trivial
  exact h.induct (I := fun s => s.Settled True ∧ s.Abreast)
    (fun id link compareBuffer options => ⟨settled_create True id link compareBuffer options,
      abreast_create id link compareBuffer options⟩)
    fun _ _ through start => ⟨start.1.step through leaves, start.2.step start.1 through⟩

/-- On a chip that nobody has tampered with, no command of a driver is ignored. Whatever has been
done with drivers and disks, with any patience and any busy times: while the driver is ready the
chip is idle and awake, and has quad enabled if the link needs it, and whatever command an action
makes the driver send reaches an idle chip that is awake and carries it out. -/
theorem no_command_ignored (reachable : s.Reachable Setting.LeavesAble) :
    (∀ d, s.device.driver? = some d → d.state = .ready →
      s.bench.chip.isBusy = false ∧ s.bench.chip.poweredDown = false ∧
        (s.bench.link.needsQuad = true → s.bench.chip.quadEnabled = true)) ∧
    ∀ a, ∀ v ∈ s.sendings a, ∀ answer c, v.1.chip.carryOut? v.2 = some (answer, c) →
      v.1.chip.isBusy = false ∧ v.1.chip.poweredDown = false ∧
        (v.1.send v.2).1 = .ok answer ∧ c.Alike (v.1.send v.2).2.chip := by
  obtain ⟨settled, abreast⟩ := reachable.abreast
  refine ⟨fun d found ready => ?_, fun a v sent => sendings_delivered settled abreast a v sent⟩
  obtain ⟨unit, held, -⟩ := settled.device.driver found
  obtain ⟨knows, awake⟩ := held.attuned.awake (by rw [ready]; trivial)
  refine ⟨abreast.idle d found (.inl ready), awake, fun quad => ?_⟩
  have serves := knows.serves trivial
  rwa [Chip.serves, quad] at serves

/-- Behind an erase that has been waited for, the next one reaches an idle chip. -/
theorem second_erase_not_ignored : ∃ s b₁ b₂,
    s = (create ⟨0xEF, 0x40, 0x14⟩ (.wide .standard) .standard .standard).run
      [.flash .identify, .configure (.eraseBusy 3), .flash (.eraseSector 0), .flash .finishErase] ∧
    s.sendings (.flash (.eraseSector 1)) =
      [(b₁, .writeEnable), (b₂, .eraseSector .sector4K 4096)] ∧
    b₂.chip.isBusy = false ∧ b₂.chip.poweredDown = false ∧
    (b₂.send (.eraseSector .sector4K 4096)).1 = .ok [] ∧
    (b₂.chip.eraseUnit 4096 4096).Alike (b₂.send (.eraseSector .sector4K 4096)).2.chip := by
  obtain ⟨s, b₁, b₂, reached, sent⟩ : ∃ s b₁ b₂,
      s = (create ⟨0xEF, 0x40, 0x14⟩ (.wide .standard) .standard .standard).run
        [.flash .identify, .configure (.eraseBusy 3), .flash (.eraseSector 0),
          .flash .finishErase] ∧
      s.sendings (.flash (.eraseSector 1)) =
        [(b₁, .writeEnable), (b₂, .eraseSector .sector4K 4096)] := ⟨_, _, _, rfl, rfl⟩
  have reachable : s.Reachable Setting.LeavesAble :=
    ⟨_, _, _, _, _, by simp [Action.Through, Setting.LeavesAble], reached⟩
  have second : (b₂, .eraseSector .sector4K 4096) ∈ s.sendings (.flash (.eraseSector 1)) := by
    rw [sent]
    exact .tail _ (.head _)
  exact ⟨s, b₁, b₂, reached, sent, (no_command_ignored reachable).2 _ _ second _ _ rfl⟩

end Session

end SerialFlash
