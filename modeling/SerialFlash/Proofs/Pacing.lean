import SerialFlash.Proofs.Links
import SerialFlash.Proofs.Pauses

/-!
The pace at which a driver polls its chip. It is consulted between two status polls and nowhere
else, so sessions that differ in it have the same outcomes, and the same driver, chip and traffic at
every time. Only the clock tells them apart. A driver that does not pause between two polls waits
for erases, and for a chip to wake up, and for nothing else.
-/

namespace SerialFlash

open Procedure

/-! ### Two paces -/

namespace Bench

/-- The benches are told apart by their clocks at most. -/
structure Apace (b b' : Bench) : Prop where
  link : b'.link = b.link
  chip : b'.chip = b.chip
  traffic : b'.traffic = b.traffic

/-- The clock has no part in an exchange. -/
theorem Apace.send {b b' : Bench} (h : b.Apace b') (i : Instruction) :
    (b'.send i).1 = (b.send i).1 ∧ (b.send i).2.Apace (b'.send i).2 := by
  obtain ⟨link, chip, clock, traffic⟩ := b
  obtain ⟨_, _, clock', _⟩ := b'
  obtain ⟨rfl, rfl, rfl⟩ := h
  exact ⟨rfl, rfl, rfl, rfl⟩

/-- Neither has any pause. -/
theorem apace_parallel : Parallel True False (fun _ => True) Apace where
  send _ _ i _ h := h.send i
  wait _ _ _ h := ⟨h.link, h.chip, h.traffic⟩
  waitFirst _ _ _ _ h := ⟨h.link, h.chip, h.traffic⟩
  waitSecond _ _ _ _ h := ⟨h.link, h.chip, h.traffic⟩
  configure _ _ setting _ h := ⟨h.link, congrArg (Chip.configure · setting) h.chip, h.traffic⟩

end Bench

namespace Session

variable {s : Session} {a : Action}

/-- The driver in use is at rest, and has the options that it was made with. -/
def Made (options : DriverOptions) (s : Session) : Prop :=
  ∀ d, s.device.driver? = some d → d.state.AtRest ∧ d.options = options

theorem made_create (id : Identity) (link : Link) (compareBuffer : CompareBuffer)
    (options : DriverOptions) : (create id link compareBuffer options).Made options := by
  intro d found
  refine ⟨atRest_create id link compareBuffer options found, ?_⟩
  cases found
  rfl

theorem Made.step {options : DriverOptions} (h : s.Made options)
    (other : ∀ link options, a ≠ .rebuild link options) : (s.step a).2.Made options := by
  intro d' found
  have drives := drives_step (fun d found => (h d found).1) found
  refine ⟨drives.atRest fun d found => (h d found).1, ?_⟩
  generalize before : s.device.driver? = driver at drives
  cases drives with
  | keep => exact (h _ before).2
  | move _ _ moves => exact moves.made.1.trans (h _ before).2
  | @giveUp d _ _ => exact (h d before).2
  | renew rebuilt => exact absurd rebuilt (other _ _)

theorem Made.run {options : DriverOptions} (h : s.Made options) {settings : Setting → Prop}
    {actions : List Action} (common : ∀ a ∈ actions, a.Common True settings) :
    (s.run actions).Made options :=
  run_preserves (fun _ a mem h => h.step fun link options rebuilt => by
    have := common a mem
    rwa [rebuilt] at this) h

/-- The second session is the first one with that pace. -/
structure Tuned (pauses : Bool) (pollInterval : Nat) (s s' : Session) : Prop where
  device : s.device = .gone ∧ s'.device = .gone ∨ ∃ d, s.device.driver? = some d ∧
    s'.device = s.device.withDriver { d with options := { d.options with pauses, pollInterval } }
  link : s'.bench.link = s.bench.link
  chip : s'.bench.chip = s.bench.chip
  traffic : s'.bench.traffic = s.bench.traffic

/-- Drivers side by side that are made for one link differ in their options at most. -/
theorem tuned_of_made {s' : Session} {options : DriverOptions} {pauses : Bool} {pollInterval : Nat}
    (h : s.Alongside True False Bench.Apace s') (made : s.Made options)
    (made' : s'.Made { options with pauses, pollInterval }) : s.Tuned pauses pollInterval s' := by
  obtain ⟨compareBuffer, device, b⟩ := s
  obtain ⟨compareBuffer', device', b'⟩ := s'
  obtain ⟨devices, benches⟩ := h
  refine ⟨?_, benches.link, benches.chip, benches.traffic⟩
  have tuned {d d' : Driver} (siblings : d.Siblings True False d') (own : d.options = options)
      (own' : d'.options = { options with pauses, pollInterval }) :
      d' = { d with options := { d.options with pauses, pollInterval } } := by
    obtain ⟨_, -, -, _, _, _, rfl, link, -⟩ := siblings
    obtain rfl := link trivial
    rw [own, ← own']
    rfl
  cases devices with
  | gone => exact .inl ⟨rfl, rfl⟩
  | bare siblings =>
    exact .inr ⟨_, rfl, congrArg Device.bare (tuned siblings (made _ rfl).2 (made' _ rfl).2)⟩
  | disk siblings =>
    exact .inr ⟨_, rfl, congrArg (fun d => Device.disk ⟨d, _⟩)
      (tuned siblings (made _ rfl).2 (made' _ rfl).2)⟩
  | shared siblings =>
    exact .inr ⟨_, rfl, congrArg (fun d => Device.shared ⟨d, _⟩)
      (tuned siblings (made _ rfl).2 (made' _ rfl).2)⟩

/-! ### Delays -/

/-- What an operation of the disk does in time. -/
def diskMoments (s : Session) (operation : DiskOperation) : List Moment :=
  match s.device.disk? with
  | some d => (operation.run.run d).timeline s.bench
  | none => []

/-- What an action makes the driver do in time. -/
def actionMoments (s : Session) : Action → List Moment
  | .flash operation => s.moments operation
  | .disk operation => s.diskMoments operation
  | .join first second =>
      s.diskMoments first ++ (s.step (.disk first)).2.diskMoments second
  | _ => []

/-- How long the driver waits in the course of an action, one time after the other. -/
def pauses (s : Session) (a : Action) : List Nat :=
  (s.actionMoments a).filterMap Moment.pause?

theorem clock_step_disk (s : Session) (operation : DiskOperation) :
    (s.step (.disk operation)).2.bench.clock =
      ((s.diskMoments operation).filterMap Moment.pause?).foldl Clock.wait s.bench.clock := by
  simp only [Session.step, Session.onDisk, diskMoments]
  cases s.device.disk? with
  | none => rfl
  | some d => exact Script.clock_run _ _

/-- The clock counts the waits of the driver, and the time that passes by itself. -/
theorem clock_step (s : Session) (other : ∀ ns, a ≠ .wait ns) :
    (s.step a).2.bench.clock = (s.pauses a).foldl Clock.wait s.bench.clock := by
  cases a with
  | flash operation =>
    simp only [pauses, actionMoments, moments]
    cases found : s.device.driver? with
    | none => simp only [Session.step, found]; rfl
    | some d =>
      rw [step_flash_eq found]
      exact Script.clock_run _ _
  | disk operation => exact clock_step_disk s operation
  | join first second =>
    rw [step_join, clock_step_disk, clock_step_disk, pauses, actionMoments, List.filterMap_append,
      List.foldl_append]
  | wait ns => exact absurd rfl (other ns)
  | request r =>
    obtain ⟨compareBuffer, device, b⟩ := s
    cases device <;> rfl
  | intoDisk format =>
    simp only [Session.step]
    split
    · split <;> rfl
    · rfl
    · rfl
  | configure | frame | spi | share | unwrap | rebuild => rfl

/-! ### Without pauses -/

section

variable {options : DriverOptions} {κ : Type} {next : κ → Moment → Option κ}

/-- The observer lets an operation of the disk pass. -/
theorem Made.follows_disk (made : s.Made options) (unpaced : options.pauses = false)
    {operation : DiskOperation}
    (timely : Disk.Timely s.bench.link next (liftM operation.run : DiskM DiskOutcome)) (k : κ) :
    ∃ k', (s.diskMoments operation).foldlM next k = some k' := by
  simp only [diskMoments]
  cases found : s.device.disk? with
  | none => exact ⟨k, rfl⟩
  | some d =>
    have own : d.flash.Unpaced :=
      (congrArg DriverOptions.pauses (made _ (Device.driver?_of_disk? found)).2).trans unpaced
    obtain ⟨k', followed, -⟩ := (DiskOperation.tracks_of_timely timely own k).timeline rfl
    exact ⟨k', followed⟩

/-- One that lets every operation pass that the action runs lets the action pass. -/
theorem Made.follows (made : s.Made options) (unpaced : options.pauses = false) {k : κ}
    (flash : ∀ operation d, a = .flash operation → s.device.driver? = some d → d.Unpaced →
      operation.run.Tracks s.bench.link next d k (fun _ d' _ => d'.Unpaced)
        fun _ d' _ => d'.Unpaced)
    (disk : ∀ operation, (a = .disk operation ∨ ∃ other, a = .join operation other ∨
        a = .join other operation) →
      Disk.Timely s.bench.link next (liftM operation.run : DiskM DiskOutcome)) :
    ∃ k', (s.actionMoments a).foldlM next k = some k' := by
  cases a with
  | flash operation =>
    simp only [actionMoments, moments]
    cases found : s.device.driver? with
    | none => exact ⟨k, rfl⟩
    | some d =>
      have own : d.Unpaced := (congrArg DriverOptions.pauses (made d found).2).trans unpaced
      obtain ⟨k', followed, -⟩ := Script.Tracks.timeline (flash operation d rfl found own) rfl
      exact ⟨k', followed⟩
  | disk operation => exact made.follows_disk unpaced (disk operation (.inl rfl)) k
  | join first second =>
    obtain ⟨k₁, begun⟩ :=
      made.follows_disk unpaced (disk first (.inr ⟨second, .inl rfl⟩)) k
    have keeps : ∀ link options, Action.disk first ≠ .rebuild link options :=
      fun _ _ same => Action.noConfusion same
    have link : (s.step (.disk first)).2.bench.link = s.bench.link := link_step keeps
    obtain ⟨k₂, ended⟩ := (made.step keeps).follows_disk unpaced
      (link ▸ disk second (.inr ⟨first, .inr rfl⟩)) k₁
    refine ⟨k₂, ?_⟩
    rw [actionMoments, List.foldlM_append, begun]
    exact ended
  | _ => exact ⟨k, rfl⟩

end

end Session

/-- The action may make the driver wait for an erase, or for the chip to wake up. -/
def Action.waits : Action → Bool
  | flash operation => operation.waits
  | disk operation => operation.waits
  | join first second => first.waits || second.waits
  | _ => false

namespace Session

variable {s : Session} {a : Action} {options : DriverOptions}

/-- What the vigil begins an action with. -/
def vigil (s : Session) : Vigil :=
  ⟨s.device.driver?.any fun d => d.state = .erasing, none⟩

/-- The driver waits only for erases and for the chip to wake up. -/
structure Unhurried (s : Session) (a : Action) : Prop where
  /-- The delays are the driver's. -/
  clock : (∀ ns, a ≠ .wait ns) →
    (s.step a).2.bench.clock = (s.pauses a).foldl Clock.wait s.bench.clock
  /-- Every one of them is due. -/
  due : ∃ k, (s.actionMoments a).foldlM Vigil.next s.vigil = some k
  none : a.waits = false → s.pauses a = []

theorem Made.unhurried (made : s.Made options) (unpaced : options.pauses = false) (a : Action) :
    s.Unhurried a := by
  refine ⟨s.clock_step, made.follows unpaced (fun operation d _ found own => ?_)
    fun operation _ => operation.timely_run_vigil, fun goesOn => ?_⟩
  · have same : s.vigil = .start d := by
      simp only [vigil, found]
      rfl
    rw [same]
    exact operation.tracks_run_vigil own
  · obtain ⟨k, followed⟩ := made.follows (a := a) unpaced
      (fun operation d action _ own => by
        subst action
        exact FlashOperation.timely_run refusePause_lets_exchange goesOn d () own)
      (fun operation action => by
        refine DiskOperation.timely_run refusePause_lets_exchange ?_
        rcases action with rfl | ⟨other, rfl | rfl⟩
        · exact goesOn
        · exact (Bool.or_eq_false_iff.mp goesOn).1
        · exact (Bool.or_eq_false_iff.mp goesOn).2)
    exact pauses_eq_nil followed

/-- The pace of polling changes nothing but the time. -/
theorem pace_changes_nothing (id : Identity) (link : Link) (compareBuffer : CompareBuffer)
    (options : DriverOptions) (pauses : Bool) (pollInterval : Nat) (actions : List Action)
    (common : ∀ a ∈ actions, a.Common True fun _ => True) :
    (create id link compareBuffer { options with pauses, pollInterval }).outcomes actions =
        (create id link compareBuffer options).outcomes actions ∧
      ((create id link compareBuffer options).run actions).Tuned pauses pollInterval
        ((create id link compareBuffer { options with pauses, pollInterval }).run actions) ∧
      (options.pauses = false →
        ∀ a, ((create id link compareBuffer options).run actions).Unhurried a) := by
  have start : (create id link compareBuffer options).Alongside True False Bench.Apace
      (create id link compareBuffer { options with pauses, pollInterval }) :=
    ⟨.bare ⟨_, rfl, Layout.suits_unknown _, _, _, _, rfl, fun _ => rfl, False.elim⟩,
      rfl, rfl, rfl⟩
  have made := (made_create id link compareBuffer options).run common
  obtain ⟨outcomes, alongside⟩ := start.run Bench.apace_parallel common
  refine ⟨outcomes, tuned_of_made alongside made ?_, fun unpaced => made.unhurried unpaced⟩
  exact (made_create id link compareBuffer { options with pauses, pollInterval }).run common

/-- An erase and a program, without pauses and with pauses of half a millisecond. The erase
takes two milliseconds either way, and the program one or no time at all. -/
theorem pace_changes_nothing_but_the_clock :
    (∀ a ∈ [.flash .identify, .flash (.eraseSector 0), .flash .finishErase,
        .flash (.program 0 [1, 2])], Action.Common True (fun _ => True) a) ∧
    DriverOptions.spinning.pauses = false ∧
    ∃ s s', (create ⟨0xEF, 0x40, 0x14⟩ .direct .standard .spinning).run
        [.flash .identify, .flash (.eraseSector 0), .flash .finishErase,
          .flash (.program 0 [1, 2])] = s ∧
      (create ⟨0xEF, 0x40, 0x14⟩ .direct .standard
          { DriverOptions.spinning with pauses := true, pollInterval := 500 }).run
        [.flash .identify, .flash (.eraseSector 0), .flash .finishErase,
          .flash (.program 0 [1, 2])] = s' ∧
      s.Tuned true 500 s' ∧ s.bench.clock = ⟨2000000, 2⟩ ∧
      s'.bench.clock = ⟨3000000, 4⟩ ∧ s.pauses (.flash (.program 0 [1, 2])) = [] := by
  have common : ∀ a ∈ [.flash .identify, .flash (.eraseSector 0), .flash .finishErase,
      .flash (.program 0 [1, 2])], Action.Common True (fun _ => True) a := by
    simp [Action.Common]
  obtain ⟨-, tuned, unhurried⟩ := pace_changes_nothing ⟨0xEF, 0x40, 0x14⟩ .direct .standard
    .spinning true 500 _ common
  exact ⟨common, rfl, _, _, rfl, rfl, tuned, by decide +kernel, by decide +kernel,
    (unhurried rfl (.flash (.program 0 [1, 2]))).none rfl⟩

end Session

end SerialFlash
