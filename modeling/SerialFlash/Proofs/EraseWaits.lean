import SerialFlash.Proofs.Promptness
import SerialFlash.Proofs.StateMachine
import SerialFlash.Proofs.Traces
import SerialFlash.Timeline

/-!
How long an erase is waited for. The wait reads the status, and a millisecond later once more, until
a read fails or shows the chip idle, or until the time is up: with a limit of `T` milliseconds that
is behind the read number `T`, counted from zero. What is said holds of an erasing driver on any
chip, whatever it does.
-/

namespace SerialFlash

open Procedure

/-- What a reply that ends a wait is answered with. -/
def waitAnswer : Reply → Except (DriverError BusError) Unit
  | .ok _ => .ok ()
  | .error e => .error (.bus e)

/-- What a reply says of the progress of an erase. -/
def progressAnswer : Reply → Except (DriverError BusError) EraseProgress
  | .ok reply =>
      .ok (if (StatusRegister.ofReply reply).isBusy then .running erasePollHint else .done)
  | .error e => .error (.bus e)

theorem progressAnswer_of_ends {reply : Reply} (ends : endsWait reply = true) :
    progressAnswer reply = (waitAnswer reply).map fun _ => .done := by
  cases reply with
  | ok reply =>
    have idle : (StatusRegister.ofReply reply).isBusy = false := by simpa [endsWait] using ends
    simp only [progressAnswer, idle]
    rfl
  | error e => rfl

theorem progressAnswer_of_busy {reply : Reply} (busy : endsWait reply = false) :
    progressAnswer reply = .ok (.running erasePollHint) := by
  cases reply with
  | ok reply =>
    have set : (StatusRegister.ofReply reply).isBusy = true := by simpa [endsWait] using busy
    rw [progressAnswer, if_pos set]
  | error e => contradiction

theorem progressAnswer_running_iff {reply : Reply} :
    (∃ hint, 0 < hint ∧ progressAnswer reply = .ok (.running hint)) ↔
      ∃ bytes, reply = .ok bytes ∧ (StatusRegister.ofReply bytes).isBusy = true := by
  constructor
  · rintro ⟨hint, -, running⟩
    cases reply with
    | error e => contradiction
    | ok bytes =>
      refine ⟨bytes, rfl, ?_⟩
      by_cases busy : (StatusRegister.ofReply bytes).isBusy = true
      · exact busy
      · simp [progressAnswer, busy] at running
  · rintro ⟨bytes, rfl, busy⟩
    exact ⟨erasePollHint, by decide, by rw [progressAnswer, if_pos busy]⟩

/-- Status reads with a millisecond between any two. -/
def Link.watch (l : Link) (replies : List Reply) : List Moment :=
  (replies.map (.exchanged (l.request .readStatus1))).intersperse (.waited 1000000)

/-- The bench behind a first status read and `n` more, each of them a millisecond later. -/
def Bench.watched (b : Bench) (n : Nat) : Bench :=
  { b.polled (n + 1) with
    clock := ⟨b.clock.nanoseconds + n * 1000000, b.clock.calls + n⟩ }

theorem Link.watch_cons (l : Link) (reply next : Reply) (rest : List Reply) :
    l.watch (reply :: next :: rest) =
      .exchanged (l.request .readStatus1) reply :: .waited 1000000 :: l.watch (next :: rest) := rfl

/-- The reads are seen as they are. -/
theorem Link.filterMap_event_watch (l : Link) (replies : List Reply) :
    (l.watch replies).filterMap Moment.event? =
      replies.map (.exchanged (l.request .readStatus1)) := by
  induction replies with
  | nil => rfl
  | cons reply rest ih =>
    cases rest with
    | nil => rfl
    | cons next rest =>
      rw [watch_cons]
      exact congrArg (List.cons _) ih

theorem Link.requestsSent_watch (l : Link) (replies : List Reply) :
    requestsSent ((l.watch replies).filterMap Moment.event?) =
      List.replicate replies.length (l.request .readStatus1) := by
  rw [filterMap_event_watch]
  induction replies with
  | nil => rfl
  | cons reply rest ih => exact congrArg (List.cons _) ih

/-- Between `n + 1` reads there are `n` pauses. -/
theorem Link.filterMap_pause_watch (l : Link) (replies : List Reply) :
    (l.watch replies).filterMap Moment.pause? =
      List.replicate (replies.length - 1) 1000000 := by
  induction replies with
  | nil => rfl
  | cons reply rest ih =>
    cases rest with
    | nil => rfl
    | cons next rest =>
      rw [watch_cons]
      exact congrArg (List.cons _) ih

theorem Bench.chip_watched (b : Bench) (n : Nat) :
    (b.watched n).chip = (b.polled (n + 1)).chip := by
  rw [watched]

theorem Bench.watched_zero (b : Bench) : b.watched 0 = (b.send .readStatus1).2 := by
  rw [watched, Nat.zero_mul]
  rfl

theorem Bench.watched_succ (b : Bench) (n : Nat) :
    b.watched (n + 1) = ((b.send .readStatus1).2.wait 1000000).watched n := by
  have time : b.clock.nanoseconds + (n + 1) * 1000000 =
      b.clock.nanoseconds + 1000000 + n * 1000000 := by omega
  have calls : b.clock.calls + (n + 1) = b.clock.calls + 1 + n := by omega
  have clock : ((b.send .readStatus1).2.wait 1000000).clock =
      ⟨b.clock.nanoseconds + 1000000, b.clock.calls + 1⟩ := rfl
  rw [watched, watched, polled_wait, clock, time, calls]
  rfl

/-- The reads behind one that does not end the wait come a millisecond later. -/
theorem Bench.watch_succ (b : Bench) (n : Nat) :
    b.link.watch (b.polls (n + 2)) =
      .exchanged (b.link.request .readStatus1) (b.poll 0) :: .waited 1000000 ::
        b.link.watch (((b.send .readStatus1).2.wait 1000000).polls (n + 1)) := by
  have same : ((b.send .readStatus1).2.wait 1000000).polls (n + 1) =
      (b.send .readStatus1).2.polls (n + 1) :=
    List.map_congr_left fun j _ => poll_wait _ j _
  rw [same, polls_succ, polls_succ]
  rfl

namespace Driver

variable {d : Driver} {b : Bench}

/-- While an erase is outstanding the status is read once, whatever comes of it. -/
theorem script_eraseProgress (erasing : d.state = .erasing) :
    eraseProgress.script d = .send .readStatus1 fun reply =>
      .done (progressAnswer reply, if endsWait reply then { d with state := .ready } else d) := by
  simp only [eraseProgress, script_bind, script_get, Script.done_bind, follow_ok, erasing,
    script_liftM, Script.ask, Script.send_bind]
  congr 1
  funext reply
  cases reply with
  | error e => rfl
  | ok reply =>
    cases busy : (StatusRegister.ofReply reply).isBusy with
    | true => simp [busy, endsWait, progressAnswer]
    | false =>
      simp only [busy, endsWait, progressAnswer]
      rfl

/-- A reply that does not end the wait is followed by another read, if there is time. -/
theorem script_finishWithin (erasing : d.state = .erasing) (remaining : Nat) :
    (finishWithin remaining).script d = .send .readStatus1 fun reply =>
      if endsWait reply then .done (waitAnswer reply, { d with state := .ready })
      else
        match remaining with
        | 0 => .done (.error .timeout, { d with state := .failed })
        | remaining + 1 => .pause 1000 ((finishWithin remaining).script d) := by
  have asked (f : EraseProgress → FlashM Unit) : (eraseProgress >>= f).script d =
      .send .readStatus1 fun reply =>
        if endsWait reply then
          follow (fun _ => f .done) (waitAnswer reply, { d with state := .ready })
        else (f (.running erasePollHint)).script d := by
    rw [script_bind, script_eraseProgress erasing, Script.send_bind]
    congr 1
    funext reply
    cases ended : endsWait reply with
    | true =>
      rw [progressAnswer_of_ends ended]
      cases reply <;> rfl
    | false =>
      rw [progressAnswer_of_busy ended]
      rfl
  cases remaining with
  | zero =>
    rw [finishWithin, asked]
    congr 1
    funext reply
    cases reply <;> rfl
  | succ remaining =>
    rw [finishWithin, asked]
    congr 1
    funext reply
    cases reply <;> rfl

/-- One read that does not end the wait. -/
theorem finishWithin_step (erasing : d.state = .erasing) (busy : endsWait (b.poll 0) = false)
    (remaining : Nat) :
    ((finishWithin (remaining + 1)).script d).run b =
        ((finishWithin remaining).script d).run ((b.send .readStatus1).2.wait 1000000) ∧
      ((finishWithin (remaining + 1)).script d).timeline b =
        .exchanged (b.link.request .readStatus1) (b.poll 0) :: .waited 1000000 ::
          ((finishWithin remaining).script d).timeline
            ((b.send .readStatus1).2.wait 1000000) := by
  have goes : endsWait (b.send .readStatus1).1 = false := busy
  rw [script_finishWithin erasing]
  simp only [Script.run_send, Script.timeline, goes, Bool.false_eq_true, if_false]
  exact ⟨rfl, rfl⟩

/-- A wait that is given the time for it lasts up to the read that ends it. -/
theorem finishWithin_ends (erasing : d.state = .erasing) {k remaining : Nat} (le : k ≤ remaining)
    (ends : b.EndsAt k) :
    ((finishWithin remaining).script d).run b =
        ((waitAnswer (b.poll k), { d with state := .ready }), b.watched k) ∧
      ((finishWithin remaining).script d).timeline b = b.link.watch (b.polls (k + 1)) := by
  induction k generalizing remaining b with
  | zero =>
    have ended : endsWait (b.send .readStatus1).1 = true := ends.1
    rw [script_finishWithin erasing, Bench.watched_zero]
    simp only [Script.run_send, Script.timeline, ended, if_true]
    exact ⟨rfl, rfl⟩
  | succ k ih =>
    obtain ⟨remaining, rfl⟩ : ∃ more, remaining = more + 1 := ⟨remaining - 1, by omega⟩
    obtain ⟨busy, later⟩ := Bench.endsAt_succ_iff.mp ends
    have later : ((b.send .readStatus1).2.wait 1000000).EndsAt k := by
      simpa only [Bench.EndsAt, Bench.poll_wait] using later
    obtain ⟨run, moments⟩ := finishWithin_step erasing busy remaining
    obtain ⟨run', moments'⟩ := ih (Nat.le_of_succ_le_succ le) later
    rw [run, moments, run', moments', Bench.watched_succ, Bench.watch_succ, Bench.poll_wait]
    exact ⟨rfl, rfl⟩

/-- A wait that no read ends in time is given up behind the last one. -/
theorem finishWithin_expires (erasing : d.state = .erasing) {remaining : Nat}
    (busy : ∀ k ≤ remaining, endsWait (b.poll k) = false) :
    ((finishWithin remaining).script d).run b =
        ((.error .timeout, { d with state := .failed }), b.watched remaining) ∧
      ((finishWithin remaining).script d).timeline b =
        b.link.watch (b.polls (remaining + 1)) := by
  induction remaining generalizing b with
  | zero =>
    have goes : endsWait (b.send .readStatus1).1 = false := busy 0 (Nat.le_refl 0)
    rw [script_finishWithin erasing, Bench.watched_zero]
    simp only [Script.run_send, Script.timeline, goes, Bool.false_eq_true, if_false]
    exact ⟨rfl, rfl⟩
  | succ remaining ih =>
    obtain ⟨run, moments⟩ := finishWithin_step erasing (busy 0 (Nat.zero_le _)) remaining
    obtain ⟨run', moments'⟩ := ih (b := (b.send .readStatus1).2.wait 1000000) fun k le => by
      rw [Bench.poll_wait]
      exact busy (k + 1) (Nat.succ_le_succ le)
    rw [run, moments, run', moments', Bench.watched_succ, Bench.watch_succ]
    exact ⟨rfl, rfl⟩

theorem script_finishErase (d : Driver) :
    FlashOperation.finishErase.run.script d =
      ((finishWithin d.options.eraseTimeout).script d).bind fun (result, d) =>
        .done (result.map fun _ => .nothing, d) := by
  rw [FlashOperation.run, FlashOperation.silent, script_map, finishErase, script_bind, script_get]
  rfl

end Driver

/-- A chip that is awake, and neither stuck nor disturbed, ends a wait well when its busy time is
used up. -/
theorem Bench.endsAt_busyReads {b : Bench} (awake : b.chip.poweredDown = false)
    (free : b.chip.stuckBusy = false) (placed : b.chip.Placed) (noFaults : b.chip.faults = .none) :
    b.EndsAt b.chip.busyReads ∧ waitAnswer (b.poll b.chip.busyReads) = .ok () := by
  -- one read shows whether there is busy time left, and takes one off it
  have shown {b : Bench} (awake : b.chip.poweredDown = false) (free : b.chip.stuckBusy = false)
      (placed : b.chip.Placed) (noFaults : b.chip.faults = .none) :
      waitAnswer (b.poll 0) = .ok () ∧ endsWait (b.poll 0) = !decide (0 < b.chip.busyReads) ∧
        (b.chip.busyFor (b.chip.busyReads - 1)).Alike (b.send .readStatus1).2.chip := by
    rcases b.send_cases (i := .readStatus1) trivial with ⟨faults, -⟩ | ⟨reply, chip⟩
    · exact absurd noFaults faults
    · rw [Chip.obey_readStatus1, if_neg (by simp [awake])] at reply chip
      rw [poll, polled, reply]
      refine ⟨rfl, ?_, chip⟩
      rw [endsWait, StatusRegister.ofReply, List.headD_cons, Chip.isBusy_status1_eq placed,
        Chip.isBusy_eq free]
  generalize time : b.chip.busyReads = reads
  induction reads generalizing b with
  | zero =>
    obtain ⟨good, idle, -⟩ := shown awake free placed noFaults
    refine ⟨⟨?_, fun _ lt => absurd lt (Nat.not_lt_zero _)⟩, good⟩
    rw [idle, time]
    rfl
  | succ reads ih =>
    obtain ⟨-, busy, chip⟩ := shown awake free placed noFaults
    rw [time] at busy
    obtain ⟨_, _, _, same, none⟩ := chip
    have left : (b.send .readStatus1).2.chip.busyReads = reads := by
      rw [same]
      show b.chip.busyReads - 1 = reads
      omega
    obtain ⟨ends, good⟩ := ih (b := (b.send .readStatus1).2) (by rw [same]; exact awake)
      (by rw [same]; exact free) (by rw [same]; exact placed) (by rw [same]; exact none noFaults)
      left
    exact ⟨endsAt_succ_iff.mpr ⟨by simpa using busy, ends⟩, good⟩

/-! ### Sessions -/

/-- If no read ends the wait in time, none of them is one that would. -/
theorem Bench.all_busy_of_late {b : Bench} {limit : Nat} (late : ∀ k, b.EndsAt k → limit < k) :
    ∀ k ≤ limit, endsWait (b.poll k) = false :=
  fun k le => FirstEnd.all_busy_of_late late k (Nat.lt_succ_of_le le)

namespace Session

variable {s : Session} {d : Driver}

/-- What an operation of the driver does in time. -/
def moments (s : Session) (operation : FlashOperation) : List Moment :=
  match s.device.driver? with
  | some d => (operation.run.script d).timeline s.bench
  | none => []

theorem requestsSent_eq_moments (found : s.device.driver? = some d) (operation : FlashOperation) :
    requestsSent (s.events (.flash operation)) =
      requestsSent ((s.moments operation).filterMap Moment.event?) := by
  simp only [events, moments, found, requestsSent_append, requestsSent_ofResult, List.append_nil,
    Script.exchanges_eq_events]

/-- An operation that only reads the status changes no cell. -/
theorem memory_polled (b : Bench) (n : Nat) : (b.polled n).chip.memory = b.chip.memory := by
  induction n generalizing b with
  | zero => rfl
  | succ n ih => exact (ih _).trans (b.undisturbed_send (i := .readStatus1) trivial).memory

/-- The erase has been waited for with `n + 1` status reads, and the driver is left as `d'`. -/
structure Watched (s : Session) (n : Nat) (d' : Driver) (s' : Session) : Prop where
  /-- Between any two reads there is a pause of one millisecond, and nothing else is done. -/
  moments : s.moments .finishErase = s.bench.link.watch (s.bench.polls (n + 1))
  requests : requestsSent (s.events (.flash .finishErase)) =
    List.replicate (n + 1) (s.bench.link.request .readStatus1)
  pauses : (s.moments .finishErase).filterMap Moment.pause? = List.replicate n 1000000
  clock : s'.bench.clock =
    ⟨s.bench.clock.nanoseconds + n * 1000000, s.bench.clock.calls + n⟩
  device : s'.device = s.device.withDriver d'
  chip : s'.bench.chip = (s.bench.polled (n + 1)).chip
  memory : s'.bench.chip.memory = s.bench.chip.memory

theorem watched_of_run (found : s.device.driver? = some d) {n : Nat} {d' : Driver}
    {r : Except (DriverError BusError) Unit}
    (waited : ((Driver.finishWithin d.options.eraseTimeout).script d).run s.bench =
        ((r, d'), s.bench.watched n) ∧
      ((Driver.finishWithin d.options.eraseTimeout).script d).timeline s.bench =
        s.bench.link.watch (s.bench.polls (n + 1))) :
    ∃ s', s.step (.flash .finishErase) = (.flash (r.map fun _ => .nothing), s') ∧
      s.Watched n d' s' := by
  obtain ⟨run, timeline⟩ := waited
  have moments : s.moments .finishErase = s.bench.link.watch (s.bench.polls (n + 1)) := by
    simp only [Session.moments, found, Driver.script_finishErase, Script.timeline_bind,
      Script.timeline, timeline, List.append_nil]
  have chip := s.bench.chip_watched n
  refine ⟨⟨s.compareBuffer, s.device.withDriver d', s.bench.watched n⟩, ?_, moments, ?_, ?_, rfl,
    rfl, chip, (congrArg Chip.memory chip).trans (memory_polled s.bench (n + 1))⟩
  · rw [step_flash_eq found, Driver.script_finishErase, Script.run_bind, run]
    rfl
  · rw [requestsSent_eq_moments found, moments, Link.requestsSent_watch, Bench.polls,
      List.length_map, List.length_range]
  · rw [moments, Link.filterMap_pause_watch, Bench.polls, List.length_map, List.length_range,
      Nat.add_sub_cancel]

/-- What asking for the progress of an erase does. -/
structure Asked (s : Session) (d : Driver) (r : Except (DriverError BusError) FlashValue)
    (s' : Session) : Prop where
  moments : s.moments .eraseProgress =
    [.exchanged (s.bench.link.request .readStatus1) (s.bench.poll 0)]
  requests : requestsSent (s.events (.flash .eraseProgress)) =
    [s.bench.link.request .readStatus1]
  /-- The erase is said to be running if the busy bit is set, and only then. -/
  running : (∃ hint, 0 < hint ∧ r = .ok (.erase (.running hint))) ↔
    ∃ reply, s.bench.poll 0 = .ok reply ∧ (StatusRegister.ofReply reply).isBusy = true
  ended : endsWait (s.bench.poll 0) = true →
    r = (waitAnswer (s.bench.poll 0)).map fun _ => .erase .done
  device : s'.device = s.device.withDriver
    (if endsWait (s.bench.poll 0) then { d with state := .ready } else d)
  memory : s'.bench.chip.memory = s.bench.chip.memory

theorem asked_of_erasing (found : s.device.driver? = some d) (erasing : d.state = .erasing) :
    ∃ r s', s.step (.flash .eraseProgress) = (.flash r, s') ∧ s.Asked d r s' := by
  have script : FlashOperation.eraseProgress.run.script d = .send .readStatus1 fun reply =>
      .done ((progressAnswer reply).map .erase,
        if endsWait reply then { d with state := .ready } else d) := by
    rw [FlashOperation.run, script_map, Driver.script_eraseProgress erasing, Script.send_bind]
    rfl
  have moments : s.moments .eraseProgress =
      [.exchanged (s.bench.link.request .readStatus1) (s.bench.poll 0)] := by
    simp only [Session.moments, found, script, Script.timeline]
    rfl
  have step : s.step (.flash .eraseProgress) =
      (.flash ((progressAnswer (s.bench.poll 0)).map .erase),
        ⟨s.compareBuffer, s.device.withDriver
          (if endsWait (s.bench.poll 0) then { d with state := .ready } else d),
          s.bench.polled 1⟩) := by
    rw [step_flash_eq found, script]
    rfl
  refine ⟨_, _, step, moments, ?_, ?_, fun ends => ?_, rfl, memory_polled s.bench 1⟩
  · rw [requestsSent_eq_moments found, moments]
    rfl
  · rw [← progressAnswer_running_iff]
    refine exists_congr fun hint => and_congr_right fun _ => ?_
    cases progressAnswer (s.bench.poll 0) <;> simp [Except.map]
  · rw [progressAnswer_of_ends ends]
    cases s.bench.poll 0 <;> rfl

/-- A wait for an erase lasts up to the first status read that fails or shows the chip idle, if that
comes in time, and is given up behind the last one otherwise. It sends nothing but status reads. -/
theorem erase_wait_outcome (found : s.device.driver? = some d) (erasing : d.state = .erasing) :
    (∀ k, s.bench.EndsAt k → k ≤ d.options.eraseTimeout → ∃ s',
      s.step (.flash .finishErase) =
        (.flash ((waitAnswer (s.bench.poll k)).map fun _ => .nothing), s') ∧
      s.Watched k { d with state := .ready } s') ∧
    ((∀ k, s.bench.EndsAt k → d.options.eraseTimeout < k) → ∃ s',
      s.step (.flash .finishErase) = (.flash (.error .timeout), s') ∧
      s.Watched d.options.eraseTimeout { d with state := .failed } s') ∧
    ∃ r s', s.step (.flash .eraseProgress) = (.flash r, s') ∧ s.Asked d r s' := by
  refine ⟨fun k ends le => ?_, fun late => ?_, asked_of_erasing found erasing⟩
  · exact watched_of_run found (Driver.finishWithin_ends erasing le ends)
  · exact watched_of_run found (Driver.finishWithin_expires erasing (Bench.all_busy_of_late late))

/-- An erase that has just been started on a fresh chip, with a limit in milliseconds. -/
def startedErase (limit : Nat) : Session :=
  (create ⟨0xEF, 0x40, 0x14⟩ .direct .standard
    { DriverOptions.standard with eraseTimeout := limit }).run
    [.flash .identify, .flash (.eraseSector 0)]

/-- The chip is busy for two status reads and found idle with the third. A limit of two milliseconds
is enough for that, and one of a single millisecond is not. -/
theorem third_read_ends_wait : ∃ d d' s s',
    (startedErase 2).device.driver? = some d ∧ (startedErase 1).device.driver? = some d' ∧
    d.state = .erasing ∧ d'.state = .erasing ∧
    (startedErase 2).bench.EndsAt 2 ∧ (startedErase 1).bench.EndsAt 2 ∧
    (startedErase 2).step (.flash .finishErase) = (.flash (.ok .nothing), s) ∧
    (startedErase 2).Watched 2 { d with state := .ready } s ∧
    (startedErase 1).step (.flash .finishErase) = (.flash (.error .timeout), s') ∧
    (startedErase 1).Watched 1 { d' with state := .failed } s' := by
  obtain ⟨ends, good⟩ : (startedErase 2).bench.EndsAt 2 ∧
      waitAnswer ((startedErase 2).bench.poll 2) = .ok () :=
    Bench.endsAt_busyReads (b := (startedErase 2).bench) rfl rfl rfl rfl
  have ends' : (startedErase 1).bench.EndsAt 2 :=
    (Bench.endsAt_busyReads (b := (startedErase 1).bench) rfl rfl rfl rfl).1
  obtain ⟨d, found, erasing, limit⟩ : ∃ d, (startedErase 2).device.driver? = some d ∧
      d.state = .erasing ∧ d.options.eraseTimeout = 2 := ⟨_, rfl, rfl, rfl⟩
  obtain ⟨d', found', erasing', limit'⟩ : ∃ d, (startedErase 1).device.driver? = some d ∧
      d.state = .erasing ∧ d.options.eraseTimeout = 1 := ⟨_, rfl, rfl, rfl⟩
  obtain ⟨s, step, watched⟩ :=
    (erase_wait_outcome found erasing).1 2 ends (Nat.le_of_eq limit.symm)
  rw [good] at step
  obtain ⟨s', step', watched'⟩ := (erase_wait_outcome found' erasing').2.1 fun k first => by
    rw [limit', ← ends'.eq first]
    decide
  rw [limit'] at watched'
  exact ⟨d, d', s, s', found, found', erasing, erasing', ends, ends', step, watched, step',
    watched'⟩

end Session

end SerialFlash
