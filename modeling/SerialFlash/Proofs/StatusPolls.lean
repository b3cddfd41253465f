import SerialFlash.Proofs.EraseWaits
import SerialFlash.Proofs.IdentificationOutcome
import SerialFlash.Proofs.PageCuts
import SerialFlash.Proofs.Reception
import SerialFlash.Proofs.Refusals

/-!
How long a page program or a status write is waited for. The wait reads the status until a read
fails or shows the chip idle, or until so many reads have been made as the options allow, and it
pauses before each of them or before none. It sends nothing else, so it is the same among any
replies, and a chip only comes into it with the number of reads for which it stays busy.
-/

namespace SerialFlash

/-! ### Among any replies -/

namespace Script

variable {α : Type}

/-- What a script comes to, and what it does in time, if these are the replies to what it sends, one
after the other. -/
def answered (l : Link) : Script α → (Nat → Reply) → α × List Moment
  | done value, _ => (value, [])
  | send i next, replies =>
      let rest := (next (replies 0)).answered l fun n => replies (n + 1)
      (rest.1, .exchanged (l.request i) (replies 0) :: rest.2)
  | pause us next, replies =>
      let rest := next.answered l replies
      (rest.1, .waited (us * 1000) :: rest.2)

/-- On a bench a script that only reads the status gets the replies to one read after the other. -/
theorem answered_poll {s : Script α} {good : α → Prop} (reads : s.Always (· = .readStatus1) good)
    (b : Bench) : s.answered b.link b.poll = ((s.run b).1, s.timeline b) := by
  induction s generalizing b with
  | done value => rfl
  | send i next ih =>
    obtain ⟨rfl, later⟩ := reads
    have rest := ih _ (later (b.send .readStatus1).1) (b.send .readStatus1).2
    exact congrArg (fun rest => (rest.1, Moment.exchanged _ _ :: rest.2)) rest
  | pause us next ih =>
    have same : (b.wait (us * 1000)).poll = b.poll := funext fun n => b.poll_wait n _
    have rest := ih reads (b.wait (us * 1000))
    rw [same] at rest
    exact congrArg (fun rest => (rest.1, Moment.waited _ :: rest.2)) rest

end Script

/-- One look at the status, behind a pause if the options ask for one. -/
def Link.look (l : Link) (options : DriverOptions) (reply : Reply) : List Moment :=
  (if options.pauses then [.waited (options.pollInterval * 1000)] else []) ++
    [.exchanged (l.request .readStatus1) reply]

/-- So many looks in a row. -/
def Link.looks (l : Link) (options : DriverOptions) (replies : Nat → Reply) (n : Nat) :
    List Moment :=
  (List.range n).flatMap fun j => l.look options (replies j)

/-- The status has been read `n` times, each time behind a pause if the options ask for one, and
nothing else has been done. -/
structure Link.Polled (l : Link) (options : DriverOptions) (replies : Nat → Reply) (n : Nat)
    (moments : List Moment) : Prop where
  looks : moments = l.looks options replies n
  requests : requestsSent (moments.filterMap Moment.event?) =
    List.replicate n (l.request .readStatus1)
  pauses : moments.filterMap Moment.pause? =
    if options.pauses then List.replicate n (options.pollInterval * 1000) else []

namespace Link

variable (l : Link) (options : DriverOptions) (replies : Nat → Reply)

theorem looks_succ (n : Nat) :
    l.looks options replies (n + 1) =
      l.look options (replies 0) ++ l.looks options (fun j => replies (j + 1)) n := by
  rw [looks, List.range_succ_eq_map, List.flatMap_cons, List.flatMap_map]
  rfl

theorem requestsSent_look (reply : Reply) :
    requestsSent ((l.look options reply).filterMap Moment.event?) = [l.request .readStatus1] := by
  unfold look
  split <;> rfl

theorem pauses_look (reply : Reply) :
    (l.look options reply).filterMap Moment.pause? =
      if options.pauses then [options.pollInterval * 1000] else [] := by
  unfold look
  split <;> rfl

theorem polled_looks (n : Nat) : l.Polled options replies n (l.looks options replies n) := by
  induction n generalizing replies with
  | zero => exact ⟨rfl, rfl, by split <;> rfl⟩
  | succ n ih =>
    have rest := ih fun j => replies (j + 1)
    refine ⟨rfl, ?_, ?_⟩
    · rw [looks_succ, List.filterMap_append, requestsSent_append, requestsSent_look, rest.requests]
      rfl
    · rw [looks_succ, List.filterMap_append, pauses_look, rest.pauses]
      split <;> rfl

end Link

namespace Driver

open Procedure

variable {d : Driver} {b : Bench} {l : Link} {replies : Nat → Reply}

/-- A reply that does not end the wait is followed by the rest of it. -/
theorem script_awaitIdleWithin_succ (options : DriverOptions) (polls : Nat) (d : Driver) :
    (awaitIdleWithin options (polls + 1)).script d =
      let look := .send .readStatus1 fun reply =>
        if endsWait reply then .done (waitAnswer reply, d)
        else (awaitIdleWithin options polls).script d
      if options.pauses then .pause options.pollInterval look else look := by
  have looked : (do
      let status ← readStatus1
      if status.isBusy then awaitIdleWithin options polls : FlashM Unit).script d =
        .send .readStatus1 fun reply =>
          if endsWait reply then .done (waitAnswer reply, d)
          else (awaitIdleWithin options polls).script d := by
    simp only [readStatus1, script_bind, script_ask, Script.send_bind, Script.done_bind]
    congr 1
    funext reply
    cases reply with
    | error e => rfl
    | ok reply =>
      show (if _ then _ else _ : FlashM Unit).script d = if !_ then _ else _
      cases (StatusRegister.ofReply reply).isBusy <;> rfl
  dsimp only
  rw [awaitIdleWithin, script_ite, ← looked, script_bind, script_liftM]
  rfl

theorem always_awaitIdleWithin_reads (options : DriverOptions) (polls : Nat) (d : Driver) :
    ((awaitIdleWithin options polls).script d).Always (· = .readStatus1) fun _ => True := by
  induction polls with
  | zero => trivial
  | succ polls ih =>
    have rest (reply : Reply) : (if endsWait reply then .done (waitAnswer reply, d)
        else (awaitIdleWithin options polls).script d).Always (· = .readStatus1) fun _ => True := by
      split
      · trivial
      · exact ih
    rw [script_awaitIdleWithin_succ]
    dsimp only
    split <;> exact ⟨rfl, rest⟩

/-- A wait on a bench is a wait among the replies that the bench gives. -/
theorem answered_awaitIdle (d : Driver) (b : Bench) :
    (awaitIdle.script d).answered b.link b.poll =
      (((awaitIdle.script d).run b).1, (awaitIdle.script d).timeline b) := by
  exact Script.answered_poll (always_awaitIdleWithin_reads d.options d.options.maxPolls d) b

/-- One look at the status, and the others if there have to be more. -/
theorem answered_awaitIdleWithin_succ (options : DriverOptions) (polls : Nat) :
    ((awaitIdleWithin options (polls + 1)).script d).answered l replies =
      if endsWait (replies 0) then ((waitAnswer (replies 0), d), l.look options (replies 0))
      else
        let rest := ((awaitIdleWithin options polls).script d).answered l fun n => replies (n + 1)
        (rest.1, l.look options (replies 0) ++ rest.2) := by
  rw [script_awaitIdleWithin_succ, Link.look]
  cases options.pauses <;> simp only [Script.answered, Bool.false_eq_true, if_true, if_false] <;>
    split <;> rfl

/-- A wait that is given the reads for it lasts up to the one that ends it. -/
theorem answered_awaitIdleWithin_ends (options : DriverOptions) {k polls : Nat}
    (ends : FirstEnd replies k) (lt : k < polls) :
    ((awaitIdleWithin options polls).script d).answered l replies =
      ((waitAnswer (replies k), d), l.looks options replies (k + 1)) := by
  induction k generalizing polls replies with
  | zero =>
    obtain ⟨polls, rfl⟩ : ∃ more, polls = more + 1 := ⟨polls - 1, by omega⟩
    rw [answered_awaitIdleWithin_succ, if_pos ends.1, Link.looks_succ, Link.looks, List.range_zero,
      List.flatMap_nil, List.append_nil]
  | succ k ih =>
    obtain ⟨polls, rfl⟩ : ∃ more, polls = more + 1 := ⟨polls - 1, by omega⟩
    obtain ⟨busy, later⟩ := FirstEnd.succ_iff.mp ends
    rw [answered_awaitIdleWithin_succ, if_neg (by simp [busy]),
      ih later (Nat.lt_of_succ_lt_succ lt), l.looks_succ options replies (k + 1)]

/-- A wait that no read ends in time is given up behind the last one. -/
theorem answered_awaitIdleWithin_expires (options : DriverOptions) {polls : Nat}
    (late : ∀ j < polls, endsWait (replies j) = false) :
    ((awaitIdleWithin options polls).script d).answered l replies =
      ((.error .timeout, d), l.looks options replies polls) := by
  induction polls generalizing replies with
  | zero => rfl
  | succ polls ih =>
    have busy := late 0 (Nat.succ_pos polls)
    rw [answered_awaitIdleWithin_succ, if_neg (by simp [busy]),
      ih fun j lt => late (j + 1) (Nat.succ_lt_succ lt), Link.looks_succ]

end Driver

/-! ### On a chip -/

/-- Keeps a chip that takes it busy for the program time. -/
def Instruction.Programs : Instruction → Prop
  | programPage _ _ | writeStatus _ _ => True
  | _ => False

/-- An idle chip that is awake carries out such an instruction behind a write enable. It is in reach
as before, and stays busy for its program time. -/
theorem Chip.obey_programs {c : Chip} {l : Link} {i : Instruction} (programs : i.Programs)
    (responsive : c.responsive = true) (serves : i.OnArray → c.serves l = true) :
    let c' := ((c.obey l .writeEnable).2.obey l i).2
    c.Endures c' ∧ c'.poweredDown = false ∧ c'.busyReads = c.programBusy ∧
      (i.OnArray → c'.serves l = true) := by
  refine ⟨(endures_execute c _).trans (endures_execute _ _), ?_⟩
  have awake := (responsive_iff.mp responsive).1
  rw [obey_writeEnable, if_pos responsive]
  cases i with
  | programPage address data =>
    rw [obey_of_carryOut? (c := { c with writeEnabled := true }) responsive serves
      (fun _ => rfl) rfl]
    exact ⟨awake, rfl, serves⟩
  | writeStatus first second =>
    rw [obey_of_carryOut? (c := { c with writeEnabled := true }) responsive serves
      (fun _ => rfl) rfl]
    refine ⟨?_, rfl, False.elim⟩
    show (if c.statusLocked then _ else _ : Chip).poweredDown = false
    split <;> exact awake
  | _ => exact programs.elim

/-- The wait behind it is ended by the status read that comes behind so many others, and ends
well. -/
theorem Bench.endsAt_programBusy {b : Bench} {i : Instruction} (programs : i.Programs)
    (fits : i.Fits) (responsive : b.chip.responsive = true) (placed : b.chip.Placed)
    (noFaults : b.chip.faults = .none) (serves : i.OnArray → b.chip.serves b.link = true) :
    let b' := ((b.send .writeEnable).2.send i).2
    b'.EndsAt b.chip.programBusy ∧ waitAnswer (b'.poll b.chip.programBusy) = .ok () := by
  intro b'
  have holds : b.Holds b.link b.chip := ⟨rfl, .refl _, noFaults⟩
  obtain ⟨-, chip, noFaults'⟩ := ((holds.send (i := .writeEnable) trivial).2.send fits).2
  obtain ⟨endures, awake, busy, -⟩ := Chip.obey_programs programs responsive serves
  have free := (Chip.isBusy_eq_false_iff.mp (Chip.responsive_iff.mp responsive).2).1
  have later := endures.trans chip.endures
  obtain ⟨_, _, _, same, -⟩ := chip
  have awake' : b'.chip.poweredDown = false := by rw [same]; exact awake
  have busy' : b'.chip.busyReads = b.chip.programBusy := by rw [same]; exact busy
  rw [← busy']
  exact endsAt_busyReads awake' (later.stuckBusy.trans free) (later.placed placed) noFaults'

/-! ### Programs -/

/-- How often the status has been read. -/
def statusReads (l : Link) (events : List Event) : Nat :=
  (requestsSent events).count (l.request .readStatus1)

theorem statusReads_append (l : Link) (events later : List Event) :
    statusReads l (events ++ later) = statusReads l events + statusReads l later := by
  rw [statusReads, requestsSent_append, List.count_append]
  rfl

theorem statusReads_other {l : Link} {request : Request}
    (other : request ≠ l.request .readStatus1) (reply : Reply) (later : List Event) :
    statusReads l (.exchanged request reply :: later) = statusReads l later := by
  simp [statusReads, other]

/-- The chip takes every page program, and is busy for so many status reads behind each. -/
structure Chip.Able (c : Chip) (l : Link) (reads : Nat) : Prop where
  responsive : c.responsive = true
  serves : c.serves l = true
  placed : c.Placed
  programBusy : c.programBusy = reads

namespace Driver

open Procedure

variable {d : Driver} {b : Bench} {l : Link} {c : Chip} {reads : Nat}

/-- A piece that has been programmed has been waited for, and nothing hinders the next one. -/
theorem traces_programPiece_reads (holds : b.Holds l c) (able : c.Able l reads) {p : Piece}
    (fits : (Instruction.programPage p.address p.data).Fits) :
    (programPiece p).Traces d b
      (fun _ _ b' es => statusReads l es = reads + 1 ∧ ∃ c', b'.Holds l c' ∧ c'.Able l reads)
      fun _ _ _ _ => True := by
  obtain ⟨endures, awake, busy, serves⟩ := Chip.obey_programs (l := l)
    (i := .programPage p.address p.data) trivial able.responsive fun _ => able.serves
  have free := (Chip.isBusy_eq_false_iff.mp (Chip.responsive_iff.mp able.responsive).2).1
  have free' := endures.stuckBusy.trans free
  have placed := endures.placed able.placed
  rw [programPiece, writeEnable]
  simp only [traces_bind, traces_pure]
  refine traces_ask_held (i := .writeEnable) holds trivial fun b₁ holds₁ => ?_
  refine traces_ask_held holds₁ fits fun b₂ holds₂ => ?_
  refine (takes_awaitIdle holds₂ awake free' placed).mono ?_ fun _ _ _ _ _ => trivial
  rintro _ _ b₃ es ⟨-, answer, holds₃, sent⟩
  have soon : reads < d.options.maxPolls := by
    rw [Chip.waiting, busy, able.programBusy] at answer
    dsimp only at answer
    split at answer
    · contradiction
    · omega
  refine ⟨?_, _, holds₃, ?_, serves trivial, placed, endures.programBusy.trans able.programBusy⟩
  · have waited : statusReads l es = reads + 1 := by
      rw [statusReads, sent, Chip.waiting, busy, able.programBusy, Nat.min_eq_right soon,
        List.map_replicate, List.count_replicate_self]
    have enable : l.request .writeEnable ≠ l.request .readStatus1 :=
      fun same => DataPhase.noConfusion (congrArg Request.phase same)
    have program : l.request (.programPage p.address p.data) ≠ l.request .readStatus1 :=
      fun same => DataPhase.noConfusion (congrArg Request.phase same)
    exact (statusReads_other enable _ _).trans ((statusReads_other program _ _).trans waited)
  · have done : c.programBusy - d.options.maxPolls = 0 := by
      rw [able.programBusy]
      omega
    refine Chip.responsive_iff.mpr ⟨awake, Chip.isBusy_eq_false_iff.mpr ⟨free', ?_⟩⟩
    rw [Chip.waiting, busy]
    exact done

theorem traces_programPieces_reads (holds : b.Holds l c) (able : c.Able l reads)
    {pieces : List Piece} (fits : ∀ p ∈ pieces, (Instruction.programPage p.address p.data).Fits)
    (done : Nat) :
    (programPieces done pieces).Traces d b
      (fun _ _ _ es => statusReads l es = pieces.length * (reads + 1)) fun _ _ _ _ => True := by
  induction pieces generalizing d b c done with
  | nil => exact (Nat.zero_mul _).symm
  | cons p rest ih =>
    rw [programPieces, traces_bind, traces_tryCatch]
    simp only [traces_throw]
    refine (traces_programPiece_reads holds able (fits p List.mem_cons_self)).mono ?_
      fun _ _ _ _ _ => trivial
    rintro _ d b₁ said ⟨first, c₁, holds₁, able₁⟩
    refine (ih holds₁ able₁ (fun q mem => fits q (List.mem_cons_of_mem p mem)) _).mono ?_
      fun _ _ _ _ _ => trivial
    intro _ _ _ es later
    rw [statusReads_append, first, later, List.length_cons, Nat.succ_mul, Nat.add_comm]

/-- A program of the device costs the same number of status reads for each page. -/
theorem traces_program_reads (holds : b.Holds l c) (able : c.Able l reads)
    (suits : d.layout.Suits d.options.eraseUnit) (offset : Nat) (data : Bytes) :
    (program offset data).Traces d b
      (fun _ _ _ es => statusReads l es = pageCount offset data.length * (reads + 1))
      fun _ _ _ _ => True := by
  rw [program, traces_bind, traces_guardReady]
  refine ⟨fun _ => ?_, fun _ => trivial⟩
  rw [traces_bind, traces_get, traces_ite]
  refine ⟨fun covered => ?_, fun _ => trivial⟩
  rw [traces_bind, traces_setState, traces_resting]
  have inside : offset + data.length ≤ 16777216 :=
    Nat.le_trans (suits.covers_iff.mp covered) suits.bound
  have fits : ∀ p ∈ splitPages offset data, (Instruction.programPage p.address p.data).Fits := by
    intro p mem
    obtain ⟨some_data, -, bound⟩ := fits_of_mem_splitPages inside (by decide) mem
    have pos := List.length_pos_iff.mpr some_data
    exact ⟨by omega, some_data⟩
  refine (traces_programPieces_reads holds able fits 0).mono ?_ fun _ _ _ _ _ => trivial
  intro _ _ _ es said
  have word : offset + data.length < Word32.limit := Nat.lt_of_le_of_lt inside (by decide)
  rw [splitPages_eq_chunks word, List.length_map, List.length_range] at said
  exact said

end Driver

/-! ### Sessions -/

/-- Among these replies the wait comes to this result, behind `n` status reads. -/
def Driver.WaitsFor (d : Driver) (l : Link) (replies : Nat → Reply) (n : Nat)
    (result : Except (DriverError BusError) Unit) : Prop :=
  ∃ moments, (awaitIdle.script d).answered l replies = ((result, d), moments) ∧
    l.Polled d.options replies n moments

theorem Driver.waitsFor (d : Driver) (l : Link) (replies : Nat → Reply) :
    (∀ k, FirstEnd replies k → k < d.options.maxPolls →
      d.WaitsFor l replies (k + 1) (waitAnswer (replies k))) ∧
    ((∀ k, FirstEnd replies k → d.options.maxPolls ≤ k) →
      d.WaitsFor l replies d.options.maxPolls (.error .timeout)) := by
  refine ⟨fun k ends lt => ⟨_, ?_, l.polled_looks d.options replies _⟩,
    fun late => ⟨_, ?_, l.polled_looks d.options replies _⟩⟩
  · exact answered_awaitIdleWithin_ends d.options ends lt
  · exact answered_awaitIdleWithin_expires d.options (FirstEnd.all_busy_of_late late)

/-- On a bench that is ended by the status read behind `busy` others. -/
theorem Driver.waitsFor_endsAt (d : Driver) {b : Bench} {busy : Nat} (ends : b.EndsAt busy)
    (good : waitAnswer (b.poll busy) = .ok ()) :
    d.WaitsFor b.link b.poll (min d.options.maxPolls (busy + 1))
      (if busy < d.options.maxPolls then .ok () else .error .timeout) := by
  obtain ⟨inTime, late⟩ := d.waitsFor b.link b.poll
  split
  · next lt =>
    rw [Nat.min_eq_right lt, ← good]
    exact inTime busy ends lt
  · next le =>
    rw [Nat.min_eq_left (by omega)]
    exact late fun k ends' => by
      rw [ends'.eq ends]
      omega

namespace Session

open Procedure

variable {s s' : Session}

theorem statusReads_events {d : Driver} (found : s.device.driver? = some d)
    (operation : FlashOperation) :
    statusReads s.bench.link (s.events (.flash operation)) =
      statusReads s.bench.link ((operation.run.script d).exchanges s.bench) := by
  simp only [events, found, statusReads, requestsSent_append, requestsSent_ofResult,
    List.append_nil]

/-- A program that succeeds has been waited for page by page. -/
theorem statusReads_of_program (recognised : s.Recognised) {reads : Nat}
    (able : s.bench.chip.Able s.bench.link reads) (noFaults : s.bench.chip.faults = .none)
    {operation : FlashOperation} {offset : Nat} {data : Bytes} {v : FlashValue}
    (writes : operation = .program offset data ∨ operation = .norWrite offset data)
    (step : s.step (.flash operation) = (.flash (.ok v), s')) :
    statusReads s.bench.link (s.events (.flash operation)) =
      pageCount offset data.length * (reads + 1) := by
  cases found : s.device.driver? with
  | none =>
    simp only [Session.step, found] at step
    cases step
  | some d =>
    have run : operation.run = FlashOperation.silent (Driver.program offset data) := by
      rcases writes with rfl | rfl <;> rfl
    have traced : operation.run.Traces d s.bench
        (fun _ _ _ es => statusReads s.bench.link es = pageCount offset data.length * (reads + 1))
        fun _ _ _ _ => True := by
      rw [run, FlashOperation.silent, traces_map]
      exact Driver.traces_program_reads ⟨rfl, .refl _, noFaults⟩ able
        (recognised.driver d found).2.suits offset data
    rw [step_flash_eq found] at step
    rcases ran : (operation.run.script d).run s.bench with ⟨⟨e | v', d'⟩, b'⟩
    · rw [ran] at step
      cases step
    · rw [statusReads_events found]
      exact Ensures.of_run traced ran

/-- A wait behind a page program or a status write lasts up to the first reply that ends it, and is
given up when there is none among those that it may read. On a bench the replies are those of the
bench. A chip that takes what it is told is found idle with the read behind its program time, and
each page of a program costs that many reads. -/
theorem status_polls_exact (id : Identity) (link : Link) (compareBuffer : CompareBuffer)
    (options : DriverOptions) (actions : List Action)
    (reached : s = (create id link compareBuffer options).run actions) :
    (∀ (d : Driver) (l : Link) (replies : Nat → Reply),
      (∀ k, FirstEnd replies k → k < d.options.maxPolls →
        d.WaitsFor l replies (k + 1) (waitAnswer (replies k))) ∧
      ((∀ k, FirstEnd replies k → d.options.maxPolls ≤ k) →
        d.WaitsFor l replies d.options.maxPolls (.error .timeout))) ∧
    (∀ (d : Driver) (b : Bench), (Driver.awaitIdle.script d).answered b.link b.poll =
      (((Driver.awaitIdle.script d).run b).1, (Driver.awaitIdle.script d).timeline b)) ∧
    (s.bench.chip.responsive = true → s.bench.chip.faults = .none →
      (∀ (d : Driver) (i : Instruction), i.Programs → i.Fits →
        (i.OnArray → s.bench.chip.serves s.bench.link = true) →
        d.WaitsFor s.bench.link ((s.bench.send .writeEnable).2.send i).2.poll
          (min d.options.maxPolls (s.bench.chip.programBusy + 1))
          (if s.bench.chip.programBusy < d.options.maxPolls then .ok () else .error .timeout)) ∧
      (s.bench.chip.serves s.bench.link = true → ∀ operation offset data v s',
        operation = .program offset data ∨ operation = .norWrite offset data →
        s.step (.flash operation) = (.flash (.ok v), s') →
        statusReads s.bench.link (s.events (.flash operation)) =
          pageCount offset data.length * (s.bench.chip.programBusy + 1))) := by
  have reached' : s.Reached := ⟨id, link, compareBuffer, options, actions, reached⟩
  refine ⟨Driver.waitsFor, Driver.answered_awaitIdle, fun responsive noFaults => ⟨?_, ?_⟩⟩
  · intro d i programs fits serves
    obtain ⟨ends, good⟩ :=
      Bench.endsAt_programBusy programs fits responsive reached'.placed noFaults serves
    exact d.waitsFor_endsAt ends good
  · intro serves operation offset data v s' writes step
    exact statusReads_of_program reached'.recognised ⟨responsive, serves, reached'.placed, rfl⟩
      noFaults writes step

/-- Three bytes on two pages of a fresh chip cost four status reads, and a status write two. Among
other replies the wait fails with the first error, or when it has been told a hundred times that
the chip is busy. -/
theorem two_pages_cost_four_reads : ∃ s d s',
    s = (create ⟨0xEF, 0x40, 0x14⟩ .direct .standard .standard).run [.flash .identify] ∧
    s.device.driver? = some d ∧ d.options = .standard ∧
    s.step (.flash (.program 0xFE [0x0F, 0xF0, 0x55])) = (.flash (.ok .nothing), s') ∧
    statusReads .direct (s.events (.flash (.program 0xFE [0x0F, 0xF0, 0x55]))) = 4 ∧
    d.WaitsFor .direct ((s.bench.send .writeEnable).2.send (.writeStatus 0 2)).2.poll 2 (.ok ()) ∧
    FirstEnd (fun n => if n < 2 then .ok [1] else .error .injected) 2 ∧
    d.WaitsFor .direct (fun n => if n < 2 then .ok [1] else .error .injected) 3
      (.error (.bus .injected)) ∧
    d.WaitsFor .direct (fun _ => .ok [1]) 100 (.error .timeout) := by
  obtain ⟨s, d, reached, found, standard, link, responsive, noFaults, busy, serves, programmed⟩ :
      ∃ s d, s = (create ⟨0xEF, 0x40, 0x14⟩ .direct .standard .standard).run [.flash .identify] ∧
        s.device.driver? = some d ∧ d.options = .standard ∧ s.bench.link = .direct ∧
        s.bench.chip.responsive = true ∧ s.bench.chip.faults = .none ∧
        s.bench.chip.programBusy = 1 ∧ s.bench.chip.serves s.bench.link = true ∧
        (((FlashOperation.program 0xFE [0x0F, 0xF0, 0x55]).run.script d).run s.bench).1.1 =
          .ok .nothing := by
    have cut : splitPages 0xFE [0x0F, 0xF0, 0x55] = [⟨0xFE, [0x0F, 0xF0]⟩, ⟨0x100, [0x55]⟩] := by
      rw [splitPages_eq_chunks (by decide)]
      rfl
    refine ⟨_, _, rfl, rfl, rfl, rfl, rfl, rfl, rfl, rfl, ?_⟩
    rw [FlashOperation.run, Driver.program, cut]
    rfl
  obtain ⟨among, -, onChip⟩ := status_polls_exact ⟨0xEF, 0x40, 0x14⟩ .direct .standard .standard _
    reached
  obtain ⟨waits, programs⟩ := onChip responsive noFaults
  have step := step_flash_eq found (.program 0xFE [0x0F, 0xF0, 0x55])
  rw [programmed] at step
  have reads := programs serves _ _ _ _ _ (.inl rfl) step
  have wait := waits d (.writeStatus 0 2) trivial trivial fun _ => serves
  have ends : FirstEnd (fun n => if n < 2 then .ok [1] else .error .injected) 2 :=
    ⟨rfl, by decide⟩
  have broken := (among d .direct _).1 2 ends (by rw [standard]; decide)
  have late := (among d .direct fun _ => .ok [1]).2 fun k first =>
    absurd first.1 Bool.false_ne_true
  rw [standard] at late wait
  rw [link, busy] at reads wait
  exact ⟨s, d, _, reached, found, standard, step, reads, wait, ends, broken, late⟩

/-- A fresh chip that has had quad disabled behind the driver's back. -/
def quadDisabled : Session :=
  (create ⟨0xEF, 0x40, 0x14⟩ (.wide .standard) .standard .standard).run
    [.flash .identify, .configure (.quadEnabled false)]

/-- A fresh chip that has been put to sleep past the driver, which is ready to poll it twice. -/
def putToSleep : Session :=
  (create ⟨0xEF, 0x40, 0x14⟩ .direct .standard { DriverOptions.standard with maxPolls := 2 }).run
    [.flash .identify, .request (.command .powerDown)]

/-- A chip that does not hear a program is not busy with it. One is found idle by the first read,
and the other one shows itself busy until it is given up, though both are idle and would be busy for
one read. -/
theorem unheard_program_costs_otherwise :
    (quadDisabled.bench.chip.isBusy = false ∧ quadDisabled.bench.chip.stuckBusy = false ∧
      quadDisabled.bench.chip.faults = .none ∧ quadDisabled.bench.chip.programBusy = 1 ∧
      pageCount 0 1 = 1 ∧
      ∃ s', quadDisabled.step (.flash (.program 0 [0])) = (.flash (.ok .nothing), s') ∧
        statusReads quadDisabled.bench.link (quadDisabled.events (.flash (.program 0 [0]))) = 1) ∧
    putToSleep.bench.chip.isBusy = false ∧ putToSleep.bench.chip.stuckBusy = false ∧
      putToSleep.bench.chip.faults = .none ∧ putToSleep.bench.chip.programBusy = 1 ∧
      ∃ d s', putToSleep.device.driver? = some d ∧ d.options.maxPolls = 2 ∧
        putToSleep.step (.flash (.program 0 [0])) = (.flash (.error .timeout), s') := by
  have cut : splitPages 0 [0] = [⟨0, [0]⟩] := by
    rw [splitPages_eq_chunks (by decide)]
    rfl
  refine ⟨⟨rfl, rfl, rfl, rfl, rfl, ?_⟩, rfl, rfl, rfl, rfl, ?_⟩
  · obtain ⟨d, found, answer, reads⟩ : ∃ d, quadDisabled.device.driver? = some d ∧
        (((FlashOperation.program 0 [0]).run.script d).run quadDisabled.bench).1.1 =
          .ok .nothing ∧
        statusReads quadDisabled.bench.link
          (((FlashOperation.program 0 [0]).run.script d).exchanges quadDisabled.bench) = 1 := by
      refine ⟨_, rfl, ?_⟩
      rw [FlashOperation.run, Driver.program, cut]
      exact ⟨rfl, rfl⟩
    have step := step_flash_eq found (.program 0 [0])
    rw [answer] at step
    exact ⟨_, step, (statusReads_events found _).trans reads⟩
  · obtain ⟨d, found, limit, answer⟩ : ∃ d, putToSleep.device.driver? = some d ∧
        d.options.maxPolls = 2 ∧
        (((FlashOperation.program 0 [0]).run.script d).run putToSleep.bench).1.1 =
          .error .timeout := by
      refine ⟨_, rfl, rfl, ?_⟩
      rw [FlashOperation.run, Driver.program, cut]
      rfl
    have step := step_flash_eq found (.program 0 [0])
    rw [answer] at step
    exact ⟨d, _, found, limit, step⟩

end Session

end SerialFlash
