import SerialFlash.Proofs.StatusBits
import SerialFlash.Proofs.Traces

/-!
What an identification comes to. As long as no fault is armed, the state of the chip, the link and
the options decide everything: what is answered, which instructions are sent for it and what they
leave of the chip. All three are given in closed form, as a course, and in the order in which
things are found out: whether the chip answers at all, whether its identity is listed, whether the
link needs quad, whether quad is enabled, whether the status write is waited for long enough, and
whether it has had an effect.
-/

namespace SerialFlash

/-! ### Courses -/

/-- What a procedure comes to on a chip: its answer, the instructions it sends, and what becomes of
the chip. -/
structure Course (α : Type) where
  answer : Except (DriverError BusError) α
  sent : List Instruction
  chip : Chip

/-- The same course behind some instructions. -/
def Course.behind {α : Type} (course : Course α) (before : List Instruction) : Course α :=
  { course with sent := before ++ course.sent }

/-- Every byte of the identity is on its list. -/
def Identity.Listed (id : Identity) : Prop :=
  id.manufacturer ∈ supportedManufacturers ∧ id.memoryType ∈ supportedMemoryTypes ∧
    id.capacityCode ∈ supportedCapacities.map Prod.fst

instance (id : Identity) : Decidable id.Listed :=
  inferInstanceAs (Decidable (_ ∧ _ ∧ _))

theorem Identity.listed_iff (id : Identity) : id.Listed ↔ ∃ size, id.capacity? = some size := by
  have found : id.capacityCode ∈ supportedCapacities.map Prod.fst ↔
      ∃ size, sizeOfCode? id.capacityCode = some size := by
    rw [← Option.isSome_iff_exists, sizeOfCode?, Option.isSome_map, List.find?_isSome]
    simp
  rw [Listed, found, capacity?]
  split
  · next listed => simp [listed]
  · next unlisted =>
    refine iff_of_false (fun all => unlisted ⟨all.1, all.2.1⟩) ?_
    rintro ⟨_, ⟨⟩⟩

namespace Chip

/-- What the chip gives for its identity. -/
def shownId (c : Chip) : Identity :=
  if c.responsive then c.id else ⟨0xFF, 0xFF, 0xFF⟩

/-- Waiting for a chip that is awake, with so many polls. -/
def waiting (c : Chip) (polls : Nat) : Course Unit where
  answer := if polls ≤ c.busyReads then .error .timeout else .ok ()
  sent := .replicate (min polls (c.busyReads + 1)) .readStatus1
  chip := c.busyFor (c.busyReads - polls)

/-- The chip behind the status write that enables quad. A locked register does not change. -/
def quadWritten (c : Chip) : Chip :=
  { c with
    quadEnabled := !c.statusLocked
    writeEnabled := false
    busyReads := c.programBusy }

/-- Writing the quad-enable bit on a chip that has it clear. The protection bits are written as they
are, and a chip that is still busy is not asked whether the bit has latched. -/
def quadWriting (c : Chip) (polls : Nat) : Course Unit where
  answer :=
    if polls ≤ c.programBusy then .error .timeout
    else if c.statusLocked then .error .quadNotLatched
    else .ok ()
  sent :=
    [.writeEnable, .writeStatus c.protectBits Status2.quadEnable] ++
      .replicate (min polls (c.programBusy + 1)) .readStatus1 ++
      if polls ≤ c.programBusy then [] else [.readStatus2]
  chip := c.quadWritten.busyFor (c.programBusy - polls)

/-- Seeing to it that quad is enabled. -/
def quadEnsuring (c : Chip) (polls : Nat) : Course Unit :=
  if c.quadEnabled then ⟨.ok (), [.readStatus2], c⟩
  else (c.quadWriting polls).behind [.readStatus2, .readStatus1]

/-- Identifying a chip over a link. -/
def identification (c : Chip) (l : Link) (options : DriverOptions) : Course Layout :=
  let layout := Layout.tile c.memory.size options.eraseUnit.size
  if c.responsive = false then ⟨.error (.unknownDevice ⟨0xFF, 0xFF, 0xFF⟩), [.readId], c⟩
  else if ¬ c.id.Listed then ⟨.error (.unknownDevice c.id), [.readId], c⟩
  else if l.needsQuad = false then ⟨.ok layout, [.readId], c⟩
  else
    let quad := c.quadEnsuring options.maxPolls
    ⟨quad.answer.map fun _ => layout, .readId :: quad.sent, quad.chip⟩

variable {c : Chip} {l : Link} {options : DriverOptions}

/-- One poll of a busy chip leaves one poll less to be made. -/
theorem waiting_busy (busy : 0 < c.busyReads) (polls : Nat) :
    c.waiting (polls + 1) =
      ((c.busyFor (c.busyReads - 1)).waiting polls).behind [.readStatus1] := by
  have late : polls + 1 ≤ c.busyReads ↔ polls ≤ c.busyReads - 1 := by omega
  have count : min (polls + 1) (c.busyReads + 1) = min polls (c.busyReads - 1 + 1) + 1 := by omega
  have left : c.busyReads - (polls + 1) = c.busyReads - 1 - polls := by omega
  simp only [waiting, late, count, left, List.replicate_succ]
  rfl

theorem waiting_idle (idle : c.busyReads = 0) (polls : Nat) :
    c.waiting (polls + 1) = ⟨.ok (), [.readStatus1], c.busyFor (c.busyReads - 1)⟩ := by
  simp [waiting, idle]

/-- A status read takes nothing from a chip that is not busy. -/
theorem obey_readStatus1_idle (responsive : c.responsive = true) :
    c.obey l .readStatus1 = ([c.status1], c) := by
  obtain ⟨awake, idle⟩ := responsive_iff.mp responsive
  have done := (isBusy_eq_false_iff.mp idle).2
  have same : c.busyFor (c.busyReads - 1) = c := by
    rw [done, Nat.zero_sub, ← done]
    rfl
  rw [obey_readStatus1, if_neg (by simp [awake])]
  exact congrArg (Prod.mk _) same

/-- Behind a write enable the bit is written unless the register is locked. -/
theorem obey_writeQuad (responsive : c.responsive = true) (off : c.quadEnabled = false)
    (placed : c.Placed) :
    ({ c with writeEnabled := true }.obey l (.writeStatus c.protectBits Status2.quadEnable)).2 =
      c.quadWritten := by
  have ready : ({ c with writeEnabled := true }.responsive && true) = true := by
    rw [Bool.and_true]
    exact responsive
  have set : Status2.quadEnable ≠ 0 := by decide
  rw [obey_writeStatus, runStatusWrite, if_pos ready, quadWritten]
  cases locked : c.statusLocked with
  | true => simp [off]
  | false => simp [show c.protectBits &&& Status1.blockProtect = c.protectBits from placed, set]

theorem waiting_quadWritten (c : Chip) (polls : Nat) :
    c.quadWritten.waiting polls =
      ⟨if polls ≤ c.programBusy then .error .timeout else .ok (),
        .replicate (min polls (c.programBusy + 1)) .readStatus1,
        c.quadWritten.busyFor (c.programBusy - polls)⟩ := rfl

theorem status2_quadEnable : c.status2 &&& Status2.quadEnable = 0 ↔ c.quadEnabled = false := by
  cases on : c.quadEnabled <;> simp [status2, on]
  decide

theorem quadEnsuring_keeps (c : Chip) (polls : Nat) :
    (c.quadEnsuring polls).chip.memory = c.memory ∧
      (c.quadEnsuring polls).chip.protectBits = c.protectBits := by
  unfold quadEnsuring
  split <;> exact ⟨rfl, rfl⟩

theorem quadEnsuring_ok {polls : Nat} (answer : (c.quadEnsuring polls).answer = .ok ()) :
    (c.quadEnsuring polls).chip.quadEnabled = true := by
  unfold quadEnsuring at answer ⊢
  split
  · assumption
  · next off =>
    rw [if_neg off] at answer
    simp only [quadWriting] at answer
    split at answer
    · contradiction
    · split at answer
      · contradiction
      · next unlocked => simp [quadWriting, busyFor, quadWritten, unlocked, Course.behind]

/-- An identification leaves the cells and the protection bits as they are. -/
theorem identification_keeps (c : Chip) (l : Link) (options : DriverOptions) :
    (c.identification l options).chip.memory = c.memory ∧
      (c.identification l options).chip.protectBits = c.protectBits := by
  simp only [identification]
  split
  · exact ⟨rfl, rfl⟩
  split
  · exact ⟨rfl, rfl⟩
  split
  · exact ⟨rfl, rfl⟩
  · exact c.quadEnsuring_keeps options.maxPolls

/-- Success is for a listed chip, with quad enabled if the link needs it. -/
theorem identification_ok {layout : Layout}
    (answer : (c.identification l options).answer = .ok layout) :
    c.id.Listed ∧ layout = .tile c.memory.size options.eraseUnit.size ∧
      (l.needsQuad = true → (c.identification l options).chip.quadEnabled = true) := by
  simp only [identification] at answer ⊢
  split at answer
  · contradiction
  next responsive =>
  split at answer
  · contradiction
  next listed =>
  rw [if_neg responsive, if_neg listed]
  refine ⟨Decidable.not_not.mp listed, ?_⟩
  split at answer
  · next plain =>
    cases answer
    exact ⟨rfl, fun quad => by simp [plain] at quad⟩
  · next quad =>
    rw [if_neg quad]
    cases ensured : (c.quadEnsuring options.maxPolls).answer with
    | error e => rw [ensured] at answer; contradiction
    | ok =>
      rw [ensured] at answer
      cases answer
      exact ⟨rfl, fun _ => quadEnsuring_ok ensured⟩

end Chip

/-- The chip on the bench is the given one but for its books, and no fault is armed on it. -/
structure Bench.Holds (b : Bench) (l : Link) (c : Chip) : Prop where
  link : b.link = l
  chip : c.Alike b.chip
  noFaults : b.chip.faults = .none

/-- Every instruction to such a chip is obeyed. -/
theorem Bench.Holds.send {b : Bench} {l : Link} {c : Chip} {i : Instruction} (holds : b.Holds l c)
    (fits : i.Fits) :
    (b.send i).1 = .ok (c.obey l i).1 ∧ (b.send i).2.Holds l (c.obey l i).2 := by
  obtain ⟨rfl, chip, noFaults⟩ := holds
  obtain ⟨answer, effect⟩ := chip.execute (b.link.request i)
  rcases b.send_cases fits with ⟨faults, -⟩ | ⟨reply, obeyed⟩
  · exact absurd noFaults faults
  · refine ⟨reply.trans (congrArg _ answer), rfl, effect.trans obeyed, ?_⟩
    exact obeyed.endures.noFaults ((Chip.faults_execute _ _).trans noFaults)

/-- The course has been run to its end. -/
structure Course.Ended {α : Type} (course : Course α) (l : Link)
    (answer : Except (DriverError BusError) α) (b : Bench) (events : List Event) : Prop where
  answer : course.answer = answer
  chip : b.Holds l course.chip
  sent : requestsSent events = course.sent.map l.request

/-- The procedure takes a course. The driver that it leaves goes by its answer. -/
def Procedure.Takes {α : Type} (op : FlashM α) (d : Driver) (b : Bench) (l : Link)
    (course : Course α) (after : Except (DriverError BusError) α → Driver) : Prop :=
  op.Traces d b (fun v d' b' es => d' = after (.ok v) ∧ course.Ended l (.ok v) b' es)
    fun e d' b' es => d' = after (.error e) ∧ course.Ended l (.error e) b' es

/-- A course that is taken behind some instructions. -/
theorem Procedure.Takes.behind {α : Type} {op : FlashM α} {d : Driver} {b : Bench} {l : Link}
    {course : Course α} {after : Except (DriverError BusError) α → Driver}
    (h : op.Takes d b l course after) (events : List Event) {before : List Instruction}
    (said : requestsSent events = before.map l.request) :
    op.Traces d b
      (fun v d' b' es => d' = after (.ok v) ∧
        (course.behind before).Ended l (.ok v) b' (events ++ es))
      fun e d' b' es => d' = after (.error e) ∧
        (course.behind before).Ended l (.error e) b' (events ++ es) := by
  have sent {later : List Event} (sent : requestsSent later = course.sent.map l.request) :
      requestsSent (events ++ later) = (before ++ course.sent).map l.request := by
    rw [requestsSent_append, said, sent, List.map_append]
  refine h.mono ?_ ?_
  · rintro _ _ _ _ ⟨same, ended⟩
    exact ⟨same, ended.answer, ended.chip, sent ended.sent⟩
  · rintro _ _ _ _ ⟨same, ended⟩
    exact ⟨same, ended.answer, ended.chip, sent ended.sent⟩

namespace Driver

open Procedure

variable {d : Driver} {b : Bench} {l : Link} {c : Chip}

theorem traces_ask_held {i : Instruction} {good : Bytes → Driver → Bench → List Event → Prop}
    {bad : DriverError BusError → Driver → Bench → List Event → Prop} (holds : b.Holds l c)
    (fits : i.Fits)
    (obeyed : ∀ b', b'.Holds l (c.obey l i).2 → good (c.obey l i).1 d b'
      [.exchanged (l.request i) (.ok (c.obey l i).1)]) :
    (ask i).Traces d b good bad := by
  obtain ⟨answer, holds'⟩ := holds.send fits
  have link := holds.link
  subst link
  unfold Traces Ensures
  rw [script_ask, Script.run_send, Script.exchanges, answer]
  exact obeyed _ holds'

/-! ### Waiting -/

theorem takes_awaitIdleWithin (options : DriverOptions) (polls : Nat) (holds : b.Holds l c)
    (awake : c.poweredDown = false) (free : c.stuckBusy = false) (placed : c.Placed) :
    (awaitIdleWithin options polls).Takes d b l (c.waiting polls) fun _ => d := by
  induction polls generalizing b c with
  | zero => exact ⟨rfl, rfl, holds, rfl⟩
  | succ polls ih =>
    have poll {b : Bench} (holds : b.Holds l c) : (do
        let status ← readStatus1
        if status.isBusy then awaitIdleWithin options polls : FlashM Unit).Takes d b l
          (c.waiting (polls + 1)) fun _ => d := by
      unfold Takes
      rw [traces_bind, readStatus1, traces_bind]
      refine traces_ask_held (i := .readStatus1) holds trivial fun b' holds' => ?_
      rw [Chip.obey_readStatus1, if_neg (by simp [awake])] at holds' ⊢
      rw [traces_pure, traces_ite, show StatusRegister.ofReply [c.status1] = ⟨c.status1⟩ from rfl,
        Chip.isBusy_status1_eq placed, Chip.isBusy_eq free]
      refine ⟨fun busy => ?_, fun idle => ?_⟩
      · rw [Chip.waiting_busy (of_decide_eq_true busy)]
        exact (ih (c := c.busyFor (c.busyReads - 1)) holds' awake free placed).behind [_] rfl
      · rw [Chip.waiting_idle (by simpa using idle)]
        exact ⟨rfl, rfl, holds', rfl⟩
    unfold Takes
    rw [awaitIdleWithin, traces_ite]
    refine ⟨fun _ => ?_, fun _ => poll holds⟩
    rw [traces_bind, traces_sleep]
    exact poll ⟨holds.link, holds.chip, holds.noFaults⟩

theorem takes_awaitIdle (holds : b.Holds l c) (awake : c.poweredDown = false)
    (free : c.stuckBusy = false) (placed : c.Placed) :
    awaitIdle.Takes d b l (c.waiting d.options.maxPolls) fun _ => d := by
  unfold Takes
  rw [awaitIdle, traces_bind, traces_get]
  exact takes_awaitIdleWithin d.options d.options.maxPolls holds awake free placed

/-! ### Enabling quad -/

/-- An idle chip that is awake shows its quad-enable bit. -/
theorem traces_readStatus2_held {good : UInt8 → Driver → Bench → List Event → Prop}
    {bad : DriverError BusError → Driver → Bench → List Event → Prop} (holds : b.Holds l c)
    (responsive : c.responsive = true)
    (shown : ∀ b' reply, b'.Holds l c →
      good c.status2 d b' [.exchanged (l.request .readStatus2) reply]) :
    readStatus2.Traces d b good bad := by
  rw [readStatus2, traces_bind]
  refine traces_ask_held (i := .readStatus2) holds trivial fun b' holds' => ?_
  rw [Chip.obey_readStatus2, if_pos responsive] at holds' ⊢
  exact shown b' _ holds'

theorem takes_writeQuad (holds : b.Holds l c) (responsive : c.responsive = true)
    (off : c.quadEnabled = false) (placed : c.Placed) :
    (do
      writeEnable
      let _ ← ask (.writeStatus c.protectBits Status2.quadEnable)
      awaitIdle
      if (← readStatus2) &&& Status2.quadEnable = 0 then
        throw .quadNotLatched : FlashM Unit).Takes d b l (c.quadWriting d.options.maxPolls)
        fun _ => d := by
  obtain ⟨awake, idle⟩ := Chip.responsive_iff.mp responsive
  obtain ⟨free, -⟩ := Chip.isBusy_eq_false_iff.mp idle
  unfold Takes
  rw [traces_bind, writeEnable, traces_bind]
  refine traces_ask_held (i := .writeEnable) holds trivial fun b₁ holds₁ => ?_
  rw [Chip.obey_writeEnable, if_pos responsive] at holds₁
  rw [traces_pure, traces_bind]
  refine traces_ask_held holds₁ trivial fun b₂ holds₂ => ?_
  rw [Chip.obey_writeQuad responsive off placed] at holds₂
  have waited : awaitIdle.Takes d b₂ l (c.quadWritten.waiting d.options.maxPolls) fun _ => d :=
    takes_awaitIdle holds₂ awake free placed
  rw [Chip.waiting_quadWritten] at waited
  rw [traces_bind]
  refine waited.mono ?_ ?_
  · rintro _ d b₃ es ⟨rfl, answer, holds₃, sent⟩
    split at answer
    · contradiction
    next soon =>
    have done : c.programBusy - d.options.maxPolls = 0 := by omega
    have idle' : (c.quadWritten.busyFor (c.programBusy - d.options.maxPolls)).responsive = true :=
      Chip.responsive_iff.mpr ⟨awake, Chip.isBusy_eq_false_iff.mpr ⟨free, done⟩⟩
    rw [traces_bind]
    refine traces_readStatus2_held holds₃ idle' fun b₄ reply holds₄ => ?_
    rw [traces_ite, traces_throw, traces_pure, Chip.status2_quadEnable]
    have shown : (c.quadWritten.busyFor (c.programBusy - d.options.maxPolls)).quadEnabled =
        !c.statusLocked := rfl
    rw [shown, Bool.not_eq_false']
    refine ⟨fun locked => ⟨rfl, ?_, holds₄, ?_⟩, fun unlocked => ⟨rfl, ?_, holds₄, ?_⟩⟩
    · simp [Chip.quadWriting, soon, locked]
    · simp [Chip.quadWriting, soon, sent]
    · simp [Chip.quadWriting, soon, unlocked]
    · simp [Chip.quadWriting, soon, sent]
  · rintro e d b₃ es ⟨rfl, answer, holds₃, sent⟩
    split at answer
    · next late =>
      refine ⟨rfl, ?_, holds₃, ?_⟩ <;> simp [Chip.quadWriting, late, sent, ← answer]
    · contradiction

theorem takes_ensureQuad (holds : b.Holds l c) (responsive : c.responsive = true)
    (placed : c.Placed) :
    ensureQuad.Takes d b l (c.quadEnsuring d.options.maxPolls) fun _ => d := by
  unfold Takes
  rw [ensureQuad, traces_bind]
  refine traces_readStatus2_held holds responsive fun b₁ reply holds₁ => ?_
  rw [traces_ite, traces_pure, Chip.status2_quadEnable, Chip.quadEnsuring]
  refine ⟨fun off => ?_, fun on => ?_⟩
  · have clear : c.status2 = 0 := by simp [Chip.status2, off]
    rw [if_neg (by simp [off]), traces_bind, readStatus1, traces_bind]
    refine traces_ask_held (i := .readStatus1) holds₁ trivial fun b₂ holds₂ => ?_
    rw [Chip.obey_readStatus1_idle responsive] at holds₂ ⊢
    rw [traces_pure, show (StatusRegister.ofReply [c.status1]).value = c.status1 from rfl,
      Chip.kept_status1_eq placed, clear, UInt8.zero_or]
    exact (takes_writeQuad holds₂ responsive off placed).behind [_, _] rfl
  · rw [if_pos (by simpa using on)]
    exact ⟨rfl, rfl, holds₁, rfl⟩

/-! ### Identification -/

/-- The driver behind an identification that has read this identity. -/
def identifiedAs (d : Driver) (id : Identity) : Except (DriverError BusError) Layout → Driver
  | .ok layout => { d with identity := id, layout, state := .ready }
  | .error e =>
      { d with
        identity := id
        layout := .unknown d.options.eraseUnit.size
        state := if e = .timeout then .failed else .notReady }

theorem eq_identifiedAs_error (d : Driver) (id : Identity) (e : DriverError BusError) :
    { d with
      identity := id
      layout := .unknown d.options.eraseUnit.size
      state := if e.isTimeout then .failed else .notReady } = d.identifiedAs id (.error e) := by
  cases e <;> rfl

theorem takes_identify (wired : d.Wired b) (placed : b.chip.Placed)
    (noFaults : b.chip.faults = .none) (idle : d.state ≠ .erasing) :
    identify.Takes d b b.link (b.chip.identification b.link d.options)
      (d.identifiedAs b.chip.shownId) := by
  have holds : b.Holds b.link b.chip := ⟨rfl, .refl _, noFaults⟩
  unfold Takes
  rw [identify]
  simp only [traces_bind, traces_get, traces_ite, traces_throw]
  refine ⟨fun erasing => absurd erasing idle, fun _ => ?_⟩
  refine traces_ask_held (i := .readId) holds trivial fun b₁ holds₁ => ?_
  rw [Chip.obey_readId] at holds₁ ⊢
  simp only [traces_modify, Chip.identification, Chip.shownId]
  by_cases responsive : b.chip.responsive = true
  · rw [if_pos responsive, Identity.ofBytes_toBytes, if_pos responsive,
      if_neg (by simp [responsive])]
    cases listed : b.chip.id.capacity? with
    | none =>
      rw [if_pos (by simp [Identity.listed_iff, listed])]
      exact ⟨rfl, rfl, holds₁, rfl⟩
    | some size =>
      have array := wired.genuine size listed
      subst array
      rw [if_neg (not_not_intro ((Identity.listed_iff _).mpr ⟨_, listed⟩)), ← wired.needsQuad]
      simp only [traces_bind, traces_get, traces_ite, traces_tryCatch, traces_pure, traces_throw,
        traces_modify, forget]
      refine ⟨fun quad => ?_, fun plain => ?_⟩
      · rw [if_neg (by simp [quad])]
        refine (takes_ensureQuad holds₁ responsive placed).mono ?_ ?_
        · rintro _ _ _ es ⟨rfl, answer, after, sent⟩
          exact ⟨rfl, congrArg (Except.map _) answer, after, by simpa using sent⟩
        · rintro e _ _ es ⟨rfl, answer, after, sent⟩
          exact ⟨eq_identifiedAs_error d _ e, congrArg (Except.map _) answer, after,
            by simpa using sent⟩
      · rw [if_pos (by simpa using plain)]
        exact ⟨rfl, rfl, holds₁, rfl⟩
  -- an answer of ones is not on the list
  · rw [if_neg responsive, if_neg responsive, if_pos (by simpa using responsive)]
    exact ⟨rfl, rfl, holds₁, rfl⟩

/-- While an erase runs nothing is sent. -/
theorem script_identify_of_erasing (erasing : d.state = .erasing) :
    identify.script d = .done (.error (.busy .erasing), d) := by
  simp [identify, erasing]

end Driver

/-! ### Sessions -/

namespace Session

open Procedure

variable {s s' : Session} {d : Driver}

/-- What an identification that takes a course does to a session. -/
structure Identified (s : Session) (d : Driver) (course : Course Layout) (s' : Session) : Prop where
  driver : s'.device.driver? = some (d.identifiedAs s.bench.chip.shownId course.answer)
  chip : course.chip.Alike s'.bench.chip
  sent : requestsSent (s.events (.flash .identify)) = course.sent.map s.bench.link.request
  memory : s'.bench.chip.memory = s.bench.chip.memory
  protectBits : s'.bench.chip.protectBits = s.bench.chip.protectBits
  /-- The layout that is answered fills the chip. -/
  layout : ∀ layout, course.answer = .ok layout →
    s.bench.chip.id.capacity? = some layout.size ∧ layout.size = s.bench.chip.memory.size
  quad : ∀ layout, course.answer = .ok layout → s.bench.link.needsQuad = true →
    s'.bench.chip.quadEnabled = true

theorem Identified.of_ended (recognised : s.Recognised) (found : s.device.driver? = some d)
    {answer : Except (DriverError BusError) Layout} {b' : Bench} {es : List Event}
    {r : Except (DriverError BusError) FlashValue}
    (said : s.events (.flash .identify) = es ++ [.ofResult r])
    (ended : (s.bench.chip.identification s.bench.link d.options).Ended s.bench.link answer b' es) :
    s.Identified d (s.bench.chip.identification s.bench.link d.options)
      ⟨s.compareBuffer, s.device.withDriver (d.identifiedAs s.bench.chip.shownId answer), b'⟩ := by
  obtain ⟨memory, protectBits⟩ := s.bench.chip.identification_keeps s.bench.link d.options
  obtain ⟨answer, ⟨-, chip, -⟩, sent⟩ := ended
  refine ⟨?_, chip, ?_, chip.memory.trans memory, ?_, fun layout ok => ?_, fun layout ok quad => ?_⟩
  · rw [answer]
    exact Device.driver?_withDriver found _
  · rw [said, requestsSent_append, requestsSent_ofResult, List.append_nil, sent]
  · exact chip.undisturbed.protectBits.trans protectBits
  · obtain ⟨listed, rfl, -⟩ := Chip.identification_ok ok
    obtain ⟨size, listed⟩ := (Identity.listed_iff _).mp listed
    have array := recognised.genuine size listed
    subst array
    have bounds := Driver.Sized.bounds (d := d.identifiedAs s.bench.chip.id
      (.ok (.tile s.bench.chip.memory.size d.options.eraseUnit.size))) listed rfl
    exact ⟨listed.trans (congrArg some bounds.1.symm), bounds.1⟩
  · exact chip.undisturbed.quadEnabled.trans ((Chip.identification_ok ok).2.2 quad)

/-- An identification takes the course that the chip, the link and the options make it take, in
every state of the driver but while it erases. -/
theorem identification_outcome (id : Identity) (link : Link) (compareBuffer : CompareBuffer)
    (options : DriverOptions) (actions : List Action)
    (reached : s = (create id link compareBuffer options).run actions)
    (found : s.device.driver? = some d) :
    (d.state = .erasing →
      s.step (.flash .identify) = (.flash (.error (.busy .erasing)), s) ∧
        requestsSent (s.events (.flash .identify)) = []) ∧
    (d.state ≠ .erasing → s.bench.chip.faults = .none → ∃ s',
      s.step (.flash .identify) =
        (.flash ((s.bench.chip.identification s.bench.link d.options).answer.map .layout), s') ∧
      s.Identified d (s.bench.chip.identification s.bench.link d.options) s') := by
  have known : s.Recognised ∧ s.Fitted := by
    rw [reached]
    exact recognised_fitted_run ⟨recognised_create .., fitted_create ..⟩ actions
  have placed : s.bench.chip.Placed := by
    rw [reached]
    exact run_preserves (I := fun s => s.bench.chip.Placed)
      (fun _ a _ placed => placed_step placed a) UInt8.zero_and
  obtain ⟨recognised, fitted⟩ := known
  have step := step_flash_eq found .identify
  have said : s.events (.flash .identify) =
      (FlashOperation.identify.run.script d).exchanges s.bench ++ [.ofResult
        ((FlashOperation.identify.run.script d).run s.bench).1.1] := by
    simp only [events, found]
  refine ⟨fun erasing => ?_, fun idle noFaults => ?_⟩
  · have script : FlashOperation.identify.run.script d = .done (.error (.busy .erasing), d) := by
      rw [FlashOperation.run, script_map, Driver.script_identify_of_erasing erasing]
      rfl
    rw [script] at step said
    refine ⟨step.trans ?_, ?_⟩
    · rw [Script.run_done, Device.withDriver_self found]
    · rw [said]
      rfl
  · have wired : d.Wired s.bench := ⟨fitted.needsQuad d found, recognised.genuine⟩
    have traced : FlashOperation.identify.run.Traces d s.bench
        (fun v d' b' es => ∃ layout, v = .layout layout ∧
          d' = d.identifiedAs s.bench.chip.shownId (.ok layout) ∧
          (s.bench.chip.identification s.bench.link d.options).Ended s.bench.link (.ok layout)
            b' es)
        fun e d' b' es => d' = d.identifiedAs s.bench.chip.shownId (.error e) ∧
          (s.bench.chip.identification s.bench.link d.options).Ended s.bench.link (.error e)
            b' es := by
      rw [FlashOperation.run, traces_map]
      exact (Driver.takes_identify wired placed noFaults idle).mono
        (fun layout _ _ _ ended => ⟨layout, rfl, ended⟩) fun _ _ _ _ ended => ended
    rcases run : (FlashOperation.identify.run.script d).run s.bench with
      ⟨⟨e | v, d'⟩, b'⟩ <;> rw [run] at step said
    · obtain ⟨rfl, ended⟩ := Ensures.of_failed traced run
      exact ⟨_, by rw [step, ended.answer]; rfl, .of_ended recognised found said ended⟩
    · obtain ⟨layout, rfl, rfl, ended⟩ := Ensures.of_run traced run
      exact ⟨_, by rw [step, ended.answer]; rfl, .of_ended recognised found said ended⟩

/-- A locked part that takes its time: the wait is given up before the bit is looked at. -/
theorem locked_part_times_out : ∃ s d s',
    s = (create ⟨0xEF, 0x40, 0x14⟩ (.wide .standard) .standard .standard).run
      [.configure (.statusLocked true), .configure (.programBusy 100)] ∧
    s.device.driver? = some d ∧ d.state = .notReady ∧ s.bench.chip.faults = .none ∧
    s.step (.flash .identify) = (.flash (.error .timeout), s') ∧
    s'.bench.chip.quadEnabled = false ∧
    s.Identified d (s.bench.chip.identification s.bench.link d.options) s' := by
  obtain ⟨s, d, reached, found, state, noFaults, answer, off⟩ : ∃ s d,
      s = (create ⟨0xEF, 0x40, 0x14⟩ (.wide .standard) .standard .standard).run
        [.configure (.statusLocked true), .configure (.programBusy 100)] ∧
      s.device.driver? = some d ∧ d.state = .notReady ∧ s.bench.chip.faults = .none ∧
      (s.bench.chip.identification s.bench.link d.options).answer = .error .timeout ∧
      (s.bench.chip.identification s.bench.link d.options).chip.quadEnabled = false :=
    ⟨_, _, rfl, rfl, rfl, rfl, rfl, rfl⟩
  obtain ⟨s', step, identified⟩ := (identification_outcome ⟨0xEF, 0x40, 0x14⟩ (.wide .standard)
    .standard .standard _ reached found).2 (by rw [state]; nofun) noFaults
  rw [answer] at step
  exact ⟨s, d, s', reached, found, state, noFaults, step,
    identified.chip.undisturbed.quadEnabled.trans off, identified⟩

end Session

end SerialFlash
