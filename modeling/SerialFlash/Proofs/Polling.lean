import SerialFlash.Proofs.Outcome

/-!
What a status poll tells. The busy bit of an awake chip is set whenever the chip is
busy, and a sleeping chip answers all ones, so a status without the busy bit is proof
of an idle chip that is awake. A wait that succeeds has seen one.
-/

namespace SerialFlash

namespace Chip

/-- The same chip, busy for so many status reads more. -/
def busyFor (c : Chip) (reads : Nat) : Chip :=
  { c with busyReads := reads }

theorem busyFor_withBooks (c : Chip) (faults : Faults) (opcodes : Array UInt8)
    (frames : Array Frame) (reads : Nat) :
    (c.withBooks faults opcodes frames).busyFor reads =
      (c.busyFor reads).withBooks faults opcodes frames := rfl

theorem Alike.busyFor {c c' : Chip} (h : c.Alike c') (reads : Nat) :
    (c.busyFor reads).Alike (c'.busyFor reads) := by
  obtain ⟨_, _, _, rfl, none⟩ := h
  exact ⟨_, _, _, busyFor_withBooks .., none⟩

theorem isBusy_status1 {c : Chip} (busy : c.isBusy = true) :
    (StatusRegister.mk c.status1).isBusy = true := by
  have set : c.status1 &&& Status1.busy = Status1.busy := by
    rw [status1, if_pos busy, ← UInt8.toBitVec_inj, UInt8.toBitVec_and, UInt8.toBitVec_or]
    ext k
    simp +contextual
  rw [StatusRegister.isBusy, set]
  rfl

theorem isBusy_eq {c : Chip} (free : c.stuckBusy = false) :
    c.isBusy = decide (0 < c.busyReads) := by
  simp [isBusy, free]

theorem isBusy_busyFor {c : Chip} (free : c.stuckBusy = false) (reads : Nat) :
    (c.busyFor reads).isBusy = decide (0 < reads) :=
  isBusy_eq free

theorem isBusy_eq_false_iff {c : Chip} :
    c.isBusy = false ↔ c.stuckBusy = false ∧ c.busyReads = 0 := by
  simp [isBusy]

theorem responsive_iff {c : Chip} :
    c.responsive = true ↔ c.poweredDown = false ∧ c.isBusy = false := by
  simp [responsive]

end Chip

/-- The second bench is the first one after its chip has come to an end with what it
was doing. -/
structure Bench.Idles (b b' : Bench) : Prop where
  link : b'.link = b.link
  awake : b.chip.poweredDown = false
  free : b.chip.stuckBusy = false
  chip : (b.chip.busyFor 0).Alike b'.chip

/-- A chip found idle does what it is told. -/
theorem Bench.Idles.responsive {b b' : Bench} (h : b.Idles b') : b'.chip.responsive = true := by
  obtain ⟨_, _, _, same, -⟩ := h.chip
  simp [same, Chip.responsive, Chip.isBusy, Chip.busyFor, Chip.withBooks, h.awake, h.free]

theorem Bench.Idles.isBusy {b b' : Bench} (h : b.Idles b') : b'.chip.isBusy = false := by
  rw [h.chip.isBusy]
  exact Chip.isBusy_eq_false_iff.mpr ⟨h.free, rfl⟩

theorem Bench.Idles.memory {b b' : Bench} (h : b.Idles b') : b'.chip.memory = b.chip.memory :=
  h.chip.memory

/-- What is idle after a status read was idle, or became so. -/
theorem Bench.Idles.of_poll {b b' b'' : Bench} {reads : Nat} (idles : b'.Idles b'')
    (link : b'.link = b.link) (polled : (b.chip.busyFor reads).Alike b'.chip) : b.Idles b'' := by
  have chip := (polled.busyFor 0).trans idles.chip
  obtain ⟨_, _, _, same, -⟩ := polled
  have awake := idles.awake
  have free := idles.free
  rw [same] at awake free
  exact ⟨idles.link.trans link, awake, free, chip⟩

/-- A status without the busy bit comes from a chip that is awake and idle. -/
theorem Chip.obey_readStatus1_cases (c : Chip) (l : Link) :
    ((StatusRegister.ofReply (c.obey l .readStatus1).1).isBusy = true ∧
        ∃ reads, (c.obey l .readStatus1).2 = c.busyFor reads) ∨
      (c.poweredDown = false ∧ c.stuckBusy = false ∧ (c.obey l .readStatus1).2 = c.busyFor 0) := by
  rw [obey_readStatus1]
  by_cases asleep : c.poweredDown = true
  · rw [if_pos asleep]
    exact .inl ⟨show (StatusRegister.ofReply [0xFF]).isBusy = true from rfl, c.busyReads, rfl⟩
  · rw [if_neg asleep]
    cases working : c.isBusy with
    | true => exact .inl ⟨isBusy_status1 working, _, rfl⟩
    | false =>
      obtain ⟨free, done⟩ := isBusy_eq_false_iff.mp working
      exact .inr ⟨Bool.eq_false_iff.mpr asleep, free, by rw [done]; rfl⟩

namespace Driver

open Procedure

variable {d : Driver} {b : Bench}

theorem ensures_liftM_readStatus1 {good : Reply → Driver → Bench → Prop}
    {bad : DriverError BusError → Driver → Bench → Prop}
    (unheard : ∀ b', b'.link = b.link → b.chip.faults ≠ .none → b.chip.Alike b'.chip →
      good (.error .injected) d b')
    (busy : ∀ reply reads b', (StatusRegister.ofReply reply).isBusy = true → b'.link = b.link →
      (b.chip.busyFor reads).Alike b'.chip → good (.ok reply) d b')
    (idle : ∀ reply b', b.Idles b' → good (.ok reply) d b') :
    (liftM (Script.ask .readStatus1) : FlashM Reply).Ensures d b good bad := by
  refine ensures_liftM_ask (i := .readStatus1) trivial unheard fun b' link chip => ?_
  rcases b.chip.obey_readStatus1_cases b.link with ⟨set, reads, same⟩ | ⟨awake, free, same⟩
  · exact busy _ reads b' set link (same ▸ chip)
  · exact idle _ b' ⟨link, awake, free, same ▸ chip⟩

theorem ensures_readStatus1 {good : StatusRegister → Driver → Bench → Prop}
    {bad : DriverError BusError → Driver → Bench → Prop}
    (unheard : ∀ b', b'.link = b.link → b.chip.faults ≠ .none → b.chip.Alike b'.chip →
      bad (.bus .injected) d b')
    (busy : ∀ status reads b', status.isBusy = true → b'.link = b.link →
      (b.chip.busyFor reads).Alike b'.chip → good status d b')
    (idle : ∀ status b', b.Idles b' → good status d b') :
    readStatus1.Ensures d b good bad := by
  rw [readStatus1, ensures_bind]
  refine ensures_ask (i := .readStatus1) trivial unheard fun b' link chip => ?_
  rcases b.chip.obey_readStatus1_cases b.link with ⟨set, reads, same⟩ | ⟨awake, free, same⟩
  · exact busy _ reads b' set link (same ▸ chip)
  · exact idle _ b' ⟨link, awake, free, same ▸ chip⟩

/-- An awake chip shows its status, and is one status read closer to its end. -/
theorem ensures_readStatus1_awake (awake : b.chip.poweredDown = false) :
    readStatus1.Ensures d b
      (fun status d' b' => status = ⟨b.chip.status1⟩ ∧ d' = d ∧
        (b.chip.busyFor (b.chip.busyReads - 1)).Alike b'.chip)
      fun _ _ _ => b.chip.faults ≠ .none := by
  rw [readStatus1, ensures_bind]
  refine ensures_ask (i := .readStatus1) trivial (fun _ _ faults _ => faults) fun b' _ chip => ?_
  rw [Chip.obey_readStatus1, if_neg (by simp [awake])] at chip ⊢
  exact ⟨rfl, rfl, chip⟩

/-- A wait that succeeds has seen the chip idle. -/
theorem ensures_awaitIdleWithin (options : DriverOptions) (polls : Nat) :
    (awaitIdleWithin options polls).Ensures d b (fun _ d' b' => d' = d ∧ b.Idles b')
      fun _ _ _ => True := by
  induction polls generalizing b with
  | zero => trivial
  | succ polls ih =>
    have poll (b : Bench) : (do
        let status ← readStatus1
        if status.isBusy then awaitIdleWithin options polls : FlashM Unit).Ensures d b
          (fun _ d' b' => d' = d ∧ b.Idles b') fun _ _ _ => True := by
      rw [ensures_bind]
      refine ensures_readStatus1 (fun _ _ _ _ => trivial) (fun status reads b' set link chip => ?_)
        fun status b' idles => ?_
      · rw [if_pos set]
        exact ih.mono (fun _ _ _ h => ⟨h.1, h.2.of_poll link chip⟩) fun _ _ _ _ => trivial
      · -- a protection bit cannot be taken for the busy bit, but nothing here depends on that
        refine (ensures_ite _ _ _).mpr ⟨fun _ => ?_, fun _ => ⟨rfl, idles⟩⟩
        exact ih.mono (fun _ _ _ h => ⟨h.1, h.2.of_poll idles.link idles.chip⟩)
          fun _ _ _ _ => trivial
    refine (ensures_ite _ _ _).mpr ⟨fun _ => ?_, fun _ => poll b⟩
    rw [ensures_bind, ensures_sleep]
    refine (poll _).mono ?_ fun _ _ _ _ => trivial
    rintro _ _ _ ⟨same, after⟩
    exact ⟨same, after.link, after.awake, after.free, after.chip⟩

theorem ensures_awaitIdle :
    awaitIdle.Ensures d b (fun _ d' b' => d' = d ∧ b.Idles b') fun _ _ _ => True := by
  rw [awaitIdle, ensures_bind, ensures_get]
  exact ensures_awaitIdleWithin d.options d.options.maxPolls

/-- A responsive chip tells the truth about its quad-enable bit. -/
theorem ensures_readStatus2 (responsive : b.chip.responsive = true) :
    readStatus2.Ensures d b
      (fun second _ b' => (second &&& Status2.quadEnable ≠ 0 ↔ b'.chip.quadEnabled = true) ∧
        b'.chip.responsive = true)
      fun _ _ _ => True := by
  rw [readStatus2, ensures_bind]
  refine ensures_ask (i := .readStatus2) trivial (fun _ _ _ _ => trivial) fun b' _ chip => ?_
  rw [Chip.obey_readStatus2, if_pos responsive] at chip ⊢
  obtain ⟨_, _, _, same, -⟩ := chip
  rw [ensures_pure, same]
  refine ⟨?_, responsive⟩
  cases on : b.chip.quadEnabled <;> simp [Chip.status2, on]
  decide

end Driver

end SerialFlash
