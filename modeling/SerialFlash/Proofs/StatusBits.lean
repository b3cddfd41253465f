import SerialFlash.Proofs.Recovery
import SerialFlash.Proofs.Speech

/-!
What becomes of the bits that a chip keeps over power cycles. The protection bits and the
quad-enable bit share two registers, and the one instruction that writes them writes both. Only the
quad-enable sequence of an identification sends it, and that writes back what it has read. The
sequence is not begun unless the chip has answered with its own identity, so it is awake, and what
is read is the register or a bus error, which ends the sequence before the write. So no fault, at
any place, and nothing that the chip is doing can make it write bits that were not there.
-/

namespace SerialFlash

open Procedure

/-! ### One chip -/

/-- The protection bits are the same, and the quad-enable bit has not been taken away. -/
structure Chip.KeepsStatus (c c' : Chip) : Prop where
  protectBits : c'.protectBits = c.protectBits
  quadEnabled : c.quadEnabled = true → c'.quadEnabled = true

/-- The quad-enable bit has not been set either. -/
structure Chip.SameStatus (c c' : Chip) : Prop where
  protectBits : c'.protectBits = c.protectBits
  quadEnabled : c'.quadEnabled = c.quadEnabled

namespace Chip

variable {c c' c'' : Chip}

theorem KeepsStatus.trans (h : c.KeepsStatus c') (h' : c'.KeepsStatus c'') : c.KeepsStatus c'' :=
  ⟨h'.protectBits.trans h.protectBits, fun on => h'.quadEnabled (h.quadEnabled on)⟩

theorem SameStatus.keeps (h : c.SameStatus c') : c.KeepsStatus c' :=
  ⟨h.protectBits, fun on => h.quadEnabled.trans on⟩

theorem SameStatus.trans (h : c.SameStatus c') (h' : c'.SameStatus c'') : c.SameStatus c'' :=
  ⟨h'.protectBits.trans h.protectBits, h'.quadEnabled.trans h.quadEnabled⟩

theorem Undisturbed.sameStatus (h : c.Undisturbed c') : c.SameStatus c' :=
  ⟨h.protectBits, h.quadEnabled⟩

theorem Undisturbed.keepsStatus (h : c.Undisturbed c') : c.KeepsStatus c' :=
  h.sameStatus.keeps

/-- What is kept of a status for a status write is the protection bits. -/
theorem kept_status1_eq (placed : c.Placed) :
    c.status1 &&& ~~~(Status1.busy ||| Status1.writeEnableLatch) = c.protectBits := by
  have field : c.protectBits &&& ~~~(Status1.busy ||| Status1.writeEnableLatch) =
      c.protectBits := by
    rw [← show c.protectBits &&& Status1.blockProtect = c.protectBits from placed, UInt8.and_assoc]
    rfl
  have masked (latch busy : UInt8)
      (latched : latch &&& ~~~(Status1.busy ||| Status1.writeEnableLatch) = 0)
      (working : busy &&& ~~~(Status1.busy ||| Status1.writeEnableLatch) = 0) :
      (c.protectBits ||| latch ||| busy) &&& ~~~(Status1.busy ||| Status1.writeEnableLatch) =
        c.protectBits := by
    rw [← UInt8.toBitVec_inj] at latched working field ⊢
    simp only [UInt8.toBitVec_and, UInt8.toBitVec_or, BitVec.and_or_distrib_right]
      at latched working field ⊢
    rw [latched, working, field]
    simp
  rw [status1]
  apply masked <;> split <;> rfl

theorem kept_status1 (placed : c.Placed) :
    (c.status1 &&& ~~~(Status1.busy ||| Status1.writeEnableLatch)) &&& Status1.blockProtect =
      c.protectBits := by
  rw [kept_status1_eq placed]
  exact placed

/-- A status write of the bits that the chip has leaves them, and enables quad if anything. -/
theorem keepsStatus_writeStatus {first second : UInt8} (l : Link)
    (same : first &&& Status1.blockProtect = c.protectBits) :
    c.KeepsStatus (c.obey l (.writeStatus first (second ||| Status2.quadEnable))).2 := by
  rw [obey_writeStatus]
  simp only [runStatusWrite]
  split
  · split
    · exact ⟨rfl, fun on => on⟩
    · exact ⟨same, fun _ => bne_iff_ne.mpr (Driver.gentle_writeStatus first second)⟩
  · exact ⟨rfl, fun on => on⟩

end Chip

/-- An instruction that writes no status leaves the bits alone. -/
theorem Bench.sameStatus_send (b : Bench) {i : Instruction} (routine : i.Routine) :
    b.chip.SameStatus (b.send i).2.chip := by
  have heard := b.chip.heard_exchange b.link (b.link.request i)
  have other : (b.link.request i).opcode ≠ Opcode.writeStatus.byte := by
    intro same
    rw [Link.opcode_request] at same
    obtain ⟨first, second, rfl⟩ := Link.eq_writeStatus_of_opcode (Opcode.byte_injective same)
    exact routine
  exact ⟨heard.protectBits other, heard.quadEnabled other⟩

theorem Procedure.Always.ensures_sameStatus {σ ε α : Type} {P : Instruction → Prop}
    {op : Procedure σ ε α} {s : σ} {b : Bench} {good : α → σ → Prop} {bad : ε → σ → Prop}
    (h : op.Always P s good bad) (routine : ∀ i, P i → i.Routine) :
    op.Ensures s b (fun _ _ b' => b.chip.SameStatus b'.chip) fun _ _ b' =>
      b.chip.SameStatus b'.chip :=
  h.ensures_respects (I := fun b' => b.chip.SameStatus b'.chip)
    (fun b' i sent same => same.trans (b'.sameStatus_send (routine i sent)))
    (fun _ _ same => same) ⟨rfl, rfl⟩

/-! ### Identification -/

namespace Driver

variable {d : Driver} {b : Bench}

/-- The write of the sequence, behind a look at status register 1. -/
theorem ensures_enableQuad_keepsStatus {first second : UInt8}
    (same : first &&& Status1.blockProtect = b.chip.protectBits) :
    (do
      writeEnable
      let _ ← ask (.writeStatus first (second ||| Status2.quadEnable))
      awaitIdle
      if (← readStatus2) &&& Status2.quadEnable = 0 then
        throw .quadNotLatched : FlashM Unit).Ensures d b
      (fun _ _ b' => b.chip.KeepsStatus b'.chip) fun _ _ b' => b.chip.KeepsStatus b'.chip := by
  have enabled : writeEnable.Always Instruction.Passive d (fun _ _ => True) fun _ _ => True := by
    rw [writeEnable, always_bind, always_ask]
    exact ⟨trivial, fun _ => trivial, fun _ => trivial⟩
  have watched (d : Driver) : (do
      awaitIdle
      if (← readStatus2) &&& Status2.quadEnable = 0 then
        throw .quadNotLatched : FlashM Unit).Always Instruction.Looks d (fun _ _ => True)
          fun _ _ => True := by
    rw [always_bind]
    refine always_awaitIdle.imp (fun _ _ _ => ?_) fun _ _ _ => trivial
    simp [readStatus2, Instruction.Looks]
  rw [ensures_bind]
  refine (enabled.ensures_undisturbed fun _ => id).mono ?_ fun _ _ _ still => still.keepsStatus
  intro _ d₁ b₁ still
  rw [ensures_bind]
  refine ensures_ask (i := .writeStatus first (second ||| Status2.quadEnable)) trivial
    (fun b₂ _ _ chip => still.keepsStatus.trans chip.undisturbed.keepsStatus)
    fun b₂ _ chip => ?_
  have written := still.keepsStatus.trans
    ((Chip.keepsStatus_writeStatus b₁.link (same.trans still.protectBits.symm)).trans
      chip.undisturbed.keepsStatus)
  exact ((watched d₁).ensures_undisturbed fun _ => Instruction.Looks.passive).mono
    (fun _ _ _ after => written.trans after.keepsStatus)
    fun _ _ _ after => written.trans after.keepsStatus

/-- Wherever the quad-enable sequence breaks off, it has written back the bits that it found. -/
theorem ensures_ensureQuad_keepsStatus (awake : b.chip.poweredDown = false)
    (placed : b.chip.Placed) :
    ensureQuad.Ensures d b (fun _ _ b' => b.chip.KeepsStatus b'.chip)
      fun _ _ b' => b.chip.KeepsStatus b'.chip := by
  have asked : readStatus2.Always (· = .readStatus2) d (fun _ _ => True) fun _ _ => True := by
    simp [readStatus2]
  rw [ensureQuad, ensures_bind]
  refine ((asked.ensures_undisturbed (by rintro _ rfl; trivial)).and
    ((asked.ensures_respects (I := fun b' => b'.chip.poweredDown = false)
      (fun b' i read awake => (b'.poweredDown_send_keeps (read ▸ trivial)).trans awake)
      (fun _ _ => id) awake).and (ensures_endures _))).mono ?_
        fun _ _ _ ended => ended.1.keepsStatus
  rintro second d₁ b₁ ⟨still, awake₁, -, endures⟩
  rw [ensures_ite, ensures_pure]
  refine ⟨fun _ => ?_, fun _ => still.keepsStatus⟩
  -- what the next read shows is the register, whether the chip is at work or not
  have looked := (always_readStatus1 (d := d₁)).ensures_undisturbed (b := b₁)
    fun _ => Instruction.Looks.passive
  rw [ensures_bind]
  refine (looked.and (ensures_readStatus1_awake awake₁)).mono ?_
    fun _ _ _ ended => still.keepsStatus.trans ended.1.keepsStatus
  rintro _ d₂ b₂ ⟨still₂, rfl, -⟩
  have kept := Chip.kept_status1 (endures.placed placed)
  exact (ensures_enableQuad_keepsStatus (kept.trans still₂.protectBits.symm)).mono
    (fun _ _ _ after => (still.trans still₂).keepsStatus.trans after)
    fun _ _ _ after => (still.trans still₂).keepsStatus.trans after

theorem ensures_identify_keepsStatus (placed : b.chip.Placed) :
    identify.Ensures d b (fun _ _ b' => b.chip.KeepsStatus b'.chip)
      fun _ _ b' => b.chip.KeepsStatus b'.chip := by
  have unchanged : b.chip.KeepsStatus b.chip := ⟨rfl, fun on => on⟩
  simp only [identify, ensures_bind, ensures_get, ensures_ite, ensures_throw, ensures_modify]
  refine ⟨fun _ => unchanged, fun _ => ?_⟩
  refine ensures_ask (i := .readId) trivial (fun b₁ _ _ chip => chip.undisturbed.keepsStatus)
    fun b₁ _ chip => ?_
  rw [Chip.obey_readId] at chip ⊢
  have still := chip.undisturbed.keepsStatus
  by_cases responsive : b.chip.responsive = true
  · rw [if_pos responsive, Identity.ofBytes_toBytes]
    split
    · exact still
    · have awake : b₁.chip.poweredDown = false := by
        obtain ⟨_, _, _, same, -⟩ := chip
        rw [same]
        exact (Chip.responsive_iff.mp responsive).1
      simp only [ensures_bind, ensures_get, ensures_ite, ensures_tryCatch, ensures_pure,
        ensures_modify]
      refine ⟨fun _ => ?_, fun _ => still⟩
      exact (ensures_ensureQuad_keepsStatus awake (chip.endures.placed placed)).mono
        (fun _ _ _ after => still.trans after) fun _ _ _ after => still.trans after
  -- an answer of ones is not on the list, so the sequence is not begun
  · rw [if_neg responsive]
    exact still

end Driver

/-! ### Sessions -/

/-- The protection bits and the quad-enable bit are left to the driver. -/
def Setting.LeavesStatus : Setting → Prop
  | protection _ | quadEnabled _ => False
  | _ => True

namespace Session

variable {s : Session} {a : Action} {allowed : Setting → Prop}

/-- Identifies the chip over a link that needs the quad-enable bit. -/
def EnablesQuad (s : Session) (a : Action) : Prop :=
  a = .flash .identify ∧ s.bench.link.needsQuad = true

theorem sameStatus_disk (recognised : s.Recognised) (operation : DiskOperation) :
    s.bench.chip.SameStatus (s.step (.disk operation)).2.bench.chip := by
  simp only [Session.step, Session.onDisk]
  cases found : s.device.disk? with
  | none => exact ⟨rfl, rfl⟩
  | some d =>
    have suits := (recognised.driver _ (Device.driver?_of_disk? found)).2.suits
    exact (ensures_liftM_state operation.run).mp
      ((operation.always_routine suits).ensures_sameStatus fun _ => And.right)

/-- No action touches the bits, except that an identification may enable quad. -/
theorem keepsStatus_step (reachable : s.Reachable allowed)
    (through : a.Through Setting.LeavesStatus) :
    s.bench.chip.KeepsStatus (s.step a).2.bench.chip ∧
      (¬ s.EnablesQuad a → s.bench.chip.SameStatus (s.step a).2.bench.chip) := by
  obtain ⟨recognised, fitted, -, placed⟩ := reachable.invariants
  have both (same : s.bench.chip.SameStatus (s.step a).2.bench.chip) :
      s.bench.chip.KeepsStatus (s.step a).2.bench.chip ∧
        (¬ s.EnablesQuad a → s.bench.chip.SameStatus (s.step a).2.bench.chip) :=
    ⟨same.keeps, fun _ => same⟩
  cases a with
  | flash operation =>
    cases found : s.device.driver? with
    | none =>
      refine both ?_
      simp only [Session.step, found]
      exact ⟨rfl, rfl⟩
    | some d =>
      have suits := (recognised.driver d found).2.suits
      have always := operation.says_run suits
      rw [step_flash_eq found]
      by_cases identifies : operation = .identify
      · subst identifies
        refine ⟨((ensures_map _ _).mpr (Driver.ensures_identify_keepsStatus placed)).after,
          fun other => ?_⟩
        have plain : d.needsQuad = false := by
          rw [fitted.needsQuad d found]
          exact Bool.eq_false_iff.mpr fun quad => other ⟨rfl, quad⟩
        refine (always.ensures_undisturbed fun i said => ?_).after.sameStatus
        rw [said.plain rfl plain]
        trivial
      · have same := always.ensures_sameStatus (b := s.bench) fun i said => said.routine fun same =>
          identifies (Action.flash.inj same)
        exact ⟨same.after.keeps, fun _ => same.after⟩
  | disk operation => exact both (sameStatus_disk recognised operation)
  | join first second =>
    refine both ?_
    rw [step_join]
    exact (sameStatus_disk recognised first).trans (sameStatus_disk (recognised.step _) second)
  | configure setting =>
    refine both ?_
    rw [chip_step_configure]
    cases setting with
    | protection | quadEnabled => exact through.elim
    | _ => exact ⟨rfl, rfl⟩
  | intoDisk format =>
    refine both ?_
    simp only [Session.step]
    split
    · split <;> exact ⟨rfl, rfl⟩
    · exact ⟨rfl, rfl⟩
    · exact ⟨rfl, rfl⟩
  | request | frame | spi => exact through.elim
  | wait | share | unwrap | rebuild => exact both ⟨rfl, rfl⟩

/-- A status write goes out only to enable quad. -/
theorem enablesQuad_of_writeStatus (reachable : s.Reachable allowed)
    {request : Request} {reply : Reply} (said : .exchanged request reply ∈ s.events a)
    (writes : request.opcode = Opcode.writeStatus.byte) : s.EnablesQuad a := by
  obtain ⟨recognised, fitted, -⟩ := reachable.invariants
  obtain ⟨d, found⟩ := exists_driver_of_said said
  obtain ⟨i, speech, rfl⟩ := exists_said recognised found said
  rw [Link.opcode_request] at writes
  obtain ⟨first, second, rfl⟩ := Link.eq_writeStatus_of_opcode (Opcode.byte_injective writes)
  have identifies : a = .flash .identify := Classical.byContradiction speech.routine
  refine ⟨identifies, ?_⟩
  rw [← fitted.needsQuad d found]
  cases quad : d.needsQuad with
  | true => rfl
  | false => nomatch speech.plain identifies quad

theorem keepsStatus_run (reachable : s.Reachable fun _ => True) {actions : List Action}
    (through : ∀ a ∈ actions, a.Through Setting.LeavesStatus) :
    s.bench.chip.KeepsStatus (s.run actions).bench.chip := by
  induction actions generalizing s with
  | nil => exact ⟨rfl, fun on => on⟩
  | cons a rest ih =>
    have first := through a List.mem_cons_self
    exact (keepsStatus_step reachable first).1.trans
      (ih (reachable.step (first.weaken fun _ _ => trivial))
        fun a mem => through a (List.mem_cons_of_mem _ mem))

/-- If the quad-enable bit has been set, then by the first action behind which it is. -/
theorem exists_enablesQuad (reachable : s.Reachable fun _ => True) {actions : List Action}
    (through : ∀ a ∈ actions, a.Through Setting.LeavesStatus)
    (off : s.bench.chip.quadEnabled = false)
    (on : (s.run actions).bench.chip.quadEnabled = true) :
    ∃ before after, actions = before ++ .flash .identify :: after ∧
      (s.run before).EnablesQuad (.flash .identify) ∧
      (s.run before).bench.chip.quadEnabled = false ∧
      ((s.run before).step (.flash .identify)).2.bench.chip.quadEnabled = true := by
  induction actions generalizing s with
  | nil => nomatch off.symm.trans on
  | cons a rest ih =>
    have first := through a List.mem_cons_self
    cases next : (s.step a).2.bench.chip.quadEnabled with
    | true =>
      have enables : s.EnablesQuad a := Classical.byContradiction fun other => by
        have same := ((keepsStatus_step reachable first).2 other).quadEnabled
        rw [next, off] at same
        contradiction
      obtain ⟨rfl, -⟩ := id enables
      exact ⟨[], rest, rfl, enables, off, next⟩
    | false =>
      obtain ⟨before, after, split, found⟩ := ih (reachable.step (first.weaken fun _ _ => trivial))
        (fun a mem => through a (List.mem_cons_of_mem _ mem)) next on
      exact ⟨a :: before, after, congrArg (a :: ·) split, found⟩

theorem exists_says_writeStatus (reachable : s.Reachable fun _ => True) {actions : List Action}
    (through : ∀ a ∈ actions, a.Through Setting.LeavesStatus) {request : Request} {reply : Reply}
    (said : .exchanged request reply ∈ s.history actions)
    (writes : request.opcode = Opcode.writeStatus.byte) :
    ∃ before after, actions = before ++ .flash .identify :: after ∧
      (s.run before).EnablesQuad (.flash .identify) ∧
      .exchanged request reply ∈ (s.run before).events (.flash .identify) := by
  induction actions generalizing s with
  | nil => nomatch said
  | cons a rest ih =>
    have first := through a List.mem_cons_self
    rcases List.mem_append.mp said with now | later
    · have enables := enablesQuad_of_writeStatus reachable now writes
      obtain ⟨rfl, -⟩ := id enables
      exact ⟨[], rest, rfl, enables, now⟩
    · obtain ⟨before, after, split, found⟩ := ih (reachable.step (first.weaken fun _ _ => trivial))
        (fun a mem => through a (List.mem_cons_of_mem _ mem)) later
      exact ⟨a :: before, after, congrArg (a :: ·) split, found⟩

/-- Whatever is done with driver and disk, and whatever faults hit it, a chip keeps its protection
bits and never loses the quad-enable bit. That bit is only set by an identification over a link
that needs it, and only such an identification sends a status write. -/
theorem status_bits_kept (reachable : s.Reachable fun _ => True) {actions : List Action}
    (through : ∀ a ∈ actions, a.Through Setting.LeavesStatus) :
    (s.run actions).bench.chip.protectBits = s.bench.chip.protectBits ∧
    (s.bench.chip.quadEnabled = true → (s.run actions).bench.chip.quadEnabled = true) ∧
    (s.bench.chip.quadEnabled = false → (s.run actions).bench.chip.quadEnabled = true →
      ∃ before after, actions = before ++ .flash .identify :: after ∧
        (s.run before).EnablesQuad (.flash .identify) ∧
        (s.run before).bench.chip.quadEnabled = false ∧
        ((s.run before).step (.flash .identify)).2.bench.chip.quadEnabled = true) ∧
    ∀ request reply, .exchanged request reply ∈ s.history actions →
      request.opcode = Opcode.writeStatus.byte →
      ∃ before after, actions = before ++ .flash .identify :: after ∧
        (s.run before).EnablesQuad (.flash .identify) ∧
        .exchanged request reply ∈ (s.run before).events (.flash .identify) := by
  have keeps := keepsStatus_run reachable through
  exact ⟨keeps.protectBits, keeps.quadEnabled, exists_enablesQuad reachable through,
    fun _ _ => exists_says_writeStatus reachable through⟩

/-- A chip with protected blocks on four lines: an identification enables quad, unless its status
write is lost. -/
theorem status_bits_kept_on_four_lines : ∃ s : Session,
    s = (create ⟨0xEF, 0x40, 0x14⟩ (.wide .standard) .standard .standard).run
      [.configure (.protection 5)] ∧
    s.bench.chip.protectBits = 0x14 ∧ s.bench.chip.quadEnabled = false ∧
    (s.run [.configure (.failOpcode 0x01 0), .flash .identify]).bench.chip.quadEnabled = false ∧
    (s.run [.flash .identify]).bench.chip.quadEnabled = true ∧
    (s.run [.flash .identify]).bench.chip.protectBits = 0x14 := by
  refine ⟨_, rfl, by decide, rfl, rfl, rfl, ?_⟩
  exact (status_bits_kept ⟨_, _, _, _, [.configure (.protection 5)], by simp [Action.Through], rfl⟩
    (by simp [Action.Through])).1.trans (by decide)

end Session

end SerialFlash
