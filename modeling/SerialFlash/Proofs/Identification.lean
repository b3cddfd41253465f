import SerialFlash.Proofs.Polling
import SerialFlash.Proofs.Settling

/-!
Identification attunes a driver. Only a responsive chip gives an identity that is
listed, so the capacity is that of the chip on the bench; and the quad-enable bit is
read back after it has been written, from a chip that has just been found idle. So a
success needs nothing of the time before but a driver that is meant for its link, and it
leaves the chip idle. Every way to fail drops what was known.
-/

namespace SerialFlash.Driver

open Procedure

variable {alone : Prop} {unit : EraseUnit} {d : Driver} {b : Bench}

/-- Attuned to a chip that is awake, with the driver as it was. -/
def Waking (alone : Prop) (unit : EraseUnit) (d₀ d : Driver) (b : Bench) : Prop :=
  d = d₀ ∧ d.Attuned alone unit b ∧ b.chip.poweredDown = false

theorem waking_lasts (alone : Prop) (unit : EraseUnit) (d₀ : Driver) :
    Lasts (Waking alone unit d₀) where
  send d b i gentle h :=
    ⟨h.1, (attuned_lasts alone unit).send d b i gentle h.2.1, b.poweredDown_send gentle h.2.2⟩
  wait d b ns h := ⟨h.1, (attuned_lasts alone unit).wait d b ns h.2.1, h.2.2⟩

theorem gentle_writeStatus (first second : UInt8) :
    (Instruction.writeStatus first (second ||| Status2.quadEnable)).Gentle := by
  have set : (second ||| Status2.quadEnable) &&& Status2.quadEnable = Status2.quadEnable := by
    rw [← UInt8.toBitVec_inj, UInt8.toBitVec_and, UInt8.toBitVec_or]
    ext k
    simp +contextual
  show (second ||| Status2.quadEnable) &&& Status2.quadEnable ≠ 0
  rw [set]
  decide

theorem keeps_ensureQuad (d₀ : Driver) : Keeps (Waking alone unit d₀) ensureQuad := by
  have lasts := waking_lasts alone unit d₀
  refine .bind lasts.readStatus2 fun second => .ite (fun _ => ?_) fun _ => .pure _
  exact .bind lasts.readStatus1 fun first => .bind lasts.writeEnable fun _ =>
    .bind (lasts.ask (gentle_writeStatus _ _)) fun _ => .bind lasts.awaitIdle fun _ =>
      .bind lasts.readStatus2 fun _ => .ite (fun _ => .throw _) fun _ => .pure _

/-- The quad-enable bit is set after a success, and the chip is idle and awake. -/
theorem ensures_ensureQuad (responsive : b.chip.responsive = true) :
    ensureQuad.Ensures d b
      (fun _ _ b' => b'.chip.quadEnabled = true ∧ b'.chip.responsive = true) fun _ _ _ => True := by
  rw [ensureQuad, ensures_bind]
  refine (ensures_readStatus2 responsive).mono ?_ fun _ _ _ _ => trivial
  intro second d₁ b₁ ended
  obtain ⟨truth, responsive₁⟩ := ended
  refine (ensures_ite _ _ _).mpr ⟨fun off => ?_, fun on => ⟨truth.mp on, responsive₁⟩⟩
  -- whatever comes before the wait, the wait finds the chip idle, so that the second look at
  -- the bit is as good as the first
  rw [ensures_bind]
  refine (ensures_trivial _).mono (fun first d₂ b₂ _ => ?_) fun _ _ _ h => h
  rw [ensures_bind]
  refine (ensures_trivial _).mono (fun _ d₃ b₃ _ => ?_) fun _ _ _ h => h
  rw [ensures_bind]
  refine (ensures_trivial _).mono (fun _ d₄ b₄ _ => ?_) fun _ _ _ h => h
  rw [ensures_bind]
  refine ensures_awaitIdle.mono ?_ fun _ _ _ h => h
  intro _ d₅ b₅ ended
  rw [ensures_bind]
  refine (ensures_readStatus2 ended.2.responsive).mono ?_ fun _ _ _ h => h
  intro latched d₆ b₆ ended
  obtain ⟨truth, responsive₆⟩ := ended
  exact (ensures_ite _ _ _).mpr ⟨fun _ => trivial, fun on => ⟨truth.mp on, responsive₆⟩⟩

/-- What is not known cannot be wrong. -/
theorem Attuned.forget (h : d.Attuned alone unit b) {state : DriverState}
    (inactive : ¬ state.Active) :
    Attuned alone unit { d with layout := .unknown d.options.eraseUnit.size, state } b where
  eraseUnit := h.eraseUnit
  needsQuad := h.needsQuad
  genuine := h.genuine
  layout := .inl (by rw [h.eraseUnit])
  awake active := absurd active inactive

theorem Attuned.setIdentity (h : d.Attuned alone unit b) (identity : Identity) :
    Attuned alone unit { d with identity } b where
  eraseUnit := h.eraseUnit
  needsQuad := h.needsQuad
  genuine := h.genuine
  layout := h.layout.imp_right fun knows => knows.same rfl rfl
  awake active := (h.awake active).imp_left fun knows => knows.same rfl rfl

/-! ### Success -/

/-- The driver is meant for the link, and a listed chip has its size. -/
structure Wired (d : Driver) (b : Bench) : Prop where
  needsQuad : d.needsQuad = b.link.needsQuad
  genuine : ∀ size, b.chip.id.capacity? = some size → b.chip.memory.size = size

theorem Attuned.wired (h : d.Attuned alone unit b) : d.Wired b :=
  ⟨h.needsQuad, h.genuine⟩

theorem Wired.later {b' : Bench} (h : d.Wired b) (link : b'.link = b.link)
    (endures : b.chip.Endures b'.chip) : d.Wired b' where
  needsQuad := link ▸ h.needsQuad
  genuine size listed := endures.size.trans (h.genuine size (endures.id ▸ listed))

/-- The last step of an identification. -/
theorem Wired.identified (h : d.Wired b) {capacity : Nat}
    (listed : b.chip.id.capacity? = some capacity) (awake : b.chip.poweredDown = false)
    (quad : d.needsQuad = true → b.chip.quadEnabled = true) :
    Settled alone d.options.eraseUnit
      { d with layout := .tile capacity d.options.eraseUnit.size, state := .ready } b := by
  have size := h.genuine capacity listed
  have knows : Knows alone
      { d with layout := .tile capacity d.options.eraseUnit.size, state := .ready } b := by
    refine ⟨by rw [listed, size], by rw [size], fun _ => ?_⟩
    cases quadLink : b.link.needsQuad with
    | false => simp [Chip.serves, quadLink]
    | true => simp [Chip.serves, quad (h.needsQuad.trans quadLink)]
  exact ⟨⟨rfl, h.needsQuad, h.genuine, .inr knows, fun _ => ⟨knows, awake⟩⟩, trivial⟩

/-- A driver that has identified its chip is ready and settled, whatever it took for true before,
and the chip is idle. -/
theorem Wired.ensures_identify (alone : Prop) (h : d.Wired b) :
    identify.Ensures d b
      (fun _ d' b' => d'.Settled alone d.options.eraseUnit b' ∧ d'.options = d.options ∧
        d'.state = .ready ∧ b'.chip.isBusy = false)
      fun _ _ _ => True := by
  simp only [identify, ensures_bind, ensures_get, ensures_ite, ensures_throw, ensures_modify]
  refine ⟨fun _ => trivial, fun _ => ?_⟩
  refine ensures_ask (i := .readId) trivial (fun _ _ _ _ => trivial) fun b₁ link chip => ?_
  rw [Chip.obey_readId] at chip ⊢
  by_cases responsive : b.chip.responsive = true
  · rw [if_pos responsive, Identity.ofBytes_toBytes]
    split
    · trivial
    · next capacity listed =>
      -- the chip has answered with its own identity, so it is awake and not busy
      have responsive₁ : b₁.chip.responsive = true := by
        obtain ⟨_, _, _, same, -⟩ := chip
        rw [same]
        exact responsive
      have wired : Wired { d with identity := b.chip.id } b₁ :=
        Wired.later ⟨h.needsQuad, h.genuine⟩ link chip.endures
      rw [← chip.endures.id] at listed
      simp only [ensures_bind, ensures_get, ensures_ite, ensures_tryCatch, ensures_pure,
        ensures_modify]
      refine ⟨fun _ => ?_, fun plain => ?_⟩
      · refine (((ensures_ensureQuad responsive₁).and (ensures_endures _)).and
          (always_ensureQuad.ensures _)).mono ?_ fun _ _ _ _ => trivial
        rintro _ _ b₂ ⟨⟨⟨on, responsive₂⟩, link₂, endures⟩, rfl⟩
        obtain ⟨awake, idle⟩ := Chip.responsive_iff.mp responsive₂
        rw [← endures.id] at listed
        exact ⟨(wired.later link₂ endures).identified listed awake fun _ => on, rfl, trivial, idle⟩
      · obtain ⟨awake, idle⟩ := Chip.responsive_iff.mp responsive₁
        exact ⟨wired.identified listed awake fun quad => absurd quad plain, trivial, trivial, idle⟩
  -- an answer of ones is not on the list
  · rw [if_neg responsive]
    trivial

/-! ### Failure -/

/-- An identification that fails has forgotten the chip, or nothing has happened. -/
theorem ensures_identify_failed (settled : d.Settled alone unit b) :
    identify.Ensures d b (fun _ _ _ => True) fun _ d' b' => d'.Settled alone unit b' := by
  simp only [identify, ensures_bind, ensures_get, ensures_ite, ensures_throw, ensures_modify]
  refine ⟨fun _ => settled, fun _ => ?_⟩
  refine ensures_ask (i := .readId) trivial (fun b₁ link _ chip => ?_) fun b₁ link chip => ?_
  · exact ⟨settled.attuned.alike link chip, settled.atRest⟩
  · rw [Chip.obey_readId] at chip ⊢
    have attuned := (settled.attuned.alike link chip).setIdentity
    by_cases responsive : b.chip.responsive = true
    · rw [if_pos responsive, Identity.ofBytes_toBytes]
      split
      · exact ⟨(attuned _).forget id, trivial⟩
      · have awake : b₁.chip.poweredDown = false := by
          obtain ⟨_, _, _, same, -⟩ := chip
          rw [same]
          exact (Chip.responsive_iff.mp responsive).1
        simp only [ensures_bind, ensures_get, ensures_ite, ensures_tryCatch, ensures_pure,
          ensures_modify]
        refine ⟨fun _ => ?_, fun _ => trivial⟩
        refine (keeps_ensureQuad _ _ b₁ ⟨rfl, attuned b.chip.id, awake⟩).mono
          (fun _ _ _ _ => trivial) ?_
        rintro e _ b₂ ⟨rfl, attuned, -⟩
        refine ⟨attuned.forget ?_, ?_⟩ <;> cases e.isTimeout
        · exact fun active => active
        · exact fun active => active
        · trivial
        · trivial
    -- an answer of ones is not on the list
    · rw [if_neg responsive]
      exact ⟨(attuned _).forget id, trivial⟩

theorem keeps_identify : Keeps (Settled alone unit) identify := by
  intro d b settled
  have wired := settled.attuned.wired.ensures_identify alone
  rw [settled.attuned.eraseUnit] at wired
  exact (wired.and (ensures_identify_failed settled)).mono (fun _ _ _ ended => ended.1.1)
    fun _ _ _ ended => ended.2

end SerialFlash.Driver
