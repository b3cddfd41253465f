import SerialFlash.Operation
import SerialFlash.Proofs.Outcome
import SerialFlash.Proofs.Vocabulary

/-!
What a driver may rely on. A driver is attuned to its bench if everything that it
believes of the chip is true: an identified device has the layout that its identity
stands for, and the state never calls a sleeping chip awake. Nothing is said about the
chip being idle, because a driver may be ready on a busy chip.

`alone` stands for the assumption that nobody but a driver touches the quad-enable
bit. Under it the array instructions of an identified device work.

Every operation leaves an attuned driver attuned, and at rest, however it ends. The
operations that talk to the array only send gentle instructions, so it is enough to
look at what they do to the state; identification and the power states are the cases
with an argument of their own.
-/

namespace SerialFlash

namespace DriverState

/-- The chip is taken to be identified and awake. -/
def Active : DriverState → Prop
  | notReady | failed => False
  | _ => True

/-- The state between two operations. -/
def AtRest : DriverState → Prop
  | reading | programming => False
  | _ => True

end DriverState

namespace Driver

open Procedure

variable {alone : Prop} {unit : EraseUnit} {d : Driver} {b b' : Bench} {α : Type}

/-- The layout is that of the chip on the bench, and its array instructions work. -/
structure Knows (alone : Prop) (d : Driver) (b : Bench) : Prop where
  capacity : b.chip.id.capacity? = some b.chip.memory.size
  layout : d.layout = .tile b.chip.memory.size d.options.eraseUnit.size
  serves : alone → b.chip.serves b.link = true

/-- What the driver believes of the chip on the bench is true. -/
structure Attuned (alone : Prop) (unit : EraseUnit) (d : Driver) (b : Bench) : Prop where
  eraseUnit : d.options.eraseUnit = unit
  needsQuad : d.needsQuad = b.link.needsQuad
  genuine : ∀ size, b.chip.id.capacity? = some size → b.chip.memory.size = size
  layout : d.layout = .unknown unit.size ∨ d.Knows alone b
  awake : d.state.Active → d.Knows alone b ∧ b.chip.poweredDown = false

/-- An attuned driver that takes its chip to be identified and awake. -/
structure Held (alone : Prop) (unit : EraseUnit) (d : Driver) (b : Bench) : Prop where
  attuned : d.Attuned alone unit b
  active : d.state.Active

/-- An attuned driver between two operations. -/
structure Settled (alone : Prop) (unit : EraseUnit) (d : Driver) (b : Bench) : Prop where
  attuned : d.Attuned alone unit b
  atRest : d.state.AtRest

/-! ### Later times -/

theorem Knows.later (h : d.Knows alone b) (link : b'.link = b.link) (id : b'.chip.id = b.chip.id)
    (size : b'.chip.memory.size = b.chip.memory.size)
    (quad : alone → b.chip.quadEnabled = true → b'.chip.quadEnabled = true) :
    d.Knows alone b' where
  capacity := by rw [id, size, h.capacity]
  layout := by rw [size, h.layout]
  serves on := by
    have := h.serves on
    simp only [Chip.serves, link, Bool.or_eq_true] at this ⊢
    exact this.imp_right (quad on)

/-- What is known does not depend on the state. -/
theorem Knows.same (h : d.Knows alone b) {d' : Driver} (options : d'.options = d.options)
    (layout : d'.layout = d.layout) : d'.Knows alone b where
  capacity := h.capacity
  layout := by rw [layout, options, h.layout]
  serves := h.serves

theorem Attuned.later (h : d.Attuned alone unit b) (link : b'.link = b.link)
    (id : b'.chip.id = b.chip.id) (size : b'.chip.memory.size = b.chip.memory.size)
    (quad : alone → b.chip.quadEnabled = true → b'.chip.quadEnabled = true)
    (awake : d.state.Active → b.chip.poweredDown = false → b'.chip.poweredDown = false) :
    d.Attuned alone unit b' where
  eraseUnit := h.eraseUnit
  needsQuad := by rw [link, h.needsQuad]
  genuine capacity := by rw [id, size]; exact h.genuine capacity
  layout := h.layout.imp_right fun knows => knows.later link id size quad
  awake active :=
    ⟨(h.awake active).1.later link id size quad, awake active (h.awake active).2⟩

theorem Attuned.alike (h : d.Attuned alone unit b) (link : b'.link = b.link)
    (chip : b.chip.Alike b'.chip) : d.Attuned alone unit b' := by
  obtain ⟨_, _, _, same, -⟩ := id chip
  refine h.later link chip.endures.id chip.endures.size ?_ ?_ <;> rw [same]
  · exact fun _ on => on
  · exact fun _ awake => awake

theorem Attuned.sectorSize (h : d.Attuned alone unit b) : d.layout.sectorSize = unit.size := by
  rcases h.layout with unknown | knows
  · rw [unknown]; rfl
  · rw [knows.layout, ← h.eraseUnit]; rfl

theorem attuned_lasts (alone : Prop) (unit : EraseUnit) : Lasts (Attuned alone unit) where
  send _ b _ gentle h :=
    h.later (b.link_send _) (b.endures_send _).id (b.endures_send _).size
      (fun _ => b.quadEnabled_send gentle) fun _ => b.poweredDown_send gentle
  wait _ _ _ h := h.later rfl rfl rfl (fun _ on => on) fun _ awake => awake

theorem held_lasts (alone : Prop) (unit : EraseUnit) : Lasts (Held alone unit) where
  send d b i gentle h := ⟨(attuned_lasts alone unit).send d b i gentle h.attuned, h.active⟩
  wait d b ns h := ⟨(attuned_lasts alone unit).wait d b ns h.attuned, h.active⟩

theorem settled_lasts (alone : Prop) (unit : EraseUnit) : Lasts (Settled alone unit) where
  send d b i gentle h := ⟨(attuned_lasts alone unit).send d b i gentle h.attuned, h.atRest⟩
  wait d b ns h := ⟨(attuned_lasts alone unit).wait d b ns h.attuned, h.atRest⟩

/-- The same between two operations. -/
theorem heldAtRest_lasts (alone : Prop) (unit : EraseUnit) :
    Lasts fun d b => Held alone unit d b ∧ d.state.AtRest where
  send d b i gentle h := ⟨(held_lasts alone unit).send d b i gentle h.1, h.2⟩
  wait d b ns h := ⟨(held_lasts alone unit).wait d b ns h.1, h.2⟩

/-! ### What is known -/

namespace Knows

variable (h : d.Knows alone b)

include h

/-- The array is whole 64 KiB blocks and within reach of 24 address bits. -/
theorem size_bounds : 65536 ∣ b.chip.memory.size ∧ 0 < b.chip.memory.size ∧
    b.chip.memory.size ≤ 16777216 := by
  have listed := h.capacity
  unfold Identity.capacity? at listed
  split at listed
  · obtain ⟨blocks, divides⟩ := Identity.sizeOfCode?_bounds listed
    exact ⟨blocks, Nat.pos_of_dvd_of_pos divides (by decide), Nat.le_of_dvd (by decide) divides⟩
  · contradiction

theorem size_lt_limit : b.chip.memory.size < Word32.limit :=
  Nat.lt_of_le_of_lt h.size_bounds.2.2 (by decide)

theorem unit_dvd (unit : EraseUnit) : unit.size ∣ b.chip.memory.size :=
  Nat.dvd_trans (by cases unit <;> decide) h.size_bounds.1

theorem layout_size : d.layout.size = b.chip.memory.size := by
  rw [h.layout]
  exact Nat.div_mul_cancel (h.unit_dvd _)

theorem suits : d.layout.Suits d.options.eraseUnit :=
  h.layout ▸ Layout.suits_tile h.capacity _

/-- The bounds check of reads and programs is the array's own. -/
theorem covers_iff {offset length : Nat} :
    d.layout.covers offset length = true ↔ offset + length ≤ b.chip.memory.size := by
  rw [h.suits.covers_iff, h.layout_size]

/-- The sectors of the driver lie one behind the other and fill the array. -/
theorem sectorCount_mul : d.layout.sectorCount * d.options.eraseUnit.size = b.chip.memory.size := by
  rw [h.layout]
  exact Nat.div_mul_cancel (h.unit_dvd _)

theorem sectorStart?_eq_some_iff {sector start : Nat} :
    d.layout.sectorStart? sector = some start ↔
      sector < d.layout.sectorCount ∧ sector * d.options.eraseUnit.size = start := by
  rw [h.suits.sectorStart?_eq_ite]
  by_cases inside : sector < d.layout.sectorCount <;> simp [inside]

end Knows

theorem Attuned.knows (h : d.Attuned alone unit b) (ready : d.state.Active) : d.Knows alone b :=
  (h.awake ready).1

/-- A device with any bytes has been identified. -/
theorem Attuned.knows_of_size_pos (h : d.Attuned alone unit b) (pos : 0 < d.layout.size) :
    d.Knows alone b := by
  refine h.layout.resolve_left fun unknown => ?_
  rw [unknown] at pos
  exact Nat.lt_irrefl 0 pos

/-- A sector of the device lies inside the array. -/
theorem Attuned.sector_le (h : d.Attuned alone unit b) (knows : d.Knows alone b) {sector : Nat}
    (inside : sector < d.layout.sectorCount) :
    sector * unit.size + unit.size ≤ b.chip.memory.size := by
  rw [← knows.sectorCount_mul, h.eraseUnit, ← Nat.succ_mul]
  exact Nat.mul_le_mul_right _ inside

theorem Attuned.sector_lt (h : d.Attuned alone unit b) (knows : d.Knows alone b) {sector : Nat}
    (inside : sector < d.layout.sectorCount) : sector * unit.size < b.chip.memory.size := by
  have := h.sector_le knows inside
  have := unit.size_pos
  omega

/-! ### Changes of state -/

theorem Attuned.setState (h : d.Attuned alone unit b) (state : DriverState)
    (active : state.Active → d.state.Active) : Attuned alone unit { d with state } b where
  eraseUnit := h.eraseUnit
  needsQuad := h.needsQuad
  genuine := h.genuine
  layout := h.layout.imp_right fun knows => knows.same rfl rfl
  awake now := (h.awake (active now)).imp_left fun knows => knows.same rfl rfl

/-- A driver that knows its chip, and finds it awake, may be ready. -/
theorem Attuned.ready (h : d.Attuned alone unit b) (knows : d.Knows alone b)
    (awake : b.chip.poweredDown = false) : Attuned alone unit { d with state := .ready } b where
  eraseUnit := h.eraseUnit
  needsQuad := h.needsQuad
  genuine := h.genuine
  layout := .inr ⟨knows.capacity, knows.layout, knows.serves⟩
  awake _ := ⟨⟨knows.capacity, knows.layout, knows.serves⟩, awake⟩

theorem Held.setState (h : d.Held alone unit b) (state : DriverState) (active : state.Active) :
    Held alone unit { d with state } b :=
  ⟨h.attuned.setState state fun _ => h.active, active⟩

theorem Held.settle (h : d.Held alone unit b) {state : DriverState} (rest : state.AtRest) :
    Settled alone unit { d with state } b :=
  ⟨h.attuned.setState state fun _ => h.active, rest⟩

theorem Settled.held (h : d.Settled alone unit b) (active : d.state.Active) :
    d.Held alone unit b :=
  ⟨h.attuned, active⟩

/-- Whatever a driver does while it holds the chip, it comes to rest with it. -/
theorem Held.resting {op : FlashM α} (h : d.Held alone unit b)
    (keeps : Keeps (Held alone unit) op) :
    (Driver.resting op).Ensures d b (fun _ => Settled alone unit) fun _ => Settled alone unit := by
  rw [ensures_resting]
  refine (keeps d b h).mono (fun a d b h => h.settle trivial) fun e d b h => h.settle ?_
  split <;> trivial

/-- The rule for an operation that only a ready driver accepts. -/
theorem keeps_guardReady {op : FlashM α}
    (h : ∀ d b, Held alone unit d b → d.state = .ready →
      op.Ensures d b (fun _ => Settled alone unit) fun _ => Settled alone unit) :
    Keeps (Settled alone unit) (do guardReady; op) := by
  intro d b settled
  rw [ensures_bind, ensures_guardReady]
  exact ⟨fun ready => h d b (settled.held (by rw [ready]; trivial)) ready, fun _ => settled⟩

theorem Held.settled (h : d.Held alone unit b) (rest : d.state.AtRest) : d.Settled alone unit b :=
  ⟨h.attuned, rest⟩

/-! ### The operations on the array -/

theorem keeps_read (offset length : Nat) : Keeps (Settled alone unit) (read offset length) := by
  refine keeps_guardReady fun d b held ready => ?_
  have settled := held.settled (by rw [ready]; trivial)
  simp only [ensures_bind, ensures_get, ensures_ite, ensures_throw, ensures_pure]
  refine ⟨fun _ => ⟨fun _ => settled, fun _ => ?_⟩, fun _ => settled⟩
  exact (held.setState .reading trivial).resting ((held_lasts alone unit).ask trivial)

theorem keeps_program (offset : Nat) (data : Bytes) :
    Keeps (Settled alone unit) (program offset data) := by
  refine keeps_guardReady fun d b held ready => ?_
  have settled := held.settled (by rw [ready]; trivial)
  simp only [ensures_bind, ensures_get, ensures_ite, ensures_throw]
  refine ⟨fun _ => ?_, fun _ => settled⟩
  exact (held.setState .programming trivial).resting ((held_lasts alone unit).programPieces _ _)

theorem keeps_sectorStart {I : Driver → Bench → Prop} (sector : Nat) :
    Keeps I (sectorStart sector) := by
  refine .bind .get fun d => ?_
  split
  · apply Keeps.pure
  · apply Keeps.throw

theorem keeps_beginErase {i : Instruction} (gentle : i.Gentle) :
    Keeps (Settled alone unit) (beginErase i) := by
  refine keeps_guardReady fun d b held ready => ?_
  have lasts := heldAtRest_lasts alone unit
  have sent := Keeps.bind lasts.writeEnable (fun _ => lasts.ask gentle) d b
    ⟨held, by rw [ready]; trivial⟩
  simp only [ensures_bind, ensures_setState] at sent ⊢
  refine sent.mono (fun _ d b sent => ?_) fun _ d b h => h.1.settled h.2
  exact sent.mono (fun _ d b h => h.1.settle trivial) fun _ d b h => h.1.settled h.2

theorem keeps_beginEraseSector (sector : Nat) :
    Keeps (Settled alone unit) (beginEraseSector sector) :=
  keeps_guardReady fun d b held ready =>
    Keeps.bind (keeps_sectorStart sector)
      (fun start => .bind .get fun d => keeps_beginErase (i := .eraseSector _ start) trivial)
      d b (held.settled (by rw [ready]; trivial))

theorem keeps_eraseProgress : Keeps (Settled alone unit) eraseProgress := by
  intro d b settled
  rw [eraseProgress, ensures_bind, ensures_get]
  split
  · next erasing =>
    have held := settled.held (by rw [erasing]; trivial)
    have asked := (heldAtRest_lasts alone unit).liftM_ask (i := .readStatus1) trivial d b
      ⟨held, settled.atRest⟩
    rw [ensures_bind]
    refine asked.mono ?_ fun _ d b h => h.1.settled h.2
    rintro reply d b ⟨held, rest⟩
    split
    · exact held.settle trivial
    · simp only [ensures_ite, ensures_pure, ensures_bind, ensures_setState]
      exact ⟨fun _ => held.settled rest, fun _ => held.settle trivial⟩
  · exact settled
  · exact settled
  · exact settled

theorem keeps_finishWithin (remaining : Nat) :
    Keeps (Settled alone unit) (finishWithin remaining) := by
  induction remaining with
  | zero =>
    refine .bind keeps_eraseProgress fun progress => ?_
    split
    · exact .pure _
    · intro d b settled
      exact ⟨settled.attuned.setState .failed False.elim, trivial⟩
  | succ remaining ih =>
    refine .bind keeps_eraseProgress fun progress => ?_
    split
    · exact .pure _
    · exact .bind ((settled_lasts alone unit).sleep _) fun _ => ih

theorem keeps_finishErase : Keeps (Settled alone unit) finishErase :=
  .bind .get fun _ => keeps_finishWithin _

theorem keeps_checkErased (sector : Nat) :
    Keeps (Settled alone unit) (checkErased sector) := by
  refine keeps_guardReady fun d b held ready => ?_
  have found := keeps_sectorStart (I := fun d b => Held alone unit d b ∧ d.state.AtRest) sector d b
    ⟨held, by rw [ready]; trivial⟩
  rw [ensures_bind]
  refine found.mono ?_ fun _ d b h => h.1.settled h.2
  rintro start d b ⟨held, -⟩
  exact (held.setState .reading trivial).resting
    (.bind .get fun _ => (held_lasts alone unit).checkRange _ _)

theorem keeps_eraseFrom (units offset : Nat) :
    Keeps (Settled alone unit) (Nor.eraseFrom units offset) := by
  induction units generalizing offset with
  | zero => exact .pure _
  | succ units ih =>
    exact .bind (keeps_beginErase (i := .eraseSector .sector4K offset) trivial) fun _ =>
      .bind keeps_finishErase fun _ => ih _

theorem keeps_norErase (start stop : Nat) : Keeps (Settled alone unit) (Nor.erase start stop) := by
  intro d b settled
  simp only [Nor.erase, ensures_bind, ensures_get, ensures_ite, ensures_throw]
  exact ⟨fun _ => settled, fun _ => ⟨fun _ => keeps_eraseFrom _ _ d b settled, fun _ => settled⟩⟩

theorem keeps_eraseRun (verify : Bool) (count sector : Nat) :
    Keeps (Settled alone unit) (Disk.eraseRun verify count sector) := by
  induction count generalizing sector with
  | zero => exact .pure _
  | succ count ih =>
    refine .bind (keeps_beginEraseSector sector) fun _ => .bind keeps_finishErase fun _ => ?_
    cases verify with
    | true => exact .bind (keeps_checkErased sector) fun _ => ih _
    | false => exact ih _

theorem keeps_eraseUnder (perSector sector : Nat) (verify : Bool) :
    Keeps (Settled alone unit) (Disk.eraseUnder perSector sector verify) := by
  unfold Disk.eraseUnder
  split
  · exact .throw _
  · exact .bind (keeps_eraseRun verify _ _) fun _ => keeps_sectorStart _

theorem keeps_replaceSector (perSector sector : Nat) (data : Bytes) :
    Keeps (Settled alone unit) (Disk.replaceSector perSector sector data) :=
  .bind (keeps_eraseUnder perSector sector true) fun offset => keeps_program offset data

/-! ### Status and power -/

theorem keeps_uniqueId : Keeps (Settled alone unit) uniqueId :=
  keeps_guardReady fun d b held ready =>
    Keeps.bind ((settled_lasts alone unit).ask (i := .readUniqueId) trivial) (fun _ => .pure _) d b
      (held.settled (by rw [ready]; trivial))

theorem keeps_enterPowerDown : Keeps (Settled alone unit) enterPowerDown := by
  refine keeps_guardReady fun d b held ready => ?_
  rw [ensures_bind]
  refine ensures_ask (i := .powerDown) trivial (fun b' link _ chip => ?_) fun b' link chip => ?_
  · exact ⟨held.attuned.alike link chip, by rw [ready]; trivial⟩
  · refine ⟨?_, trivial⟩
    -- asleep or not, a driver that is not ready promises nothing about it
    have asleep : Attuned alone unit { d with state := .notReady }
        { b with chip := (b.chip.obey b.link .powerDown).2 } := by
      have kept := b.chip.endures_execute (b.link.request .powerDown)
      refine (held.attuned.setState .notReady False.elim).later rfl kept.id kept.size
        (fun _ on => ?_) nofun
      rw [Chip.obey_powerDown]
      split <;> exact on
    exact asleep.alike link chip

/-- A device that counts as identified is known. -/
theorem Attuned.knows_of_isIdentified (h : d.Attuned alone unit b) (identified : d.isIdentified) :
    d.Knows alone b := by
  refine h.layout.resolve_left fun unknown => ?_
  simp [isIdentified, unknown, Layout.unknown] at identified

theorem keeps_leavePowerDown : Keeps (Settled alone unit) leavePowerDown := by
  intro d b settled
  rw [leavePowerDown, ensures_bind, ensures_get]
  split
  · next asleep =>
    simp only [Bool.and_eq_true, decide_eq_true_eq] at asleep
    rw [ensures_bind]
    refine ensures_ask (i := .releasePowerDown) trivial (fun b' link _ chip => ?_)
      fun b' link chip => ?_
    · exact ⟨settled.attuned.alike link chip, settled.atRest⟩
    -- a busy chip wakes up as well
    · have woken : Attuned alone unit d
          { b with chip := (b.chip.obey b.link .releasePowerDown).2 } := by
        have kept := b.chip.endures_execute (b.link.request .releasePowerDown)
        refine settled.attuned.later rfl kept.id kept.size ?_ fun _ _ => ?_ <;>
          rw [Chip.obey_releasePowerDown]
        exact fun _ on => on
      obtain ⟨faults, opcodes, frames, same, -⟩ := id chip
      have attuned := (attuned_lasts alone unit).wait _ _ 3000 (woken.alike link chip)
      refine ⟨attuned.ready (attuned.knows_of_isIdentified asleep.2) ?_, trivial⟩
      simp [Bench.wait, same, Chip.obey_releasePowerDown]
  · exact settled

end Driver

end SerialFlash
