import SerialFlash.Proofs.Memory
import SerialFlash.Proofs.Polling
import SerialFlash.Proofs.Settling

/-!
What reads and programs have done when they succeed, and how far a program has come that
fails. A settled driver that is ready
talks to a chip that is awake and serves the link, but perhaps not to one that is idle.
A busy chip shows ones whatever is stored, and ignores the write enable and the program
that follows it. The wait behind a program is also a wait for what came before, so only
the first piece can be lost.
-/

namespace SerialFlash

/-- What an array read shows: the cells, or ones while the chip is busy. -/
def Chip.shown (c : Chip) (offset length : Nat) : Bytes :=
  if c.isBusy then List.replicate length 0xFF else c.memory.slice offset length

/-- The chip after a write enable: a busy one ignores it. -/
def Chip.enabled (c : Chip) : Chip :=
  if c.isBusy then c else { c with writeEnabled := true }

namespace Chip

variable {c : Chip} {l : Link}

@[simp] theorem shown_zero (c : Chip) (offset : Nat) : c.shown offset 0 = [] := by
  unfold shown
  split <;> rfl

theorem shown_of_idle (idle : c.isBusy = false) (offset length : Nat) :
    c.shown offset length = c.memory.slice offset length := by
  rw [shown, idle]
  rfl

theorem shown_add (c : Chip) (offset m n : Nat) :
    c.shown offset (m + n) = c.shown offset m ++ c.shown (offset + m) n := by
  unfold shown
  cases c.isBusy with
  | true => exact (List.replicate_append_replicate ..).symm
  | false => exact c.memory.slice_add offset m n

theorem responsive_of_awake (awake : c.poweredDown = false) : c.responsive = !c.isBusy := by
  simp [responsive, awake]

@[simp] theorem memory_enabled (c : Chip) : c.enabled.memory = c.memory := by
  unfold enabled
  split <;> rfl

theorem endures_enabled (c : Chip) : c.Endures c.enabled := by
  unfold enabled
  split
  · exact .refl c
  · exact ⟨rfl, rfl, rfl, rfl, rfl, rfl, fun placed => placed, fun none => none⟩

/-- The effect of an enabled page program. -/
theorem enabled_programPage (awake : c.poweredDown = false) (serves : c.serves l = true)
    (address : Nat) (data : Bytes) :
    (c.enabled.obey l (.programPage address data)).2 =
      if c.isBusy then c
      else
        { c with
          memory := c.memory.program address data
          programs := c.programs + 1
          writeEnabled := false
          busyReads := c.programBusy } := by
  rw [obey_programPage, enabled]
  cases busy : c.isBusy with
  | true => simp [responsive_of_awake awake, busy]
  | false =>
    have idle : ({ c with writeEnabled := true } : Chip).responsive = true := by
      rw [← Bool.not_false, ← busy]
      exact responsive_of_awake awake
    have serves' : ({ c with writeEnabled := true } : Chip).serves l = true := serves
    simp [idle, serves']

end Chip

namespace Driver

open Procedure

variable {unit : EraseUnit} {d : Driver} {b : Bench}

/-- The rule for an instruction behind a write enable. -/
theorem ensures_enabled {i : Instruction} {good : Bytes → Driver → Bench → Prop}
    {bad : DriverError BusError → Driver → Bench → Prop} (fits : i.Fits)
    (awake : b.chip.poweredDown = false)
    (unheard : b.chip.faults ≠ .none → ∀ e b', b'.chip.memory = b.chip.memory → bad e d b')
    (obeyed : ∀ reply b', b'.link = b.link → (b.chip.enabled.obey b.link i).2.Alike b'.chip →
      good reply d b') :
    writeEnable.Ensures d b (fun _ d b => (ask i).Ensures d b good bad) bad := by
  rw [writeEnable, ensures_bind]
  refine ensures_ask (i := .writeEnable) trivial
    (fun b' _ faults chip => unheard faults _ b' chip.memory) fun b₁ link₁ chip₁ => ?_
  have enabled : b.chip.enabled.Alike b₁.chip := by
    rw [Chip.obey_writeEnable, Chip.responsive_of_awake awake] at chip₁
    unfold Chip.enabled
    cases busy : b.chip.isBusy <;> simpa [busy] using chip₁
  refine ensures_ask fits (fun b' _ faults chip => unheard (fun none => faults ?_) _ b' ?_)
    fun b₂ link₂ chip₂ => ?_
  · exact enabled.endures.noFaults (b.chip.endures_enabled.noFaults none)
  · rw [chip.memory, enabled.memory, Chip.memory_enabled]
  · refine obeyed _ b₂ (link₂.trans link₁) ?_
    rw [link₁] at chip₂
    exact (enabled.execute _).2.trans chip₂

/-- What a piece of a program has done. One that has failed may have done it as well. -/
theorem ensures_programPiece (held : d.Held True unit b) {p : Piece}
    (fits : p.Fits b.chip.memory.size) :
    (programPiece p).Ensures d b
      (fun _ d' b' => d' = d ∧ b'.chip.isBusy = false ∧
        b'.chip.memory = if b.chip.isBusy then b.chip.memory
          else b.chip.memory.program p.address p.data)
      fun _ _ b' => b'.chip.memory = b.chip.memory ∨
        b'.chip.memory = if b.chip.isBusy then b.chip.memory
          else b.chip.memory.program p.address p.data := by
  obtain ⟨knows, awake⟩ := held.attuned.awake held.active
  have bound := knows.size_bounds.2.2
  have some_data := List.length_pos_iff.mpr fits.data_ne_nil
  have legible : (Instruction.programPage p.address p.data).Fits :=
    ⟨by have := fits.bound; omega, fits.data_ne_nil⟩
  rw [programPiece, ensures_bind]
  simp only [ensures_bind]
  refine ensures_enabled legible awake (fun _ _ _ memory => .inl memory)
    fun reply b' link chip => ?_
  rw [Chip.enabled_programPage awake (knows.serves trivial)] at chip
  have programmed : b'.chip.memory = if b.chip.isBusy then b.chip.memory
      else b.chip.memory.program p.address p.data := by
    rw [chip.memory]
    split <;> rfl
  refine (ensures_awaitIdle.and (always_awaitIdle.ensures_undisturbed fun _ =>
    Instruction.Looks.passive)).mono ?_ fun _ _ _ ended => .inr (ended.2.memory.trans programmed)
  rintro _ d' b'' ⟨⟨same, idles⟩, -⟩
  exact ⟨same, idles.isBusy, idles.memory.trans programmed⟩

/-- What the pieces have done: a chip that was busy has lost the first of them. If they have
failed, the first so many of them have been taken. -/
theorem ensures_programPieces (held : d.Held True unit b) {pieces : List Piece}
    (fits : ∀ p ∈ pieces, p.Fits b.chip.memory.size) (done : Nat) :
    (programPieces done pieces).Ensures d b
      (fun _ d' b' => d' = d ∧ b'.chip.isBusy = (b.chip.isBusy && pieces.isEmpty) ∧
        b'.chip.memory = b.chip.memory.programPieces
          (if b.chip.isBusy then pieces.tail else pieces))
      fun _ _ b' => ∃ k, b'.chip.memory = b.chip.memory.programPieces
        (if b.chip.isBusy then (pieces.take k).tail else pieces.take k) := by
  induction pieces generalizing d b done with
  | nil => simp [programPieces, Memory.programPieces]
  | cons p rest ih =>
    rw [programPieces, ensures_bind, ensures_tryCatch]
    refine (((held_lasts True unit).programPiece p d b held).and
      (ensures_programPiece held (fits p List.mem_cons_self))).mono ?_ ?_
    -- whatever the chip was doing, it is idle behind the first piece, so nothing more is lost
    · intro _ d₁ b₁ ended
      obtain ⟨held₁, rfl, idle, memory⟩ := ended
      have fits₁ : ∀ q ∈ rest, q.Fits b₁.chip.memory.size := by
        intro q mem
        have same : b₁.chip.memory.size = b.chip.memory.size := by
          rw [memory]
          split
          · rfl
          · exact Memory.size_program _ _ _
        rw [same]
        exact fits q (List.mem_cons_of_mem _ mem)
      refine (ih held₁ fits₁ _).mono ?_ ?_
      · intro _ d' b' ended
        obtain ⟨same, idle', memory'⟩ := ended
        refine ⟨same, ?_, ?_⟩
        · rw [idle', idle]
          simp
        · rw [memory', idle, memory]
          cases b.chip.isBusy <;> rfl
      · rintro _ _ b' ⟨k, memory'⟩
        refine ⟨k + 1, ?_⟩
        rw [memory', idle, memory]
        cases b.chip.isBusy <;> rfl
    · rintro _ _ b' ⟨-, memory | memory⟩
      · refine ⟨0, ?_⟩
        rw [memory]
        cases b.chip.isBusy <;> rfl
      · refine ⟨1, ?_⟩
        rw [memory]
        cases b.chip.isBusy <;> rfl

/-- A program has cleared the bits it was to clear, except that a busy chip has lost what
goes to the first page. One that has failed has taken the first so many pieces. -/
theorem ensures_program (settled : d.Settled True unit b) (offset : Nat) (data : Bytes) :
    (program offset data).Ensures d b
      (fun _ d' b' => d.state = .ready ∧ d' = d ∧ offset + data.length ≤ b.chip.memory.size ∧
        b'.chip.isBusy = (b.chip.isBusy && data.isEmpty) ∧
        b.chip.memory.ProgramsTo (if b.chip.isBusy then offset + pageRoom offset else offset)
          (if b.chip.isBusy then data.drop (pageRoom offset) else data) b'.chip.memory)
      fun _ _ b' => ∃ k, b'.chip.memory = b.chip.memory.programPieces
        (if b.chip.isBusy then ((splitPages offset data).take k).tail
          else (splitPages offset data).take k) := by
  have refused : ∃ k, b.chip.memory = b.chip.memory.programPieces
      (if b.chip.isBusy then ((splitPages offset data).take k).tail
        else (splitPages offset data).take k) := by
    refine ⟨0, ?_⟩
    cases b.chip.isBusy <;> rfl
  simp only [program, ensures_bind, ensures_get, ensures_ite, ensures_throw, ensures_guardReady,
    ensures_setState, ensures_resting]
  refine ⟨fun ready => ⟨fun covered => ?_, fun _ => refused⟩, fun _ => refused⟩
  have held := settled.held (by rw [ready]; trivial)
  have knows := held.attuned.knows held.active
  have bound := knows.covers_iff.mp covered
  have word := knows.size_lt_limit
  have busy := held.setState .programming trivial
  refine (ensures_programPieces busy (fun p mem => fits_of_mem_splitPages bound word mem) 0).mono
    ?_ fun _ _ _ failed => failed
  intro _ d' b' ended
  obtain ⟨rfl, idle, memory⟩ := ended
  refine ⟨ready, ?_, bound, ?_, ?_⟩
  · rw [← ready]
  · rw [idle, isEmpty_splitPages]
  · rw [memory]
    cases b.chip.isBusy with
    | false => exact Memory.programPieces_splitPages bound word
    | true => exact Memory.programPieces_tail_splitPages bound word

/-- An array read inside the device gives what the chip shows, and leaves it as it is. -/
theorem ensures_readArray (held : d.Held True unit b) {offset length : Nat}
    (bound : offset + length ≤ b.chip.memory.size) (some_bytes : 0 < length) :
    (ask (.readArray offset length)).Ensures d b
      (fun bytes d' b' => d' = d ∧ bytes = b.chip.shown offset length ∧
        b'.chip.memory = b.chip.memory ∧ b'.chip.isBusy = b.chip.isBusy)
      fun _ _ _ => b.chip.faults ≠ .none := by
  obtain ⟨knows, awake⟩ := held.attuned.awake held.active
  have fits : (Instruction.readArray offset length).Fits := by
    have := knows.size_bounds.2.2
    show offset < 16777216
    omega
  refine ensures_ask fits (fun _ _ faults _ => faults) fun b' link chip => ?_
  rw [Chip.obey_readArray, Chip.responsive_of_awake awake, knows.serves trivial,
    Bool.and_true] at chip ⊢
  refine ⟨rfl, ?_, ?_, ?_⟩
  · unfold Chip.shown
    cases b.chip.isBusy with
    | true => rfl
    | false => exact Memory.read_eq_slice bound
  · rw [chip.memory]
    split <;> rfl
  · rw [chip.isBusy]
    split <;> rfl

/-- A read gives what the chip shows, and leaves it as it is. A ready driver only fails to
read a range of the device when a fault is armed. -/
theorem ensures_read (settled : d.Settled True unit b) (offset length : Nat) :
    (read offset length).Ensures d b
      (fun bytes d' b' => d.state = .ready ∧ d' = d ∧ offset + length ≤ b.chip.memory.size ∧
        bytes = b.chip.shown offset length ∧ b'.chip.memory = b.chip.memory ∧
        b'.chip.isBusy = b.chip.isBusy)
      fun _ _ _ => d.state = .ready → offset + length ≤ b.chip.memory.size →
        b.chip.faults ≠ .none := by
  simp only [read, ensures_bind, ensures_get, ensures_ite, ensures_throw, ensures_pure,
    ensures_guardReady, ensures_setState, ensures_resting]
  refine ⟨fun ready => ?_, fun unready ready => absurd ready unready⟩
  have held := settled.held (by rw [ready]; trivial)
  rw [(held.attuned.knows held.active).covers_iff]
  refine ⟨fun bound => ⟨?_, fun some_bytes => ?_⟩, fun outside _ inside => absurd inside outside⟩
  · rintro rfl
    exact ⟨ready, by simpa using bound⟩
  · have reading := held.setState .reading trivial
    refine (ensures_readArray reading bound (Nat.pos_of_ne_zero some_bytes)).mono ?_
      fun _ _ _ faults _ _ => faults
    intro bytes _ b' ended
    obtain ⟨rfl, shown, memory, busy⟩ := ended
    exact ⟨ready, by rw [← ready], bound, shown, memory, busy⟩

end Driver

end SerialFlash
