import SerialFlash.Delivery
import SerialFlash.Proofs.StatusBits
import SerialFlash.Proofs.WriteProtocol

/-!
The phases of a driver as a chip sees them. They have been read off the wires; here they are held
against the chip. As long as no fault is armed and the chip does not stay busy for good, a free
phase stands for a chip that is idle and the phase behind a write enable for one that has taken it,
and only an idle chip shows the status that ends a wait. So what keeps to the phases finds the chip
ready for it every time, and it is carried out.
-/

namespace SerialFlash

/-! ### Chips that take what they are told -/

namespace Instruction

/-- Goes out over the lines that the link has for the array. -/
def OnArray : Instruction → Prop
  | readArray _ _ | programPage _ _ => True
  | _ => False

variable {i : Instruction} {size : Nat}

theorem Inside.pos (h : i.Inside size) (onArray : i.OnArray) : 0 < size := by
  cases i with
  | readArray address length =>
    obtain ⟨pos, inside⟩ := h
    omega
  | programPage address data =>
    have inside : address + data.length ≤ size := h.bound
    have pos : 0 < data.length := List.length_pos_iff.mpr h.data_ne_nil
    omega
  | _ => exact onArray.elim

end Instruction

namespace Chip

variable {c c' : Chip} {l : Link} {i : Instruction} {answer : Bytes}

/-- An idle chip that is awake takes what it is told, if the array is in reach of the link and
what writes has been enabled. -/
theorem obey_of_carryOut? (responsive : c.responsive = true)
    (serves : i.OnArray → c.serves l = true) (enabled : ¬ i.Passive → c.writeEnabled = true)
    (taken : c.carryOut? i = some (answer, c')) : c.obey l i = (answer, c') := by
  cases i with
  | readStatus1 | readStatus2 | readId | releasePowerDown => contradiction
  | writeEnable =>
    cases taken
    rw [obey_writeEnable, if_pos responsive]
  | powerDown =>
    cases taken
    rw [obey_powerDown, if_pos responsive]
  | eraseSector unit address =>
    cases taken
    simp [obey_eraseSector, responsive, enabled not_false]
  | eraseChip =>
    cases taken
    simp [obey_eraseChip, responsive, enabled not_false]
  | programPage address data =>
    cases taken
    simp [obey_programPage, responsive, enabled not_false, serves trivial]
  | readArray address length =>
    cases taken
    simp [obey_readArray, responsive, serves trivial]
  | readUniqueId =>
    cases taken
    have whole : padded ([0, 0, 0, 0] ++ bigEndian 8 c.uniqueId.toNat) 12 =
        [0, 0, 0, 0] ++ bigEndian 8 c.uniqueId.toNat := by
      rw [padded, List.take_of_length_le (by simp)]
      simp
    simp only [obey, Link.request, Request.receive, execute, runReceive, Opcode.ofByte?_byte,
      responsive, if_true, whole]
    rfl
  | writeStatus first second =>
    cases taken
    rw [obey_writeStatus, runStatusWrite, responsive, enabled not_false]
    cases c.statusLocked <;> rfl

end Chip

/-- Without armed faults every instruction is obeyed. -/
theorem Bench.send_obeyed {b : Bench} {i : Instruction} (fits : i.Fits)
    (noFaults : b.chip.faults = .none) :
    (b.send i).1 = .ok (b.chip.obey b.link i).1 ∧
      (b.chip.obey b.link i).2.Alike (b.send i).2.chip :=
  (b.send_cases fits).resolve_left fun unheard => unheard.1 noFaults

/-- A chip that is told to carry out something is idle and awake, and does it. -/
def Bench.Delivers (b : Bench) (i : Instruction) : Prop :=
  ∀ answer c, b.chip.carryOut? i = some (answer, c) →
    b.chip.isBusy = false ∧ b.chip.poweredDown = false ∧
      (b.send i).1 = .ok answer ∧ c.Alike (b.send i).2.chip

theorem Bench.delivers_of_responsive {b : Bench} {i : Instruction} (fits : i.Fits)
    (noFaults : b.chip.faults = .none) (responsive : b.chip.responsive = true)
    (serves : i.OnArray → b.chip.serves b.link = true)
    (enabled : ¬ i.Passive → b.chip.writeEnabled = true) : b.Delivers i := by
  intro answer c taken
  obtain ⟨awake, idle⟩ := Chip.responsive_iff.mp responsive
  obtain ⟨reply, alike⟩ := b.send_obeyed fits noFaults
  rw [Chip.obey_of_carryOut? responsive serves enabled taken] at reply alike
  exact ⟨idle, awake, reply, alike⟩

/-! ### What a phase says of the chip -/

theorem Event.writes_request_iff (l : Link) (i : Instruction) (reply : Reply) :
    (exchanged (l.request i) reply).writes = true ↔ ¬ i.Passive := by
  cases i with
  | writeStatus | eraseChip => exact iff_of_true rfl id
  | programPage address data => rcases l with _ | _ | ⟨_ | _ | _⟩ <;> exact iff_of_true rfl id
  | eraseSector unit address => cases unit <;> exact iff_of_true rfl id
  | readArray address length =>
    rcases l with _ | _ | ⟨_ | _ | _⟩ <;> exact iff_of_false nofun (absurd trivial)
  | _ => exact iff_of_false nofun (absurd trivial)

theorem Event.eq_readStatus1_of_looks {l : Link} {i : Instruction} {reply : Reply}
    (looks : (exchanged (l.request i) reply).looks = true) : i = .readStatus1 := by
  cases i with
  | readStatus1 => rfl
  | readArray address length => rcases l with _ | _ | ⟨_ | _ | _⟩ <;> nomatch looks
  | programPage address data => rcases l with _ | _ | ⟨_ | _ | _⟩ <;> nomatch looks
  | eraseSector unit address => cases unit <;> nomatch looks
  | _ => nomatch looks

namespace Phase

variable {k k' : Phase} {l : Link} {i : Instruction} {reply : Bytes}

/-- The steps of the phases at instructions that have been answered. -/
theorem next_answered (step : next k (.exchanged (l.request i) (.ok reply)) = some k') :
    k = .free ∧ i = .writeEnable ∧ k' = .enabled ∨
      k = .free ∧ i.Passive ∧ k' = .free ∨
      k = .enabled ∧ ¬ i.Passive ∧ k' = .waiting ∨
      k = .waiting ∧ i = .readStatus1 ∧
        k' = if (StatusRegister.ofReply reply).isBusy then .waiting else .free := by
  cases k with
  | free =>
    have passive : i.Passive := Classical.byContradiction fun active =>
      nomatch eq_enabled_of_writes step ((Event.writes_request_iff _ _ _).mpr active)
    by_cases enables : i = .writeEnable
    · subst enables
      cases step
      exact .inl ⟨rfl, rfl, rfl⟩
    · cases (next_free passive enables _).symm.trans step
      exact .inr (.inl ⟨rfl, passive, rfl⟩)
  | enabled =>
    have active := (Event.writes_request_iff _ _ _).mp (writes_of_next_enabled step)
    cases (next_enabled active _).symm.trans step
    exact .inr (.inr (.inl ⟨rfl, active, rfl⟩))
  | waiting =>
    have looks : (Event.exchanged (l.request i) (.ok reply)).looks = true := by
      by_cases ends : (Event.exchanged (l.request i) (.ok reply)).endsWait = true
      · exact Event.looks_of_endsWait _ ends
      · exact (next_of_not_endsWait step ends).2
    obtain rfl := Event.eq_readStatus1_of_looks looks
    cases (next_waiting reply).symm.trans step
    exact .inr (.inr (.inr ⟨rfl, rfl, rfl⟩))

/-- What the phase says of the chip is so, and nothing is wrong with the chip. -/
structure Shows (k : Phase) (c : Chip) : Prop where
  noFaults : c.faults = .none
  unstuck : c.stuckBusy = false
  idle : k ≠ .waiting → c.isBusy = false
  enabled : k = .enabled → c.writeEnabled = true

theorem shows_free {c : Chip} (noFaults : c.faults = .none) (unstuck : c.stuckBusy = false)
    (idle : c.isBusy = false) : free.Shows c :=
  ⟨noFaults, unstuck, fun _ => idle, nofun⟩

/-- An instruction in order is delivered, and the phase behind it is true of the chip. -/
theorem Shows.step {b : Bench} (shows : k.Shows b.chip)
    (step : next k (.exchanged (b.link.request i) (b.send i).1) = some k') (fits : i.Fits)
    (awake : b.chip.poweredDown = false) (serves : i.OnArray → b.chip.serves b.link = true) :
    b.Delivers i ∧ k'.Shows (b.send i).2.chip := by
  obtain ⟨reply, alike⟩ := b.send_obeyed fits shows.noFaults
  have endures := b.endures_send i
  have noFaults := endures.noFaults shows.noFaults
  have unstuck := endures.stuckBusy.trans shows.unstuck
  have responsive (rest : k ≠ .waiting) : b.chip.responsive = true :=
    Chip.responsive_iff.mpr ⟨awake, shows.idle rest⟩
  rw [reply] at step
  obtain ⟨rfl, rfl, rfl⟩ | ⟨rfl, passive, rfl⟩ | ⟨rfl, active, rfl⟩ | ⟨rfl, rfl, rfl⟩ :=
    next_answered step
  · have idle := (b.undisturbed_send (i := .writeEnable) trivial).idle (shows.idle nofun)
    rw [Chip.obey_writeEnable, if_pos (responsive nofun)] at alike
    refine ⟨b.delivers_of_responsive fits shows.noFaults (responsive nofun) serves
      (absurd trivial), noFaults, unstuck, fun _ => idle, fun _ => ?_⟩
    obtain ⟨_, _, _, same, -⟩ := alike
    rw [same]
    rfl
  · have idle := (b.undisturbed_send passive).idle (shows.idle nofun)
    exact ⟨b.delivers_of_responsive fits shows.noFaults (responsive nofun) serves
      (absurd passive), noFaults, unstuck, fun _ => idle, nofun⟩
  · exact ⟨b.delivers_of_responsive fits shows.noFaults (responsive nofun) serves
      fun _ => shows.enabled rfl, noFaults, unstuck, absurd rfl, nofun⟩
  -- only an idle chip shows a status that ends the wait
  · rcases b.chip.obey_readStatus1_cases b.link with ⟨busy, -⟩ | ⟨-, -, same⟩
    · rw [if_pos busy]
      exact ⟨nofun, noFaults, unstuck, absurd rfl, nofun⟩
    · rw [same] at alike
      refine ⟨nofun, noFaults, unstuck, fun _ => ?_, fun enabled => ?_⟩
      · rw [alike.isBusy, Chip.isBusy_busyFor shows.unstuck]
        rfl
      · split at enabled <;> contradiction

end Phase

/-! ### Runs -/

/-- The instruction has its place on a device of `size` bytes and leaves it awake, and one with
any bytes keeps its quad-enable bit as well. -/
structure Instruction.Suits (size : Nat) (i : Instruction) : Prop where
  inside : i.Inside size
  keepsPower : i.KeepsPower
  routine : 0 < size → i.Routine

/-- The chip is awake, and if it is taken to have any bytes they are in reach of the link. -/
structure Bench.Serves (size : Nat) (b : Bench) : Prop where
  awake : b.chip.poweredDown = false
  array : 0 < size → b.chip.serves b.link = true

theorem Bench.Serves.send {size : Nat} {b : Bench} {i : Instruction} (h : b.Serves size)
    (suits : i.Suits size) : (b.send i).2.Serves size where
  awake := (b.poweredDown_send_keeps suits.keepsPower).trans h.awake
  array pos := by
    rw [Chip.serves, (b.sameStatus_send (suits.routine pos)).quadEnabled]
    exact h.array pos

namespace Script

variable {α : Type} {P : Instruction → Prop} {always : α → Prop} {good : α → Phase → Prop}
  {s : Script α} {b : Bench}

theorem Always.of_mem_sendings (h : s.Always P always) {v : Bench × Instruction}
    (sent : v ∈ s.sendings b) : P v.2 := by
  induction s generalizing b with
  | done value => nomatch sent
  | send i next ih =>
    rcases List.mem_cons.mp sent with rfl | later
    · exact h.1
    · exact ih _ (h.2 _) later
  | pause us next ih => exact ih h sent

theorem Always.and {P' : Instruction → Prop} {always' : α → Prop} (h : s.Always P always)
    (h' : s.Always P' always') :
    s.Always (fun i => P i ∧ P' i) fun a => always a ∧ always' a := by
  induction s with
  | done value => exact ⟨h, h'⟩
  | send i next ih => exact ⟨⟨h.1, h'.1⟩, fun reply => ih reply (h.2 reply) (h'.2 reply)⟩
  | pause us next ih => exact ih h h'

/-- What keeps to the phases is delivered, and the phases stay true of the chip. -/
theorem Tracks.delivers {l : Link} {k : Phase} {size : Nat}
    (h : s.Tracks l (passPauses Phase.next) good k)
    (suits : s.Always (Instruction.Suits size) always) (bound : size ≤ 16777216)
    (link : b.link = l) (serves : b.Serves size) (shows : k.Shows b.chip) :
    (∀ v ∈ s.sendings b, v.1.Delivers v.2) ∧
      ∃ k', good (s.run b).1 k' ∧ k'.Shows (s.run b).2.chip := by
  induction s generalizing b k with
  | done value => exact ⟨List.forall_mem_nil _, k, h, shows⟩
  | send i next ih =>
    obtain ⟨k', step, rest⟩ := h (b.send i).1
    rw [← link] at step
    obtain ⟨delivered, shows'⟩ := shows.step step (suits.1.inside.fits bound) serves.awake
      fun onArray => serves.array (suits.1.inside.pos onArray)
    obtain ⟨later, ended⟩ := ih _ rest (suits.2 _) ((b.link_send i).trans link)
      (serves.send suits.1) shows'
    exact ⟨List.forall_mem_cons.mpr ⟨delivered, later⟩, ended⟩
  | pause us next ih =>
    obtain ⟨_, step, rest⟩ := h
    cases step
    exact ih rest suits (b := b.wait (us * 1000)) link ⟨serves.awake, serves.array⟩ shows

end Script

end SerialFlash
