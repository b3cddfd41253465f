import SerialFlash.Proofs.Erasure
import SerialFlash.Proofs.Reachable

/-!
When an erase is reported finished. While a driver counts an erase as outstanding it
says so of no chip that is busy. But a bus error on one of its own status reads makes it
ready, with the erase still running, and a ready driver does not look: it answers that
nothing is running. So on a busy chip the reports are wrong exactly for a ready driver.
-/

namespace SerialFlash

open Procedure

namespace Driver

variable {alone : Prop} {unit : EraseUnit} {d : Driver} {b : Bench}

/-- Whoever reports an end was ready, and has not looked, or has seen the chip idle. -/
def Reported (d : Driver) (b : Bench) (d' : Driver) (b' : Bench) : Prop :=
  d.state = .ready ∧ d' = d ∧ b' = b ∨ b'.chip.isBusy = false

theorem Reported.busy {d' : Driver} {b' : Bench} (h : Reported d b d' b')
    (busy : b'.chip.isBusy = true) : d.state = .ready ∧ b.chip.isBusy = true := by
  rcases h with ⟨ready, -, rfl⟩ | idle
  · exact ⟨ready, busy⟩
  · exact absurd (busy.symm.trans idle) (by decide)

theorem eraseProgress_of_ready (ready : d.state = .ready) :
    eraseProgress.script d = .done (.ok .done, d) := by
  simp [eraseProgress, ready]

theorem finishErase_of_ready (ready : d.state = .ready) :
    finishErase.script d = .done (.ok (), d) := by
  simp only [finishErase, script_bind, script_get, Script.done_bind, follow_ok]
  -- with or without time left, the first question is the last
  cases d.options.eraseTimeout <;> simp [finishWithin, eraseProgress_of_ready ready]

theorem ensures_eraseProgress_reported (rest : d.state.AtRest) :
    eraseProgress.Ensures d b (fun progress d' b' => progress = .done → Reported d b d' b')
      fun _ _ _ => True := by
  cases state : d.state with
  | ready =>
    rw [Ensures, eraseProgress_of_ready state]
    exact fun _ => .inl ⟨state, rfl, rfl⟩
  | erasing =>
    refine (ensures_eraseProgress state).mono (fun progress d' b' h done => ?_)
      fun _ _ _ _ => trivial
    subst done
    exact .inr h.2.isBusy
  | notReady | failed =>
    simp only [eraseProgress, ensures_bind, ensures_get, state, ensures_throw]
  | reading | programming => rw [state] at rest; exact rest.elim

theorem ensures_finishErase_reported (rest : d.state.AtRest) :
    finishErase.Ensures d b (fun _ d' b' => Reported d b d' b') fun _ _ _ => True := by
  cases state : d.state with
  | ready =>
    rw [Ensures, finishErase_of_ready state]
    exact .inl ⟨state, rfl, rfl⟩
  | erasing =>
    exact (ensures_finishErase state).mono (fun _ _ _ h => .inr h.2.isBusy) fun _ _ _ _ => trivial
  | notReady | failed =>
    rw [finishErase, ensures_bind, ensures_get]
    cases d.options.eraseTimeout <;>
      simp only [finishWithin, eraseProgress, ensures_bind, ensures_get, state, ensures_throw]
  | reading | programming => rw [state] at rest; exact rest.elim

end Driver

namespace Session

variable {allowed : Setting → Prop} {s : Session} {driver : Driver}

/-- On a chip that is still busy an erase is reported finished, by a question or by a wait,
exactly if the driver was ready. -/
theorem finished_on_busy_chip_iff (reachable : s.Reachable allowed)
    (found : s.device.driver? = some driver) :
    ((∃ s', s.step (.flash .eraseProgress) = (.flash (.ok (.erase .done)), s') ∧
        s'.bench.chip.isBusy = true) ↔
      driver.state = .ready ∧ s.bench.chip.isBusy = true) ∧
    ((∃ s', s.step (.flash .finishErase) = (.flash (.ok .nothing), s') ∧
        s'.bench.chip.isBusy = true) ↔
      driver.state = .ready ∧ s.bench.chip.isBusy = true) := by
  have settled : s.Settled False := reachable.settled False.elim
  obtain ⟨unit, settled, -⟩ := settled.device.driver found
  refine ⟨⟨?_, ?_⟩, ⟨?_, ?_⟩⟩
  · rintro ⟨s', step, busy⟩
    obtain ⟨_, driver', b', found', run, rfl⟩ := step_flash_ok step
    cases found.symm.trans found'
    obtain ⟨progress, same, run⟩ := run_of_map run
    cases same
    exact ((Driver.ensures_eraseProgress_reported settled.atRest).of_run run rfl).busy busy
  · rintro ⟨ready, busy⟩
    rw [step_flash_eq found, FlashOperation.run, script_map, Driver.eraseProgress_of_ready ready]
    exact ⟨_, rfl, busy⟩
  · rintro ⟨s', step, busy⟩
    obtain ⟨_, driver', b', found', run, rfl⟩ := step_flash_ok step
    cases found.symm.trans found'
    obtain ⟨_, -, run⟩ := run_of_map run
    exact ((Driver.ensures_finishErase_reported settled.atRest).of_run run).busy busy
  · rintro ⟨ready, busy⟩
    rw [step_flash_eq found, FlashOperation.run, FlashOperation.silent, script_map,
      Driver.finishErase_of_ready ready]
    exact ⟨_, rfl, busy⟩

/-! ### A lost erase -/

/-- An erase has been started, and the one status read that asked for it failed on the bus. -/
def losingErase (sector : Nat) : List Action :=
  [.flash .identify, .flash (.eraseSector sector), .configure (.failOpcode 0x05 0),
    .flash .eraseProgress]

/-- A small device whose driver has lost an erase, and what has been done since. -/
def lostErase (sector : Nat) (since : List Action) : Session :=
  (create ⟨0xEF, 0x40, 0x14⟩ .direct .standard .standard).run (losingErase sector ++ since)

theorem reachable_lostErase {sector : Nat} {since : List Action}
    (fault : allowed (.failOpcode 0x05 0)) (through : ∀ a ∈ since, Action.Through allowed a) :
    (lostErase sector since).Reachable allowed := by
  refine ⟨⟨0xEF, 0x40, 0x14⟩, .direct, .standard, .standard, losingErase sector ++ since,
    fun a mem => ?_, rfl⟩
  rcases List.mem_append.mp mem with mem | mem
  · simp only [losingErase, List.mem_cons, List.not_mem_nil, or_false] at mem
    rcases mem with rfl | rfl | rfl | rfl
    · trivial
    · trivial
    · exact fault
    · trivial
  · exact through a mem

theorem size_lostErase : (lostErase 1 []).bench.chip.memory.size = 0x100000 := by
  have reachable : (lostErase 1 []).Reachable fun _ => True :=
    reachable_lostErase trivial (List.forall_mem_nil _)
  have settled : (lostErase 1 []).Settled False := reachable.settled False.elim
  exact settled.genuine 0x100000 rfl

theorem chip_lostErase_configure (sector : Nat) (setting : Setting) :
    (lostErase sector [.configure setting]).bench.chip =
      (lostErase sector []).bench.chip.configure setting := by
  have later : lostErase sector [.configure setting] =
      ((lostErase sector []).step (.configure setting)).2 := by
    simp only [lostErase, run, List.foldl_append, List.append_nil, List.foldl_cons, List.foldl_nil]
  rw [later, chip_step_configure]

theorem finished_on_busy_chip_of_lostErase :
    (∃ s', (lostErase 0 []).step (.flash .eraseProgress) = (.flash (.ok (.erase .done)), s') ∧
        s'.bench.chip.isBusy = true) ∧
      ∃ s', (lostErase 0 []).step (.flash .finishErase) = (.flash (.ok .nothing), s') ∧
        s'.bench.chip.isBusy = true :=
  have reachable : (lostErase 0 []).Reachable Setting.LeavesBusy :=
    reachable_lostErase trivial (List.forall_mem_nil _)
  have reports := finished_on_busy_chip_iff reachable rfl
  ⟨reports.1.mpr ⟨rfl, rfl⟩, reports.2.mpr ⟨rfl, rfl⟩⟩

/-- The erase that has been accepted is still running when a question and a wait report its
end. -/
theorem finished_while_erasing :
    (lostErase 0 []).Reachable Setting.LeavesBusy ∧ (lostErase 0 []).bench.chip.erases = 1 ∧
      (lostErase 0 []).bench.chip.isBusy = true ∧
      ((lostErase 0 []).step (.flash .eraseProgress)).1 = .flash (.ok (.erase .done)) ∧
      ((lostErase 0 []).step (.flash .eraseProgress)).2.bench.chip.isBusy = true ∧
      ((lostErase 0 []).step (.flash .finishErase)).1 = .flash (.ok .nothing) ∧
      ((lostErase 0 []).step (.flash .finishErase)).2.bench.chip.isBusy = true :=
  ⟨reachable_lostErase trivial (List.forall_mem_nil _), rfl, rfl, rfl, rfl, rfl, rfl⟩

end Session

end SerialFlash
