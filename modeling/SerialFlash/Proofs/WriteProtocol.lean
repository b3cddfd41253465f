import SerialFlash.Proofs.Phases
import SerialFlash.Proofs.StateMachine

/-!
The order on the wires over a whole session. Between two actions the driver never stands behind a
write enable, and it takes its chip for erasing if there is something to wait for, so the phase at
the end of one action is that at the start of the next. From the phases the order follows for any
place in the history: what stands before a write, what stands behind a write enable, and what is
sent while the chip is at work.
-/

namespace SerialFlash

open Procedure

/-! ### The history of a session -/

namespace Phase

variable {k k' : Phase} {e : Event}

/-- The mark behind an operation ends a wait that has been given up. -/
theorem next_returned (rest : k ≠ .enabled) (timedOut : Bool) :
    next k (.returned timedOut) = some (if timedOut then .free else k) := by
  cases k with
  | enabled => exact absurd rfl rest
  | free => cases timedOut <;> rfl
  | waiting => cases timedOut <;> rfl

/-- The events of an operation, with the mark behind them. -/
theorem follow_returned {events : List Event} {timedOut : Bool} {d : Driver}
    (followed : events.foldlM next k = some k')
    (suits : k'.Suits d ∨ k' = .waiting ∧ timedOut = true) :
    ∃ k'', (events ++ [Event.returned timedOut]).foldlM next k = some k'' ∧ k''.Suits d := by
  have rest : k' ≠ .enabled := by
    rcases suits with suits | ⟨rfl, -⟩
    · exact suits.ne_enabled
    · nofun
  refine ⟨if timedOut then .free else k', ?_, ?_⟩
  · rw [List.foldlM_append, followed]
    show [Event.returned timedOut].foldlM next k' = _
    rw [List.foldlM_cons, next_returned rest]
    rfl
  · cases timedOut with
    | true => exact .inl rfl
    | false => exact suits.resolve_right (by simp)

end Phase

namespace Session

variable {s : Session} {k : Phase} {a : Action}

/-- The phase is one between two actions. -/
structure Follows (s : Session) (k : Phase) : Prop where
  rest : k ≠ .enabled
  driver : ∀ d, s.device.driver? = some d → d.state.AtRest ∧ k.Suits d

theorem Follows.of_driver {d : Driver} (found : s.device.driver? = some d)
    (rest : d.state.AtRest) (suits : k.Suits d) : s.Follows k :=
  ⟨suits.ne_enabled, fun d' found' => by cases found.symm.trans found'; exact ⟨rest, suits⟩⟩

theorem Follows.atRest_step (h : s.Follows k) (a : Action) {d' : Driver}
    (found : (s.step a).2.device.driver? = some d') : d'.state.AtRest :=
  (drives_step (fun d found => (h.driver d found).1) found).atRest
    fun d found => (h.driver d found).1

/-- An operation of the driver keeps to the order. -/
theorem Follows.flash (h : s.Follows k) (operation : FlashOperation) :
    ∃ k', (s.events (.flash operation)).foldlM Phase.next k = some k' ∧
      (s.step (.flash operation)).2.Follows k' := by
  cases found : s.device.driver? with
  | none =>
    simp only [events, Session.step, found]
    exact ⟨k, rfl, h⟩
  | some d =>
    obtain ⟨rest, suits⟩ := h.driver d found
    obtain ⟨k', followed, ended⟩ :=
      Script.Tracks.exchanges (operation.tracks_run (l := s.bench.link) rest suits) rfl
    have after : (s.step (.flash operation)).2.device.driver? =
        some ((operation.run.script d).run s.bench).1.2 := by
      rw [step_flash_eq found]
      exact Device.driver?_withDriver found _
    have marked : ∃ k'', (s.events (.flash operation)).foldlM Phase.next k = some k'' ∧
        k''.Suits ((operation.run.script d).run s.bench).1.2 := by
      simp only [events, found]
      generalize (operation.run.script d).run s.bench = ran at ended
      obtain ⟨⟨e | v, d'⟩, b'⟩ := ran
      · refine Phase.follow_returned followed (Or.imp_right ?_ ended)
        exact fun waiting => ⟨waiting.1, decide_eq_true waiting.2⟩
      · exact Phase.follow_returned followed (.inl ended)
    obtain ⟨k'', marked, suits'⟩ := marked
    exact ⟨k'', marked, .of_driver after (h.atRest_step _ after) suits'⟩

/-- So does an operation of the disk. -/
theorem Follows.disk (h : s.Follows k) (operation : DiskOperation) :
    ∃ k', (s.diskEvents operation).foldlM Phase.next k = some k' ∧
      (s.step (.disk operation)).2.Follows k' := by
  cases found : s.device.disk? with
  | none =>
    simp only [diskEvents, Session.step, Session.onDisk, found]
    exact ⟨k, rfl, h⟩
  | some d =>
    obtain ⟨rest, suits⟩ := h.driver _ (Device.driver?_of_disk? found)
    have tracks := operation.tracks_run (l := s.bench.link) suits
    rw [Procedure.Tracks, script_liftM_state, Script.tracks_bind] at tracks
    obtain ⟨k', followed, ended⟩ := Script.Tracks.exchanges tracks rfl
    have after : (s.step (.disk operation)).2.device.driver? =
        some ((operation.run.run d).run s.bench).1.2.flash := by
      simp only [Session.step, Session.onDisk, found]
      exact Device.driver?_of_disk? (Device.disk?_withDisk found _)
    have marked : ∃ k'', (s.diskEvents operation).foldlM Phase.next k = some k'' ∧
        k''.Suits ((operation.run.run d).run s.bench).1.2.flash := by
      simp only [diskEvents, found]
      refine Phase.follow_returned followed (Or.imp_right ?_ ended)
      rintro ⟨waiting, ready, failed⟩
      exact ⟨waiting, by simp [ready, failed]⟩
    obtain ⟨k'', marked, suits'⟩ := marked
    exact ⟨k'', marked, .of_driver after (h.atRest_step _ after) suits'⟩

/-- Whatever is done with driver, disk and chip keeps to the order. -/
theorem Follows.step (h : s.Follows k) (through : a.Through fun _ => True)
    (same : ∀ link options, a ≠ .rebuild link options) :
    ∃ k', (s.events a).foldlM Phase.next k = some k' ∧ (s.step a).2.Follows k' := by
  have silent (quiet : s.events a = []) (flash : ∀ operation, a ≠ .flash operation)
      (disk : ¬ a.OnDisk) :
      ∃ k', (s.events a).foldlM Phase.next k = some k' ∧ (s.step a).2.Follows k' := by
    rw [quiet]
    refine ⟨k, rfl, h.rest, fun d' found => ?_⟩
    have drives := drives_step (fun d found => (h.driver d found).1) found
    generalize before : s.device.driver? = driver at drives
    cases drives with
    | keep => exact h.driver d' before
    | move action => exact absurd action (flash _)
    | giveUp onDisk => exact absurd onDisk disk
    | renew action => exact absurd action (same _ _)
  cases a with
  | flash operation => exact h.flash operation
  | disk operation => exact h.disk operation
  | join first second =>
    obtain ⟨k₁, followed₁, h₁⟩ := h.disk first
    obtain ⟨k₂, followed₂, h₂⟩ := h₁.disk second
    refine ⟨k₂, ?_, ?_⟩
    · rw [events, List.foldlM_append, followed₁]
      exact followed₂
    · rw [step_join]
      exact h₂
  | configure | wait | intoDisk | share | unwrap => exact silent rfl nofun id
  | rebuild link options => exact absurd rfl (same link options)
  | request | frame | spi => exact through.elim

/-- No action of a sequence is out of order. -/
theorem Follows.history (h : s.Follows k) {actions : List Action}
    (through : ∀ a ∈ actions, a.Through fun _ => True)
    (same : ∀ link options, .rebuild link options ∉ actions) :
    ∃ k', (s.history actions).foldlM Phase.next k = some k' ∧ k' ≠ .enabled := by
  induction actions generalizing s k with
  | nil => exact ⟨k, rfl, h.rest⟩
  | cons a actions ih =>
    obtain ⟨k₁, followed₁, h₁⟩ := h.step (through a List.mem_cons_self)
      fun link options renewed => same link options (renewed ▸ List.mem_cons_self)
    obtain ⟨k₂, followed₂, rest⟩ := ih h₁ (fun a mem => through a (List.mem_cons_of_mem _ mem))
      fun link options mem => same link options (List.mem_cons_of_mem _ mem)
    refine ⟨k₂, ?_, rest⟩
    rw [Session.history, List.foldlM_append, followed₁]
    exact followed₂

end Session

/-! ### The order -/

/-- The order of write enables, writes and looks at the status. Behind each operation there is a
mark, so that what stands side by side belongs to one operation. -/
structure WriteProtocol (history : List Event) : Prop where
  /-- A write stands directly behind a write enable that has succeeded. -/
  enabled : ∀ before e after, history = before ++ e :: after → e.writes →
    ∃ earlier w, before = earlier ++ [w] ∧ w.enables
  /-- Directly behind a write enable that has succeeded stands a write, and only one. -/
  used : ∀ before w after, history = before ++ w :: after → w.enables →
    ∃ e later, after = e :: later ∧ e.writes ∧ ∀ e' ∈ later.head?, ¬ e'.writes
  /-- Behind a write that has succeeded the driver only looks at the status, until the wait ends. -/
  awaited : ∀ before e between e' after, history = before ++ e :: (between ++ e' :: after) →
    e.writes → e.succeeds → (∀ x ∈ between, ¬ x.endsWait) → e'.looks

namespace Event

variable (e : Event)

/-- The three kinds of requests that the phases tell apart have different opcodes. -/
theorem only_writes (writes : e.writes) :
    e.enables = false ∧ e.looks = false ∧ e.endsWait = false := by
  have apart : ∀ opcode ∈ writeOpcodes, opcode ≠ 0x05 ∧ opcode ≠ 0x06 := by
    simp [writeOpcodes]
  cases e with
  | returned timedOut => nomatch writes
  | exchanged request reply =>
    obtain ⟨look, enable⟩ := apart _ (List.contains_iff_mem.mp writes)
    cases reply <;> simp [enables, looks, endsWait, look, enable]

theorem only_enables (enables : e.enables) :
    e.writes = false ∧ e.looks = false ∧ e.endsWait = false := by
  cases e with
  | returned timedOut => nomatch enables
  | exchanged request reply =>
    cases reply with
    | error error => nomatch enables
    | ok reply =>
      have opcode : request.opcode = 0x06 := eq_of_beq enables
      simp [writes, looks, endsWait, opcode, writeOpcodes]

theorem looks_of_endsWait (ends : e.endsWait) : e.looks := by
  cases e with
  | returned timedOut => rfl
  | exchanged request reply =>
    cases reply with
    | error error => exact ends
    | ok reply => exact (Bool.and_eq_true_iff.mp ends).1

end Event

namespace Phase

variable {k k' : Phase} {e : Event}

/-- A write is in order only behind a write enable. -/
theorem eq_enabled_of_writes (step : next k e = some k') (writes : e.writes) : k = .enabled := by
  obtain ⟨-, looks, endsWait⟩ := e.only_writes writes
  cases k with
  | enabled => rfl
  | free => simp [next, writes] at step
  | waiting => simp [next, looks, endsWait] at step

theorem writes_of_next_enabled (step : next .enabled e = some k') : e.writes := by
  cases writes : e.writes with
  | true => rfl
  | false => simp [next, writes] at step

/-- The phase behind a write enable comes from that alone. -/
theorem enables_of_next (step : next k e = some .enabled) : k = .free ∧ e.enables := by
  cases k with
  | free =>
    simp only [next] at step
    split at step
    · contradiction
    · split at step
      · next enables => exact ⟨rfl, enables⟩
      · contradiction
  | enabled =>
    simp only [next] at step
    split at step
    · split at step <;> contradiction
    · contradiction
  | waiting =>
    simp only [next] at step
    split at step
    · contradiction
    · split at step <;> contradiction

theorem next_of_enables (step : next k e = some k') (enables : e.enables) : k' = .enabled := by
  obtain ⟨writes, looks, endsWait⟩ := e.only_enables enables
  cases k with
  | enabled => simp [next, writes] at step
  | free => simpa [next, writes, enables] using step.symm
  | waiting => simp [next, looks, endsWait] at step

/-- A wait that is not over goes on. -/
theorem next_of_not_endsWait (step : next .waiting e = some k') (goesOn : ¬ e.endsWait) :
    k' = .waiting ∧ e.looks := by
  simp only [next, if_neg goesOn] at step
  split at step
  · next looks => exact ⟨(Option.some.inj step).symm, looks⟩
  · contradiction

theorem follow_waiting {events : List Event} (followed : events.foldlM next .waiting = some k')
    (goesOn : ∀ e ∈ events, ¬ e.endsWait) : k' = .waiting := by
  induction events with
  | nil => exact (Option.some.inj followed).symm
  | cons e events ih =>
    obtain ⟨k₁, step, rest⟩ := follow_cons followed
    obtain ⟨rfl, -⟩ := next_of_not_endsWait step (goesOn e List.mem_cons_self)
    exact ih rest fun e' mem => goesOn e' (List.mem_cons_of_mem _ mem)

/-- Only a write enable leads behind a write enable. -/
theorem follow_enabled {events : List Event} (followed : events.foldlM next .free = some .enabled) :
    ∃ earlier w, events = earlier ++ [w] ∧ w.enables := by
  obtain rfl | ⟨earlier, w, rfl⟩ := events.eq_nil_or_concat
  · nomatch followed
  · rw [List.concat_eq_append] at followed
    obtain ⟨k₁, k₂, -, step, last⟩ := follow_split followed
    cases Option.some.inj last
    exact ⟨earlier, w, List.concat_eq_append, (enables_of_next step).2⟩

/-- What the phases allow is in order. -/
theorem writeProtocol {history : List Event} (followed : history.foldlM next .free = some k')
    (rest : k' ≠ .enabled) : WriteProtocol history where
  enabled before e after split writes := by
    subst split
    obtain ⟨k₁, k₂, first, step, -⟩ := follow_split followed
    rw [eq_enabled_of_writes step writes] at first
    exact follow_enabled first
  used before w after split enables := by
    subst split
    obtain ⟨k₁, k₂, -, step, follows⟩ := follow_split followed
    rw [next_of_enables step enables] at follows
    cases after with
    | nil => exact absurd (Option.some.inj follows).symm rest
    | cons e later =>
      obtain ⟨k₃, step', follows'⟩ := follow_cons follows
      refine ⟨e, later, rfl, writes_of_next_enabled step', fun e' head writes => ?_⟩
      obtain ⟨later', rfl⟩ := List.head?_eq_some_iff.mp head
      obtain ⟨k₄, step'', -⟩ := follow_cons follows'
      have enables' := (enables_of_next (eq_enabled_of_writes step'' writes ▸ step')).2
      rw [(e.only_writes (writes_of_next_enabled step')).1] at enables'
      contradiction
  awaited before e between e' after split writes succeeds goesOn := by
    subst split
    obtain ⟨k₁, k₂, -, step, follows⟩ := follow_split followed
    obtain rfl := eq_enabled_of_writes step writes
    have waiting : k₂ = .waiting := by simpa [next, writes, succeeds] using step.symm
    subst waiting
    obtain ⟨k₃, k₄, during, step', -⟩ := follow_split follows
    obtain rfl := follow_waiting during goesOn
    by_cases ended : e'.endsWait
    · exact e'.looks_of_endsWait ended
    · exact (next_of_not_endsWait step' ended).2

end Phase

namespace Session

/-- Whatever is done with a new driver, the disk around it and its chip, on any link, with any
settings and any armed faults: each write goes out directly behind a write enable that has
succeeded, such a write enable has one write directly behind it, and behind a write that has
succeeded the driver only reads status register 1, until a read shows the chip idle or fails or
the operation that waits returns a timeout. -/
theorem history_in_order {s : Session} (new : ∀ d, s.device.driver? = some d → d.state = .notReady)
    {actions : List Action} (through : ∀ a ∈ actions, a.Through fun _ => True)
    (same : ∀ link options, .rebuild link options ∉ actions) :
    WriteProtocol (s.history actions) := by
  have follows : s.Follows .free := by
    refine ⟨nofun, fun d found => ⟨?_, .inl rfl⟩⟩
    rw [new d found]
    trivial
  obtain ⟨k, followed, rest⟩ := follows.history through same
  exact Phase.writeProtocol followed rest

/-- An erase that one operation begins and another one waits for, with a look at the status between
them: the fourth of the ten events is the only write. -/
theorem erase_across_calls_in_order :
    ((create ⟨0xEF, 0x40, 0x14⟩ .direct .standard .standard).history
        [.flash .identify, .flash (.eraseSector 0), .flash .status, .flash .finishErase]).map
          Event.writes = [false, false, false, true, false, false, false, false, false, false] ∧
      WriteProtocol ((create ⟨0xEF, 0x40, 0x14⟩ .direct .standard .standard).history
        [.flash .identify, .flash (.eraseSector 0), .flash .status, .flash .finishErase]) :=
  ⟨rfl, history_in_order (fun d found => by cases found; rfl) (by simp [Action.Through])
    (by simp)⟩

end Session

end SerialFlash
