import SerialFlash.Proofs.Alongside
import SerialFlash.Proofs.Reachable

/-!
Two sessions in lockstep. They run on two benches, with drivers side by side and owners of one
kind. If the benches answer alike whatever such drivers may say, then every action has the same
outcome in both sessions, and leaves them in lockstep.

The driver of either session may be identified in the other only if their links need the same
of the chip. Without identifications it is enough that the benches answer the other instructions
alike.
-/

namespace SerialFlash

open Procedure

/-- The benches answer alike whatever drivers side by side say, and may be set up alike. -/
structure Bench.Parallel (wired paced : Prop) (settings : Setting → Prop)
    (R : Bench → Bench → Prop) : Prop
    extends Bench.Lockstep (fun i => i.Fits ∧ (¬ wired → i.Routine)) paced R where
  configure : ∀ b b' setting, settings setting → R b b' →
    R { b with chip := b.chip.configure setting } { b' with chip := b'.chip.configure setting }

/-- An action on driver, disk or settings, with the settings that are allowed. The driver is
kept, and is identified only if `wired`. -/
def Action.Common (wired : Prop) (settings : Setting → Prop) : Action → Prop
  | configure setting => settings setting
  | flash operation => operation = .identify → wired
  | request _ | frame _ _ | spi _ | rebuild _ _ => False
  | _ => True

namespace Device

/-- Owners of one kind, around drivers side by side. -/
inductive Alongside (wired paced : Prop) : Device → Device → Prop
  | bare {d d'} (h : Driver.Siblings wired paced d d') : Alongside wired paced (.bare d) (.bare d')
  | disk {d d' format} (h : Driver.Siblings wired paced d d') :
      Alongside wired paced (.disk ⟨d, format⟩) (.disk ⟨d', format⟩)
  | shared {d d' format} (h : Driver.Siblings wired paced d d') :
      Alongside wired paced (.shared ⟨d, format⟩) (.shared ⟨d', format⟩)
  | gone : Alongside wired paced .gone .gone

namespace Alongside

variable {wired paced : Prop} {device device' : Device}

theorem driver (h : Alongside wired paced device device') :
    (device = .gone ∧ device' = .gone) ∨ ∃ d d', device.driver? = some d ∧
      device'.driver? = some d' ∧ d.Siblings wired paced d' ∧
      ∀ d d', d.Siblings wired paced d' →
        Alongside wired paced (device.withDriver d) (device'.withDriver d') := by
  cases h with
  | bare h => exact .inr ⟨_, _, rfl, rfl, h, fun _ _ h => .bare h⟩
  | disk h => exact .inr ⟨_, _, rfl, rfl, h, fun _ _ h => .disk h⟩
  | shared h => exact .inr ⟨_, _, rfl, rfl, h, fun _ _ h => .shared h⟩
  | gone => exact .inl ⟨rfl, rfl⟩

theorem onDisk (h : Alongside wired paced device device') :
    (device.disk? = none ∧ device'.disk? = none ∧
        device'.driver?.isSome = device.driver?.isSome) ∨
      ∃ d d', device.disk? = some d ∧ device'.disk? = some d' ∧
        (∃ l, d.Alongside wired paced l d') ∧
        ∀ l d d', Disk.Alongside wired paced l d d' →
          Alongside wired paced (device.withDisk d) (device'.withDisk d') := by
  cases h with
  | bare h | gone => exact .inl ⟨rfl, rfl, rfl⟩
  | disk h =>
    obtain ⟨l, h⟩ := h
    refine .inr ⟨_, _, rfl, rfl, ⟨l, h, rfl⟩, ?_⟩
    rintro l ⟨d, format⟩ ⟨d', _⟩ ⟨flash, rfl⟩
    exact .disk ⟨l, flash⟩
  | shared h =>
    obtain ⟨l, h⟩ := h
    refine .inr ⟨_, _, rfl, rfl, ⟨l, h, rfl⟩, ?_⟩
    rintro l ⟨d, format⟩ ⟨d', _⟩ ⟨flash, rfl⟩
    exact .shared ⟨l, flash⟩

theorem share (h : Alongside wired paced device device') :
    Alongside wired paced device.share device'.share := by
  cases h with
  | bare h => exact .bare h
  | disk h | shared h => exact .shared h
  | gone => exact .gone

theorem unwrap (h : Alongside wired paced device device') :
    Alongside wired paced device.unwrap device'.unwrap := by
  cases h with
  | bare h | disk h => exact .bare h
  | shared h => exact .disk h
  | gone => exact .gone

end Alongside

end Device

namespace Session

/-- The outcomes of a sequence of actions, one by one. -/
def outcomes (s : Session) : List Action → List Outcome
  | [] => []
  | a :: rest => (s.step a).1 :: (s.step a).2.outcomes rest

variable {wired paced : Prop} {settings : Setting → Prop} {R : Bench → Bench → Prop}
  {s s' : Session} {α : Type}

/-- The sessions have drivers side by side, on related benches. -/
structure Alongside (wired paced : Prop) (R : Bench → Bench → Prop) (s s' : Session) : Prop where
  device : s.device.Alongside wired paced s'.device
  bench : R s.bench s'.bench

namespace Alongside

variable (parallel : Bench.Parallel wired paced settings R)

include parallel

/-- What runs on both disks has the same outcome. -/
theorem step_onDisk (h : s.Alongside wired paced R s') {op : StateT Disk Script α}
    (uniform : ∀ l, Disk.Uniform wired paced l (liftM op : DiskM α)) (wrap : α → Outcome) :
    (s'.onDisk op wrap).1 = (s.onDisk op wrap).1 ∧
      (s.onDisk op wrap).2.Alongside wired paced R (s'.onDisk op wrap).2 := by
  rcases h.device.onDisk with ⟨none, none', same⟩ | ⟨d, d', found, found', ⟨l, disks⟩, around⟩
  · simp only [Session.onDisk, none, none', same]
    exact ⟨trivial, h⟩
  · have agreed : Agrees (fun i => i.Fits ∧ (¬ wired → i.Routine)) paced
        (Disk.Alongside wired paced l) (liftM op : DiskM α) (liftM op) d d' :=
      (uniform l d d' disks).mono (fun i said => ⟨said.1.fits disks.flash.suits.bound,
        fun _ => said.2⟩) fun _ _ h => h
    obtain ⟨⟨result, after⟩, bench⟩ := Script.Agrees.run agreed parallel.toLockstep h.bench
    rw [script_liftM_state, script_liftM_state, Script.run_bind, Script.run_bind] at result after
    rw [script_liftM_state, script_liftM_state, Script.run_bind, Script.run_bind] at bench
    simp only [Session.onDisk, found, found']
    exact ⟨congrArg wrap (Except.ok.inj result), around l _ _ after, bench⟩

/-- An action has the same outcome in both sessions, and they stay in lockstep. -/
theorem step (h : s.Alongside wired paced R s') {a : Action} (common : a.Common wired settings) :
    (s'.step a).1 = (s.step a).1 ∧ (s.step a).2.Alongside wired paced R (s'.step a).2 := by
  cases a with
  | configure setting =>
    exact ⟨rfl, h.device, parallel.configure _ _ setting common h.bench⟩
  | flash operation =>
    rcases h.device.driver with ⟨gone, gone'⟩ | ⟨d, d', found, found', siblings, around⟩
    · simp only [Session.step, gone, gone', Device.driver?]
      exact ⟨trivial, .gone, h.bench⟩
    · have agreed : Agrees (fun i => i.Fits ∧ (¬ wired → i.Routine)) paced
          (Driver.Siblings wired paced) operation.run operation.run d d' :=
        (operation.agrees_run common siblings).mono (fun i said => ⟨said.1,
          fun unwired => said.2 fun identifies => unwired (common identifies)⟩) fun _ _ h => h
      obtain ⟨⟨result, after⟩, bench⟩ := Script.Agrees.run agreed parallel.toLockstep h.bench
      rw [step_flash_eq found, step_flash_eq found']
      exact ⟨congrArg Outcome.flash result, around _ _ after, bench⟩
  | disk operation => exact h.step_onDisk parallel (fun l => operation.uniform_run) .disk
  | join first second =>
    exact h.step_onDisk parallel (fun l => first.uniform_runInTurn second) fun p => .join p.1 p.2
  | request | frame | spi | rebuild => exact common.elim
  | wait nanoseconds =>
    exact ⟨rfl, h.device, parallel.wait _ _ nanoseconds h.bench⟩
  | intoDisk format =>
    obtain ⟨compareBuffer, device, b⟩ := s
    obtain ⟨compareBuffer', device', b'⟩ := s'
    obtain ⟨devices, benches⟩ := h
    cases devices with
    | @bare d d' siblings =>
      have sameSize : d'.layout.sectorSize = d.layout.sectorSize := by
        obtain ⟨_, -, -, _, _, _, rfl, -⟩ := siblings
        rfl
      simp only [Session.step, Disk.create, sameSize]
      cases format.resolve? d.layout.sectorSize with
      | none => exact ⟨rfl, .gone, benches⟩
      | some size => exact ⟨rfl, .disk siblings, benches⟩
    | disk siblings => exact ⟨rfl, .disk siblings, benches⟩
    | shared siblings => exact ⟨rfl, .shared siblings, benches⟩
    | gone => exact ⟨rfl, .gone, benches⟩
  | share => exact ⟨rfl, h.device.share, h.bench⟩
  | unwrap => exact ⟨rfl, h.device.unwrap, h.bench⟩

/-- So do all actions of a sequence. -/
theorem run (h : s.Alongside wired paced R s') {actions : List Action}
    (common : ∀ a ∈ actions, a.Common wired settings) :
    s'.outcomes actions = s.outcomes actions ∧
      (s.run actions).Alongside wired paced R (s'.run actions) := by
  induction actions generalizing s s' with
  | nil => exact ⟨rfl, h⟩
  | cons a rest ih =>
    obtain ⟨outcome, after⟩ := h.step parallel (common a List.mem_cons_self)
    obtain ⟨rest', last⟩ := ih after fun a mem => common a (List.mem_cons_of_mem _ mem)
    exact ⟨by rw [outcomes, outcomes, outcome, rest'], last⟩

end Alongside

end Session

end SerialFlash
