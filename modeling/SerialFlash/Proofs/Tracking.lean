import SerialFlash.Timeline
import SerialFlash.Proofs.Replies

/-!
Automata that watch a driver. An automaton reads what a script does in time, one moment after the
other, and may refuse one. `Tracks` says that, whatever the chip replies, it refuses nothing of what
a procedure does over a link, and where procedure and automaton end together. There is a rule for
each way of putting procedures together, and all of them are equivalences. The judgement holds of
the moments of every run. An automaton that reads events lets the pauses pass. What is known of a
procedure for all replies can be added to the judgement, and instructions at which such an automaton
stays where it is need no proof of their own.
-/

namespace SerialFlash

/-! ### Reading events -/

section
variable {κ : Type} {next : κ → Event → Option κ} {k k' : κ} {e : Event} {after : List Event}

theorem follow_cons (followed : (e :: after).foldlM next k = some k') :
    ∃ k₁, next k e = some k₁ ∧ after.foldlM next k₁ = some k' := by
  rw [List.foldlM_cons] at followed
  exact Option.bind_eq_some_iff.mp followed

/-- The states on both sides of an event. -/
theorem follow_split {before : List Event}
    (followed : (before ++ e :: after).foldlM next k = some k') :
    ∃ k₁ k₂, before.foldlM next k = some k₁ ∧ next k₁ e = some k₂ ∧
      after.foldlM next k₂ = some k' := by
  rw [List.foldlM_append] at followed
  obtain ⟨k₁, first, followed⟩ := Option.bind_eq_some_iff.mp followed
  obtain ⟨k₂, step, rest⟩ := follow_cons followed
  exact ⟨k₁, k₂, first, step, rest⟩

end

/-- The automaton on events, which takes no notice of a pause. -/
abbrev passPauses {κ : Type} (next : κ → Event → Option κ) (k : κ) : Moment → Option κ
  | .exchanged request reply => next k (.exchanged request reply)
  | .waited _ => some k

theorem foldlM_passPauses {κ : Type} (next : κ → Event → Option κ) (k : κ)
    (moments : List Moment) :
    moments.foldlM (passPauses next) k = (moments.filterMap Moment.event?).foldlM next k := by
  rw [List.foldlM_filterMap]
  apply congrArg fun step => moments.foldlM step k
  funext k m
  cases m <;> rfl

/-! ### The judgement -/

namespace Script

variable {α β κ : Type} {l : Link} {next : κ → Moment → Option κ} {k : κ}
  {good good' : α → κ → Prop}

/-- Started in a state, the automaton follows the script on every branch, and the end of both is
in `good`. -/
def Tracks (l : Link) (next : κ → Moment → Option κ) (good : α → κ → Prop) :
    Script α → κ → Prop
  | done value, k => good value k
  | send i rest, k => ∀ reply, ∃ k', next k (.exchanged (l.request i) reply) = some k' ∧
      (rest reply).Tracks l next good k'
  | pause us rest, k => ∃ k', next k (.waited (us * 1000)) = some k' ∧ rest.Tracks l next good k'

theorem tracks_bind (s : Script α) (f : α → Script β) {good : β → κ → Prop} :
    (s.bind f).Tracks l next good k ↔ s.Tracks l next (fun a => (f a).Tracks l next good) k := by
  induction s generalizing k with
  | done value => exact Iff.rfl
  | send i rest ih => simp only [send_bind, Tracks, ih]
  | pause us rest ih => simp only [pause_bind, Tracks, ih]

theorem Tracks.mono {s : Script α} (h : s.Tracks l next good k)
    (ended : ∀ a k, good a k → good' a k) : s.Tracks l next good' k := by
  induction s generalizing k with
  | done value => exact ended _ _ h
  | send i rest ih =>
    intro reply
    obtain ⟨k', step, tracks⟩ := h reply
    exact ⟨k', step, ih reply tracks⟩
  | pause us rest ih =>
    obtain ⟨k', step, tracks⟩ := h
    exact ⟨k', step, ih tracks⟩

theorem tracks_congr {s : Script α} (same : ∀ a k, good a k ↔ good' a k) :
    s.Tracks l next good k ↔ s.Tracks l next good' k :=
  ⟨fun h => h.mono fun a k => (same a k).mp, fun h => h.mono fun a k => (same a k).mpr⟩

/-- What holds at the end whatever the replies holds there as well. -/
theorem Tracks.and {P : Instruction → Prop} {always : α → Prop} {s : Script α}
    (h : s.Tracks l next good k) (h' : s.Always P always) :
    s.Tracks l next (fun a k => good a k ∧ always a) k := by
  induction s generalizing k with
  | done value => exact ⟨h, h'⟩
  | send i rest ih =>
    intro reply
    obtain ⟨k', step, tracks⟩ := h reply
    exact ⟨k', step, ih reply tracks (h'.2 reply)⟩
  | pause us rest ih =>
    obtain ⟨k', step, tracks⟩ := h
    exact ⟨k', step, ih tracks h'⟩

/-- The automaton follows what is done in a run. -/
theorem Tracks.timeline {s : Script α} (h : s.Tracks l next good k) {b : Bench}
    (link : b.link = l) :
    ∃ k', (s.timeline b).foldlM next k = some k' ∧ good (s.run b).1 k' := by
  induction s generalizing b k with
  | done value => exact ⟨k, rfl, h⟩
  | send i rest ih =>
    obtain ⟨k', step, tracks⟩ := h (b.send i).1
    obtain ⟨k'', steps, ended⟩ := ih _ tracks ((b.link_send i).trans link)
    refine ⟨k'', ?_, ended⟩
    rw [Script.timeline, List.foldlM_cons, link, step]
    exact steps
  | pause us rest ih =>
    obtain ⟨k', step, tracks⟩ := h
    obtain ⟨k'', steps, ended⟩ := ih tracks (b := b.wait (us * 1000)) link
    refine ⟨k'', ?_, ended⟩
    rw [Script.timeline, List.foldlM_cons, step]
    exact steps

section

variable {next : κ → Event → Option κ}

/-- Instructions that do not lead out of a set of states. -/
theorem Always.tracks {P : Instruction → Prop} {always : α → Prop} {within : κ → Prop}
    {s : Script α} (h : s.Always P always)
    (stays : ∀ k i reply, within k → P i →
      ∃ k', next k (.exchanged (l.request i) reply) = some k' ∧ within k')
    (start : within k) : s.Tracks l (passPauses next) (fun a k => always a ∧ within k) k := by
  induction s generalizing k with
  | done value => exact ⟨h, start⟩
  | send i rest ih =>
    intro reply
    obtain ⟨k', step, inside⟩ := stays k i reply start h.1
    exact ⟨k', step, ih reply (h.2 reply) inside⟩
  | pause us rest ih => exact ⟨k, rfl, ih h start⟩

/-- An automaton on events follows the exchanges of a run. -/
theorem Tracks.exchanges {s : Script α} (h : s.Tracks l (passPauses next) good k) {b : Bench}
    (link : b.link = l) :
    ∃ k', (s.exchanges b).foldlM next k = some k' ∧ good (s.run b).1 k' := by
  rw [exchanges_eq_events, ← foldlM_passPauses]
  exact h.timeline link

end

end Script

namespace Procedure

variable {σ ε ε' α β κ : Type} {l : Link} {next : κ → Moment → Option κ} {k : κ} {s : σ}
  {good good' : α → σ → κ → Prop} {bad bad' : ε → σ → κ → Prop}

/-- Started in `s` and `k`, procedure and automaton end together in `good`, or in `bad` if the
procedure fails. -/
def Tracks (op : Procedure σ ε α) (l : Link) (next : κ → Moment → Option κ) (s : σ) (k : κ)
    (good : α → σ → κ → Prop) (bad : ε → σ → κ → Prop) : Prop :=
  (op.script s).Tracks l next (fun
    | (.ok a, s) => good a s
    | (.error e, s) => bad e s) k

theorem Tracks.mono {op : Procedure σ ε α} (h : op.Tracks l next s k good bad)
    (onGood : ∀ a s k, good a s k → good' a s k) (onBad : ∀ e s k, bad e s k → bad' e s k) :
    op.Tracks l next s k good' bad' := by
  refine Script.Tracks.mono h ?_
  rintro ⟨_ | _, _⟩ k ended
  · exact onBad _ _ _ ended
  · exact onGood _ _ _ ended

theorem Tracks.and {P : Instruction → Prop} {always : α → σ → Prop} {never : ε → σ → Prop}
    {op : Procedure σ ε α} (h : op.Tracks l next s k good bad) (h' : op.Always P s always never) :
    op.Tracks l next s k (fun a s k => good a s k ∧ always a s)
      fun e s k => bad e s k ∧ never e s := by
  refine Script.Tracks.mono (Script.Tracks.and h h') ?_
  rintro ⟨_ | _, _⟩ k ended <;> exact ended

theorem Always.tracks {next : κ → Event → Option κ} {P : Instruction → Prop}
    {always : α → σ → Prop} {never : ε → σ → Prop} {within : κ → Prop} {op : Procedure σ ε α}
    (h : op.Always P s always never)
    (stays : ∀ k i reply, within k → P i →
      ∃ k', next k (.exchanged (l.request i) reply) = some k' ∧ within k')
    (start : within k) :
    op.Tracks l (passPauses next) s k (fun a s k => always a s ∧ within k)
      fun e s k => never e s ∧ within k := by
  refine Script.Tracks.mono (Script.Always.tracks h stays start) ?_
  rintro ⟨_ | _, _⟩ k ended <;> exact ended

@[simp] theorem tracks_pure (a : α) :
    (pure a : Procedure σ ε α).Tracks l next s k good bad ↔ good a s k := Iff.rfl

@[simp] theorem tracks_throw (e : ε) :
    (throw e : Procedure σ ε α).Tracks l next s k good bad ↔ bad e s k := Iff.rfl

@[simp] theorem tracks_get {good : σ → σ → κ → Prop} :
    (get : Procedure σ ε σ).Tracks l next s k good bad ↔ good s s k := Iff.rfl

@[simp] theorem tracks_modify {good : PUnit → σ → κ → Prop} (f : σ → σ) :
    (modify f : Procedure σ ε PUnit).Tracks l next s k good bad ↔ good ⟨⟩ (f s) k := Iff.rfl

@[simp] theorem tracks_bind (op : Procedure σ ε α) (f : α → Procedure σ ε β)
    {good : β → σ → κ → Prop} :
    (op >>= f).Tracks l next s k good bad ↔
      op.Tracks l next s k (fun a s k => (f a).Tracks l next s k good bad) bad := by
  unfold Tracks
  rw [script_bind, Script.tracks_bind]
  apply Script.tracks_congr
  rintro ⟨_ | _, _⟩ k <;> exact Iff.rfl

/-- Behind a step that leaves state and automaton where they were. -/
theorem Tracks.bind_same {op : Procedure σ ε α} {f : α → Procedure σ ε β}
    {good : β → σ → κ → Prop}
    (first : op.Tracks l next s k (fun _ s' k' => s' = s ∧ k' = k) bad)
    (rest : ∀ a, (f a).Tracks l next s k good bad) : (op >>= f).Tracks l next s k good bad := by
  rw [tracks_bind]
  refine first.mono ?_ fun _ _ _ => id
  rintro a _ _ ⟨rfl, rfl⟩
  exact rest a

@[simp] theorem tracks_map (f : α → β) (op : Procedure σ ε α) {good : β → σ → κ → Prop} :
    (f <$> op).Tracks l next s k good bad ↔
      op.Tracks l next s k (fun a => good (f a)) bad := by
  unfold Tracks
  rw [script_map, Script.tracks_bind]
  apply Script.tracks_congr
  rintro ⟨_ | _, _⟩ k <;> exact Iff.rfl

@[simp] theorem tracks_ite (c : Prop) [Decidable c] (op op' : Procedure σ ε α) :
    (if c then op else op').Tracks l next s k good bad ↔
      (c → op.Tracks l next s k good bad) ∧ (¬ c → op'.Tracks l next s k good bad) := by
  by_cases h : c <;> simp [h]

@[simp] theorem tracks_tryCatch (op : Procedure σ ε α) (handle : ε → Procedure σ ε α) :
    (tryCatch op handle).Tracks l next s k good bad ↔
      op.Tracks l next s k good fun e s k => (handle e).Tracks l next s k good bad := by
  unfold Tracks
  rw [script_tryCatch, Script.tracks_bind]
  apply Script.tracks_congr
  rintro ⟨_ | _, _⟩ k <;> exact Iff.rfl

/-- A pause goes by unnoticed. -/
@[simp] theorem tracks_sleep {next : κ → Event → Option κ} {good : Unit → σ → κ → Prop}
    (us : Nat) :
    (liftM (Script.sleep us) : Procedure σ ε Unit).Tracks l (passPauses next) s k good bad ↔
      good () s k := by
  constructor
  · rintro ⟨k', step, ended⟩
    cases step
    exact ended
  · intro ended
    exact ⟨k, rfl, ended⟩

/-- A procedure whose outcome is wrapped up as a value. -/
@[simp] theorem tracks_liftM_run (f : Except ε' α → β) (op : Procedure σ ε' α)
    {good : β → σ → κ → Prop} :
    (liftM (f <$> ExceptT.run op : StateT σ Script β) : Procedure σ ε β).Tracks
        l next s k good bad ↔
      op.Tracks l next s k (fun a => good (f (.ok a))) fun e => good (f (.error e)) := by
  unfold Tracks
  rw [script_liftM_run, Script.tracks_bind]
  apply Script.tracks_congr
  rintro ⟨_ | _, _⟩ k <;> exact Iff.rfl

end Procedure

/-! ### Steps of a driver -/

namespace Driver

open Procedure

variable {α κ : Type} {l : Link} {next : κ → Moment → Option κ} {k : κ} {d : Driver}
  {good : α → Driver → κ → Prop} {bad : DriverError BusError → Driver → κ → Prop}

@[simp] theorem tracks_setState {good : Unit → Driver → κ → Prop} (state : DriverState) :
    (setState state).Tracks l next d k good bad ↔ good () { d with state } k := Iff.rfl

@[simp] theorem tracks_guardReady {good : Unit → Driver → κ → Prop} :
    guardReady.Tracks l next d k good bad ↔
      (d.state = .ready → good () d k) ∧ (d.state ≠ .ready → bad (.busy d.state) d k) := by
  unfold Tracks
  rw [script_guardReady]
  by_cases ready : d.state = .ready <;> simp [ready, Script.Tracks]

@[simp] theorem tracks_resting (op : FlashM α) :
    (resting op).Tracks l next d k good bad ↔
      op.Tracks l next d k (fun a d => good a { d with state := .ready })
        fun e d => bad e { d with state := if e.cause = .timeout then .failed else .ready } := by
  unfold Tracks
  rw [script_resting, Script.tracks_bind]
  apply Script.tracks_congr
  rintro ⟨_ | _, _⟩ k <;> exact Iff.rfl

theorem tracks_ask {i : Instruction} {good : Bytes → Driver → κ → Prop} :
    (ask i).Tracks l next d k good bad ↔
      (∀ reply, ∃ k', next k (.exchanged (l.request i) (.ok reply)) = some k' ∧ good reply d k') ∧
      ∀ e, ∃ k', next k (.exchanged (l.request i) (.error e)) = some k' ∧ bad (.bus e) d k' := by
  unfold Tracks
  rw [script_ask]
  refine ⟨fun h => ⟨fun reply => h (.ok reply), fun e => h (.error e)⟩, ?_⟩
  rintro ⟨onGood, onBad⟩ (e | reply)
  · exact onBad e
  · exact onGood reply

theorem tracks_liftM_ask {i : Instruction} {good : Reply → Driver → κ → Prop} :
    (liftM (Script.ask i) : FlashM Reply).Tracks l next d k good bad ↔
      ∀ reply, ∃ k', next k (.exchanged (l.request i) reply) = some k' ∧ good reply d k' := by
  unfold Tracks
  rw [script_liftM]
  rfl

/-- An operation of the flash, run by the disk around it. -/
@[simp] theorem tracks_onFlash {ε : Type} {disk : Disk} (op : FlashM α)
    {good : Except (DriverError BusError) α → Disk → κ → Prop} {bad : ε → Disk → κ → Prop} :
    (liftM (Disk.onFlash op) : Procedure Disk ε _).Tracks l next disk k good bad ↔
      op.Tracks l next disk.flash k (fun a flash => good (.ok a) { disk with flash })
        fun e flash => good (.error e) { disk with flash } := by
  unfold Tracks
  rw [Disk.script_onFlash, Script.tracks_bind]
  apply Script.tracks_congr
  rintro ⟨_ | _, _⟩ k <;> exact Iff.rfl

end Driver

end SerialFlash
