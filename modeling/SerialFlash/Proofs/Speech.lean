import SerialFlash.History
import SerialFlash.Proofs.Alongside
import SerialFlash.Proofs.Initialised

/-!
What an action makes the driver say. Every request that goes out in the course of it spells an
instruction of the driver on its link. The instruction lies inside the device, as the driver knew
it at the start of the action, and it is routine unless the action is an identification. On a link
that needs no quad-enable bit an identification only reads the identity.

A driver that suits its layout goes through every operation side by side with itself, so what two
such drivers say holds of one.
-/

namespace SerialFlash

open Procedure

/-! ### Scripts -/

namespace Script

variable {α α' : Type} {P : Instruction → Prop} {paced : Prop} {E : α → α' → Prop}

/-- What two scripts say together, the first one says. -/
theorem Agrees.always {s : Script α} {s' : Script α'} (h : Agrees P paced E s s') :
    s.Always P fun a => ∃ a', E a a' := by
  induction h with
  | done ended => exact ⟨_, ended⟩
  | send sent _ ih => exact ⟨sent, ih⟩
  | pause _ ih | pauseFirst _ _ ih | pauseSecond _ _ ih => exact ih

/-- An exchange of a run is one of the instructions that the script may send. -/
theorem Always.of_mem_exchanges {good : α → Prop} {s : Script α} (h : s.Always P good) {b : Bench}
    {request : Request} {reply : Reply} (said : .exchanged request reply ∈ s.exchanges b) :
    ∃ i, P i ∧ request = b.link.request i := by
  induction s generalizing b with
  | done value => nomatch said
  | send i next ih =>
    rcases List.mem_cons.mp said with first | later
    · cases first
      exact ⟨i, h.1, rfl⟩
    · have rest := ih _ (h.2 _) later
      rwa [b.link_send] at rest
  | pause us next ih =>
    have rest := ih h (b := b.wait (us * 1000)) said
    exact rest

end Script

theorem Procedure.Agrees.always {σ ε α : Type} {P : Instruction → Prop} {paced : Prop}
    {E : σ → σ → Prop} {op op' : Procedure σ ε α} {s s' : σ}
    (h : Agrees P paced E op op' s s') :
    op.Always P s (fun _ t => ∃ t', E t t') fun _ t => ∃ t', E t t' := by
  refine Script.Always.mono (Script.Agrees.always h) (fun _ => id) ?_
  rintro ⟨_ | _, t⟩ ⟨⟨_, t'⟩, -, ended⟩ <;> exact ⟨t', ended⟩

/-! ### One driver -/

theorem Driver.alongside_self {d : Driver} (suits : d.layout.Suits d.options.eraseUnit) :
    d.Alongside True True d.layout d :=
  ⟨rfl, suits, _, _, _, rfl, fun _ => rfl, fun _ => ⟨rfl, rfl⟩⟩

theorem Driver.Recognises.suits {d : Driver} {b : Bench} (h : d.Recognises b) :
    d.layout.Suits d.options.eraseUnit := by
  rcases h.layout with unknown | ⟨size, listed, layout⟩
  · rw [unknown]
    exact Layout.suits_unknown _
  · rw [layout]
    exact Layout.suits_tile listed _

/-- A link that needs no quad-enable bit is identified by its answer alone. -/
theorem Driver.always_identify_plain {d : Driver} (plain : d.needsQuad = false) :
    identify.Always (· = .readId) d (fun _ _ => True) fun _ _ => True := by
  simp only [identify, always_bind, always_get, always_ite, always_throw, always_ask,
    always_modify]
  refine ⟨fun _ => trivial, fun _ => ⟨trivial, fun reply => ?_, fun _ => trivial⟩⟩
  cases (Identity.ofBytes reply).capacity? with
  | none => trivial
  | some size => simp [plain]

/-- What the driver may say in the course of an action. -/
structure Driver.Says (d : Driver) (a : Action) (i : Instruction) : Prop where
  inside : i.Inside d.layout.size
  routine : a ≠ .flash .identify → i.Routine
  /-- Without the quad-enable bit an identification only asks for the identity. -/
  plain : a = .flash .identify → d.needsQuad = false → i = .readId

theorem FlashOperation.says_run (operation : FlashOperation) {d : Driver}
    (suits : d.layout.Suits d.options.eraseUnit) :
    operation.run.Always (d.Says (.flash operation)) d (fun _ _ => True) fun _ _ => True := by
  by_cases identifies : operation = .identify
  · subst identifies
    by_cases plain : d.needsQuad = false
    · refine ((always_map _ _).mpr (Driver.always_identify_plain plain)).mono ?_
        (fun _ _ => id) fun _ _ => id
      rintro _ rfl
      exact ⟨trivial, fun other => absurd rfl other, fun _ _ => rfl⟩
    · refine ((Driver.agrees_identify ⟨_, d.alongside_self suits⟩).map _).always.mono ?_
        (fun _ _ _ => trivial) fun _ _ _ => trivial
      exact fun i inside =>
        ⟨inside _, fun other => absurd rfl other, fun _ none => absurd none plain⟩
  · refine (uniform_run identifies d d (d.alongside_self suits)).always.mono ?_
      (fun _ _ _ => trivial) fun _ _ _ => trivial
    exact fun i said => ⟨said.1, fun _ => said.2, fun same => absurd (Action.flash.inj same)
      identifies⟩

theorem DiskOperation.always_routine (operation : DiskOperation) {d : Disk}
    (suits : d.flash.layout.Suits d.flash.options.eraseUnit) :
    (liftM operation.run : DiskM DiskOutcome).Always
      (fun i => i.Inside d.flash.layout.size ∧ i.Routine) d (fun _ _ => True) fun _ _ => True :=
  ((operation.uniform_run d d ⟨d.flash.alongside_self suits, rfl⟩).always).imp
    (fun _ _ _ => trivial) fun _ _ _ => trivial

/-! ### Sessions -/

namespace Session

variable {s : Session} {d : Driver} {request : Request} {reply : Reply}

theorem said_of_disk (recognised : s.Recognised) (found : s.device.driver? = some d)
    {operation : DiskOperation} (said : .exchanged request reply ∈ s.diskEvents operation) :
    ∃ i, (i.Inside d.layout.size ∧ i.Routine) ∧ request = s.bench.link.request i := by
  unfold diskEvents at said
  split at said
  · next disk device =>
    cases (Device.driver?_of_disk? device).symm.trans found
    rcases List.mem_append.mp said with said | mark
    · have always := operation.always_routine (recognised.driver _ found).2.suits
      rw [Procedure.Always, script_liftM_state, Script.always_bind] at always
      exact always.of_mem_exchanges said
    · cases List.mem_singleton.mp mark
  · contradiction

/-- Only a driver says anything. -/
theorem exists_driver_of_said {a : Action} {e : Event} (said : e ∈ s.events a) :
    ∃ d, s.device.driver? = some d := by
  obtain ⟨compareBuffer, device, b⟩ := s
  cases device with
  | gone => cases a <;> nomatch said
  | bare d => exact ⟨d, rfl⟩
  | disk d | shared d => exact ⟨d.flash, rfl⟩

/-- Every request of an action is an instruction that the driver may say. -/
theorem exists_said (recognised : s.Recognised) (found : s.device.driver? = some d) {a : Action}
    (said : .exchanged request reply ∈ s.events a) :
    ∃ i, d.Says a i ∧ request = s.bench.link.request i := by
  have ofDisk (onDisk : a.OnDisk) {link : Link}
      (h : ∃ i, (i.Inside d.layout.size ∧ i.Routine) ∧ request = link.request i) :
      ∃ i, d.Says a i ∧ request = link.request i := by
    obtain ⟨i, ⟨inside, routine⟩, spelt⟩ := h
    have other : a ≠ .flash .identify := by rintro rfl; exact onDisk
    exact ⟨i, ⟨inside, fun _ => routine, fun same => absurd same other⟩, spelt⟩
  cases a with
  | flash operation =>
    simp only [events, found] at said
    rcases List.mem_append.mp said with said | mark
    · exact Script.Always.of_mem_exchanges
        (operation.says_run (recognised.driver d found).2.suits) said
    · generalize ((operation.run.script d).run s.bench).1.1 = result at mark
      cases result <;> nomatch List.mem_singleton.mp mark
  | disk operation => exact ofDisk trivial (said_of_disk recognised found said)
  | join first second =>
    rcases List.mem_append.mp said with said | said
    · exact ofDisk trivial (said_of_disk recognised found said)
    -- the first operation may have given the flash up, but has left its layout and the link
    · obtain ⟨d', found', same⟩ : ∃ d', (s.step (.disk first)).2.device.driver? = some d' ∧
          (d' = d ∨ d.state = .ready ∧ d' = { d with state := .failed }) :=
        driver_onDisk _ (fun d => first.survives_run d _) found
      have layout : d'.layout = d.layout := by rcases same with rfl | ⟨-, rfl⟩ <;> rfl
      have link : (s.step (.disk first)).2.bench.link = s.bench.link := link_step nofun
      have later := said_of_disk (recognised.step _) found' said
      rw [layout, link] at later
      exact ofDisk trivial later
  | _ => nomatch said

end Session

end SerialFlash
