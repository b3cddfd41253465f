import SerialFlash.Proofs.Initialised
import SerialFlash.Proofs.StoredWrites
import SerialFlash.Proofs.WriteCycles

/-!
The order of a disk write. What goes out besides write enables and looks at the status is a front of
the cycles of the write, sector by sector, and all of them if it succeeds. So nothing is programmed
before everything under its sector has been erased and read back, no sector is touched before the
one in front of it is done, and behind the first failure nothing goes out at all.
-/

namespace SerialFlash

open Procedure

/-! ### What goes out -/

/-- The opcode is neither that of a write enable nor that of a look at the status. -/
def opcodeWorks (opcode : UInt8) : Bool :=
  opcode != 0x06 && opcode != 0x05

/-- The requests that work on the array, in their order. -/
def workRequests (events : List Event) : List Request :=
  (requestsSent events).filter fun r => opcodeWorks r.opcode

/-- What the chip logs of the events that work on the array. -/
theorem filter_opcodeWorks (events : List Event) :
    (events.filterMap Event.opcode?).filter opcodeWorks =
      (workRequests events).map Request.opcode := by
  have logged : events.filterMap Event.opcode? = (requestsSent events).map Request.opcode := by
    rw [requestsSent, List.map_filterMap]
    congr 1
    funext e
    cases e <;> rfl
  rw [logged, List.filter_map]
  rfl

namespace Event

/-- A look at the status that shows the chip at work, or idle. -/
def Shows (l : Link) (busy : Bool) (e : Event) : Prop :=
  ∃ bytes, e = .exchanged (l.request .readStatus1) (.ok bytes) ∧
    (StatusRegister.ofReply bytes).isBusy = busy

end Event

namespace Instruction

/-- The chip is at work for a while behind the instruction. -/
def Lasts : Instruction → Prop
  | eraseSector _ _ | programPage _ _ => True
  | _ => False

/-- The instruction has been answered, nothing has gone wrong with it, and if the chip was at work
behind it, it has been seen idle. -/
def Finished (l : Link) (events : List Event) (i : Instruction) : Prop :=
  ∃ before reply after, events = before ++ .exchanged (l.request i) reply :: after ∧
    i.fails reply = false ∧ (i.Lasts → ∃ e ∈ after, e.Shows l false)

theorem Finished.cons {l : Link} {events : List Event} {i : Instruction} (e : Event)
    (h : i.Finished l events) : i.Finished l (e :: events) := by
  obtain ⟨before, reply, after, rfl, well, done⟩ := h
  exact ⟨e :: before, reply, after, rfl, well, done⟩

theorem Works.opcodeWorks {i : Instruction} (works : i.Works) (l : Link) :
    opcodeWorks (l.request i).opcode = true := by
  cases i with
  | readArray address length => rcases l with _ | _ | ⟨_ | _ | _⟩ <;> rfl
  | programPage address data => rcases l with _ | _ | ⟨_ | _ | _⟩ <;> rfl
  | eraseSector unit address => cases unit <;> rfl
  | _ => exact works.elim

theorem Lasts.patience {options : DriverOptions} {i : Instruction} (lasts : i.Lasts) :
    Agenda.patience options i ≠ none := by
  cases i with
  | eraseSector unit address | programPage address data => exact nofun
  | _ => exact lasts.elim

end Instruction

/-- A request on the array tells what it stands for. -/
theorem Link.request_inj {l : Link} {i i' : Instruction} (works : i.Works) (works' : i'.Works)
    (same : l.request i = l.request i') : i = i' := by
  have opcode := congrArg Request.opcode same
  have address := congrArg Request.address same
  have phase := congrArg Request.phase same
  cases i with
  | readArray _ _ =>
    cases i' with
    | readArray _ _ =>
      cases address
      cases phase
      rfl
    | programPage | eraseSector => nomatch phase
    | _ => exact works'.elim
  | programPage _ _ =>
    cases i' with
    | programPage _ _ =>
      cases address
      cases phase
      rfl
    | readArray | eraseSector => nomatch phase
    | _ => exact works'.elim
  | eraseSector unit _ =>
    cases i' with
    | eraseSector unit' _ =>
      cases address
      cases unit <;> cases unit' <;> first | rfl | nomatch opcode
    | readArray | programPage => nomatch phase
    | _ => exact works'.elim
  | _ => exact works.elim

/-! ### Agendas on the way -/

namespace Agenda

variable {l : Link} {options : DriverOptions} {k k' : Agenda} {events : List Event}

/-- What a request that is in order makes of an agenda. -/
inductive Steps (l : Link) (options : DriverOptions) : Agenda → Request → Reply → Agenda → Prop
  | look {todo reply} : Steps l options ⟨todo, none⟩ (l.request .readStatus1) reply
      ⟨todo, pollsFor options .readStatus1 reply⟩
  | poll {todo polls reply} : Steps l options ⟨todo, some (polls + 1)⟩ (l.request .readStatus1)
      reply ⟨todo, pollsLeft polls reply⟩
  | enable {todo reply} : Steps l options ⟨todo, none⟩ (l.request .writeEnable) reply
      ⟨todo, pollsFor options .writeEnable reply⟩
  | work {i todo reply} : Steps l options ⟨i :: todo, none⟩ (l.request i) reply
      ⟨todo, pollsFor options i reply⟩

theorem steps_of_next {request : Request} {reply : Reply}
    (step : next l options k (.exchanged request reply) = some k') :
    Steps l options k request reply k' := by
  obtain ⟨todo, polls⟩ := k
  simp only [next] at step
  split at step
  · next look =>
    subst look
    split at step <;> cases step
    · exact .look
    · exact .poll
  · split at step
    · contradiction
    · next waits =>
      cases Option.not_isSome_iff_eq_none.mp waits
      split at step
      · next enable =>
        cases step
        exact enable ▸ .enable
      · split at step
        · split at step
          · next work =>
            cases step
            exact work ▸ .work
          · contradiction
        · contradiction

theorem pollsFor_of_fails {i : Instruction} {reply : Reply} (fails : i.fails reply = true) :
    pollsFor options i reply = some 0 :=
  if_pos fails

/-- Once broken off, nothing is sent any more. -/
theorem follow_brokenOff (brokenOff : k.polls = some 0)
    (followed : events.foldlM (next l options) k = some k') :
    requestsSent events = [] ∧ k' = k := by
  induction events with
  | nil => exact ⟨rfl, (Option.some.inj followed).symm⟩
  | cons e events ih =>
    obtain ⟨k₁, step, rest⟩ := follow_cons followed
    cases e with
    | returned timedOut =>
      cases Option.some.inj step
      exact ih rest
    | exchanged request reply => cases steps_of_next step <;> nomatch brokenOff

/-- A wait only ends with a look that shows the chip idle. -/
theorem follow_wait (waits : k.polls ≠ none)
    (followed : events.foldlM (next l options) k = some k') (ended : k'.polls = none) :
    ∃ e ∈ events, e.Shows l false := by
  induction events generalizing k with
  | nil =>
    cases Option.some.inj followed
    exact absurd ended waits
  | cons e events ih =>
    have later (k₁ : Agenda) (rest : events.foldlM (next l options) k₁ = some k')
        (goesOn : k₁.polls ≠ none) : ∃ e' ∈ e :: events, e'.Shows l false := by
      obtain ⟨e', mem, idle⟩ := ih goesOn rest
      exact ⟨e', List.mem_cons_of_mem _ mem, idle⟩
    obtain ⟨k₁, step, rest⟩ := follow_cons followed
    cases e with
    | returned timedOut =>
      cases Option.some.inj step
      exact later _ rest waits
    | exchanged request reply =>
      cases steps_of_next step with
      | look | enable | work => exact absurd rfl waits
      | @poll todo polls _ =>
        cases reply with
        | error e => exact later _ rest nofun
        | ok bytes =>
          cases idle : (StatusRegister.ofReply bytes).isBusy with
          | false => exact ⟨_, List.mem_cons_self, bytes, rfl, idle⟩
          | true => exact later _ rest (by simp [pollsLeft, idle])

/-- An instruction of the agenda is finished when the operation goes on behind it. -/
theorem finished_of_follow {i : Instruction} {todo : List Instruction} {reply : Reply}
    (followed : events.foldlM (next l options) ⟨todo, pollsFor options i reply⟩ = some k')
    (ended : k'.polls = none) : i.Finished l (.exchanged (l.request i) reply :: events) := by
  have well : i.fails reply = false := by
    refine Bool.eq_false_iff.mpr fun fails => ?_
    rw [pollsFor_of_fails fails] at followed
    obtain ⟨-, rfl⟩ := follow_brokenOff rfl followed
    nomatch ended
  refine ⟨[], reply, events, rfl, well, fun lasts => follow_wait ?_ followed ended⟩
  rw [pollsFor, if_neg (by simp [well])]
  exact lasts.patience

/-- What has gone out that works on the array is a front of the agenda, and the rest is still to be
done. Between two instructions all that have gone out are finished. -/
theorem follow_front (works : ∀ i ∈ k.todo, i.Works)
    (followed : events.foldlM (next l options) k = some k') :
    ∃ done, k.todo = done ++ k'.todo ∧ workRequests events = done.map l.request ∧
      (k'.polls = none → ∀ i ∈ done, i.Finished l events) := by
  induction events generalizing k with
  | nil =>
    cases Option.some.inj followed
    exact ⟨[], rfl, rfl, nofun⟩
  | cons e events ih =>
    obtain ⟨k₁, step, rest⟩ := follow_cons followed
    -- everything but the instructions of the agenda leaves it as it is
    have aside (same : k₁.todo = k.todo) (silent : workRequests (e :: events) =
        workRequests events) : ∃ done, k.todo = done ++ k'.todo ∧
          workRequests (e :: events) = done.map l.request ∧
          (k'.polls = none → ∀ i ∈ done, i.Finished l (e :: events)) := by
      obtain ⟨done, todo, sent, finished⟩ := ih (same ▸ works) rest
      exact ⟨done, same ▸ todo, silent.trans sent,
        fun ended i mem => (finished ended i mem).cons e⟩
    cases e with
    | returned timedOut =>
      cases Option.some.inj step
      exact aside rfl rfl
    | exchanged request reply =>
      cases steps_of_next step with
      | look | poll | enable => exact aside rfl rfl
      | @work i todo reply =>
        have mine := works i List.mem_cons_self
        obtain ⟨done, todo', sent, finished⟩ :=
          ih (fun i' mem => works i' (List.mem_cons_of_mem _ mem)) rest
        refine ⟨i :: done, congrArg (i :: ·) todo', ?_, fun ended => ?_⟩
        · rw [List.map_cons, ← sent]
          exact List.filter_cons_of_pos (mine.opcodeWorks l)
        · exact List.forall_mem_cons.mpr ⟨finished_of_follow rest ended,
            fun i' mem => (finished ended i' mem).cons _⟩

/-- An exchange with an address is the next instruction of the agenda. Everything in front of it is
finished. -/
theorem follow_next (works : ∀ i ∈ k.todo, i.Works) {before after : List Event} {request : Request}
    {reply : Reply} {address : Nat} (found : request.address = some address)
    (followed : (before ++ .exchanged request reply :: after).foldlM (next l options) k = some k') :
    ∃ i done todo, request = l.request i ∧ k.todo = done ++ i :: todo ∧
      (∀ i' ∈ done, i'.Finished l before) ∧
      after.foldlM (next l options) ⟨todo, pollsFor options i reply⟩ = some k' := by
  obtain ⟨k₁, k₂, first, step, rest⟩ := follow_split followed
  obtain ⟨done, split, -, finished⟩ := follow_front works first
  cases steps_of_next step with
  | look | poll | enable => nomatch found
  | work => exact ⟨_, done, _, rfl, split, finished rfl, rest⟩

/-- An instruction on the array goes out when it is the next of the agenda. -/
theorem follow_works (works : ∀ i ∈ k.todo, i.Works) {before after : List Event} {i : Instruction}
    {reply : Reply} (mine : i.Works)
    (followed : (before ++ .exchanged (l.request i) reply :: after).foldlM
      (next l options) k = some k') :
    ∃ done todo, k.todo = done ++ i :: todo ∧ (∀ i' ∈ done, i'.Finished l before) ∧
      after.foldlM (next l options) ⟨todo, pollsFor options i reply⟩ = some k' := by
  obtain ⟨address, found⟩ := address_request (l := l) mine
  obtain ⟨i', done, todo, same, split, finished, rest⟩ := follow_next works found followed
  have works' : i'.Works := works i' (split ▸ List.mem_append_right _ List.mem_cons_self)
  cases Link.request_inj mine works' same
  exact ⟨done, todo, split, finished, rest⟩

/-- Behind the first thing that goes wrong nothing is sent any more. -/
theorem follow_fails (works : ∀ i ∈ k.todo, i.Works) {before after : List Event} {i : Instruction}
    {reply : Reply} (followed : (before ++ .exchanged (l.request i) reply :: after).foldlM
      (next l options) k = some k') (fails : i.fails reply = true) :
    requestsSent after = [] := by
  cases reply with
  | error e =>
    obtain ⟨k₁, k₂, -, step, rest⟩ := follow_split followed
    have steps := steps_of_next step
    have brokenOff : k₂.polls = some 0 := by
      generalize l.request i = request at steps
      cases steps with
      | poll | look | enable => rfl
      | @work i' _ _ => cases i' <;> rfl
    exact (follow_brokenOff brokenOff rest).1
  | ok bytes =>
    -- among the answers only a chunk that is not erased can be wrong
    cases i with
    | readArray address length =>
      obtain ⟨_, todo, -, -, rest⟩ :=
        follow_works works (i := .readArray address length) trivial followed
      rw [pollsFor_of_fails fails] at rest
      exact (follow_brokenOff rfl rest).1
    | _ => nomatch fails

theorem follow_busy {looks : List Event} {todo : List Instruction}
    (busy : ∀ e ∈ looks, e.Shows l true)
    (followed : (looks ++ events).foldlM (next l options) ⟨todo, some looks.length⟩ = some k') :
    events.foldlM (next l options) ⟨todo, some 0⟩ = some k' := by
  induction looks with
  | nil => exact followed
  | cons e looks ih =>
    obtain ⟨bytes, rfl, shown⟩ := busy e List.mem_cons_self
    obtain ⟨k₁, step, rest⟩ := follow_cons followed
    rw [List.length_cons, next_poll, pollsLeft, if_pos shown] at step
    cases step
    exact ih (fun e' mem => busy e' (List.mem_cons_of_mem _ mem)) rest

/-- Behind a wait that takes too long nothing is sent any more. -/
theorem follow_timeout (works : ∀ i ∈ k.todo, i.Works) {before looks after : List Event}
    {i : Instruction} {reply : Reply}
    (followed : (before ++ .exchanged (l.request i) reply :: (looks ++ after)).foldlM
      (next l options) k = some k') (patient : patience options i = some looks.length)
    (busy : ∀ e ∈ looks, e.Shows l true) : requestsSent after = [] := by
  have mine : i.Works := by
    cases i with
    | eraseSector unit address | programPage address data => trivial
    | _ => nomatch patient
  obtain ⟨_, todo, -, -, rest⟩ := follow_works works mine followed
  cases fails : i.fails reply with
  | true =>
    rw [pollsFor_of_fails fails] at rest
    have silent := (follow_brokenOff rfl rest).1
    rw [requestsSent_append] at silent
    exact (List.append_eq_nil_iff.mp silent).2
  | false =>
    rw [pollsFor, if_neg (by simp [fails]), patient] at rest
    exact (follow_brokenOff rfl (follow_busy busy rest)).1

end Agenda

/-! ### Where the cycles lie -/

/-- A front of a plan that the next step is not in is done. -/
theorem done_of_front {α : Type} {plan done todo front : List α} {a : α}
    (split : plan = done ++ a :: todo) (within : front <+: plan) (notIn : a ∉ front) :
    front <+: done := by
  have next : done ++ [a] <+: plan := ⟨todo, by rw [split]; simp⟩
  rcases List.prefix_or_prefix_of_prefix within next with shorter | longer
  · rcases List.prefix_concat_iff.mp shorter with rfl | shorter
    · exact absurd (by simp) notIn
    · exact shorter
  · exact absurd (longer.subset (by simp)) notIn

theorem Driver.works_of_mem_renewals {d : Driver} {first count : Nat} {i : Instruction}
    (mem : i ∈ d.renewals first count) :
    i.Works ∧ ∀ address data, i ≠ .programPage address data := by
  obtain ⟨k, -, mem⟩ := List.mem_flatMap.mp mem
  obtain rfl | mem := List.mem_cons.mp mem
  · exact ⟨trivial, nofun⟩
  · obtain ⟨j, -, rfl⟩ := List.mem_map.mp mem
    exact ⟨trivial, nofun⟩

namespace Disk

variable {d : Disk} {l : Link} {start count : Nat} {data : Bytes} {i : Instruction}

theorem works_of_mem_cycles (mem : i ∈ d.cycles start data count) : i.Works := by
  obtain ⟨k, -, mem⟩ := List.mem_flatMap.mp mem
  rcases List.mem_append.mp mem with mem | mem
  · exact (Driver.works_of_mem_renewals mem).1
  · obtain ⟨j, -, rfl⟩ := List.mem_map.mp mem
    trivial

theorem length_sectorData_le (d : Disk) (data : Bytes) (k : Nat) :
    (d.sectorData data k).length ≤ d.sectorSize :=
  List.length_take_le _ _

theorem cycles_front {m n : Nat} (le : m ≤ n) :
    d.cycles start data m <+: d.cycles start data n := by
  obtain ⟨j, rfl⟩ := Nat.exists_eq_add_of_le le
  rw [cycles, cycles, List.range_add, List.flatMap_append]
  exact List.prefix_append _ _

/-- Within the cycles, the sectors behind and the renewal of the next one. -/
theorem cycles_renewals_front {m n : Nat} (lt : m < n) :
    d.cycles start data m ++ d.flash.renewals ((start + m) * d.flashSectors) d.flashSectors <+:
      d.cycles start data n := by
  refine List.IsPrefix.trans ?_ (cycles_front lt)
  rw [cycles, cycles, List.range_succ, List.flatMap_append, List.flatMap_singleton, cycle,
    ← List.append_assoc]
  exact List.prefix_append _ _

namespace Tiled

variable (tiled : d.Tiled)

include tiled

/-- What renews the flash sectors under a sector lies in it. -/
theorem inside_of_mem_renewals {sector : Nat}
    (mem : i ∈ d.flash.renewals (sector * d.flashSectors) d.flashSectors) {address : Nat}
    (found : (l.request i).address = some address) :
    sector * d.sectorSize ≤ address ∧ address < (sector + 1) * d.sectorSize := by
  have pos := d.flash.options.eraseUnit.size_pos
  obtain ⟨k, lt, mem⟩ := List.mem_flatMap.mp mem
  have here : d.flash.InSector (sector * d.flashSectors + k) address := by
    obtain rfl | mem := List.mem_cons.mp mem
    · cases found
      exact ⟨Nat.le_refl _, by rw [Nat.succ_mul]; omega⟩
    · obtain ⟨_, rfl, inside⟩ := Driver.inSector_of_mem_sectorReads (Nat.le_refl _) mem
      cases found
      exact inside 0 d.flash.compareBuffer.size_pos
  have base : (sector * d.flashSectors + k) * d.flash.options.eraseUnit.size =
      sector * d.sectorSize + k * d.flash.options.eraseUnit.size := by
    rw [Nat.add_mul, Nat.mul_assoc, tiled.whole]
  have last : (k + 1) * d.flash.options.eraseUnit.size ≤ d.sectorSize := by
    rw [← tiled.whole]
    exact Nat.mul_le_mul_right _ (List.mem_range.mp lt)
  obtain ⟨le, lt⟩ := here
  rw [Nat.succ_mul] at last lt ⊢
  omega

/-- Every instruction of a cycle lies in the sector of that. -/
theorem address_div {sector : Nat} (length : data.length ≤ d.sectorSize)
    (mem : i ∈ d.cycle sector data) {address : Nat} (found : (l.request i).address = some address) :
    address / d.sectorSize = sector := by
  suffices inside : sector * d.sectorSize ≤ address ∧ address < (sector + 1) * d.sectorSize from
    Nat.div_eq_of_lt_le inside.1 inside.2
  rcases List.mem_append.mp mem with mem | mem
  · exact tiled.inside_of_mem_renewals mem found
  · obtain ⟨j, lt, rfl⟩ := List.mem_map.mp mem
    have lt : j < data.length / pageSize := List.mem_range.mp lt
    cases found
    unfold pageSize at lt ⊢
    rw [Nat.succ_mul]
    omega

/-- When an instruction of the cycles is next, all sectors in front of its own are done, and all of
its own that is to be renewed, if it is a page program. -/
theorem done_of_next {done todo : List Instruction}
    (split : d.cycles start data count = done ++ i :: todo) {address : Nat}
    (found : (l.request i).address = some address) :
    (∀ k, start + k < address / d.sectorSize →
      ∀ i' ∈ d.cycle (start + k) (d.sectorData data k), i' ∈ done) ∧
    ((∃ page, i = .programPage address page) → ∀ i' ∈ d.flash.renewals
      (address / d.sectorSize * d.flashSectors) d.flashSectors, i' ∈ done) := by
  have sector {k : Nat} (mem : i ∈ d.cycle (start + k) (d.sectorData data k)) :
      address / d.sectorSize = start + k :=
    tiled.address_div (d.length_sectorData_le data k) mem found
  have mem : i ∈ d.cycles start data count := split ▸ List.mem_append_right _ List.mem_cons_self
  obtain ⟨m, lt, mem⟩ := List.mem_flatMap.mp mem
  have own := sector mem
  have earlier : i ∉ d.cycles start data m := by
    intro mem
    obtain ⟨k, lt, mem⟩ := List.mem_flatMap.mp mem
    have lt : k < m := List.mem_range.mp lt
    have own' := sector mem
    omega
  have lt : m < count := List.mem_range.mp lt
  refine ⟨fun k below i' mem' => ?_, ?_⟩
  · refine (done_of_front split (cycles_front (Nat.le_of_lt lt)) earlier).subset ?_
    exact List.mem_flatMap.mpr ⟨k, List.mem_range.mpr (by omega), mem'⟩
  · rintro ⟨page, rfl⟩ i' mem'
    rw [own] at mem'
    refine (done_of_front split (cycles_renewals_front lt) fun mem => ?_).subset
      (List.mem_append_right _ mem')
    rcases List.mem_append.mp mem with mem | mem
    · exact earlier mem
    · exact (Driver.works_of_mem_renewals mem).2 _ _ rfl

end Tiled

end Disk

/-! ### Opcodes -/

/-- The opcode with which an instruction goes out. -/
def Link.opcodeOf (l : Link) (i : Instruction) : UInt8 :=
  (l.request i).opcode

theorem Link.opcodes_range (l : Link) {f : Nat → Instruction} {count : Nat} (opcode : UInt8)
    (same : ∀ k, l.opcodeOf (f k) = opcode) :
    ((List.range count).map f).map l.opcodeOf = List.replicate count opcode := by
  have constant : ∀ k ∈ List.range count, (l.opcodeOf ∘ f) k = opcode := fun k _ => same k
  rw [List.map_map, List.map_eq_replicate_iff.mpr constant, List.length_range]

/-- The opcodes with which a flash sector is erased and read back. -/
def Driver.renewalOpcodes (d : Driver) (l : Link) : List UInt8 :=
  d.options.eraseUnit.opcode.byte ::
    List.replicate (d.options.eraseUnit.size / d.compareBuffer.size) l.readOpcode.byte

/-- The opcodes with which a logical sector is replaced: so many flash sectors are renewed, and so
many pages are programmed. -/
def Disk.cycleOpcodes (d : Disk) (l : Link) : List UInt8 :=
  (List.replicate (d.sectorSize / d.flash.options.eraseUnit.size)
      (d.flash.renewalOpcodes l)).flatten ++
    List.replicate (d.sectorSize / pageSize) l.programOpcode.byte

theorem Driver.opcodes_renewals (d : Driver) (l : Link) (first count : Nat) :
    (d.renewals first count).map l.opcodeOf =
      (List.replicate count (d.renewalOpcodes l)).flatten := by
  induction count generalizing first with
  | zero => rfl
  | succ count ih =>
    have here : (d.renewal first).map l.opcodeOf = d.renewalOpcodes l := by
      rw [renewal, List.map_cons, sectorReads, chunkReads, l.opcodes_range l.readOpcode.byte]
      · rfl
      · exact fun _ => rfl
    rw [renewals_succ, List.map_append, here, ih, List.replicate_succ, List.flatten_cons]

theorem opcodes_pagePrograms (l : Link) (offset : Nat) (data : Bytes) :
    (pagePrograms offset data).map l.opcodeOf =
      List.replicate (data.length / pageSize) l.programOpcode.byte := by
  rw [pagePrograms, l.opcodes_range l.programOpcode.byte]
  exact fun _ => rfl

namespace Disk.Tiled

variable {d : Disk}

theorem opcodes_cycle (tiled : d.Tiled) (l : Link) (sector : Nat) {data : Bytes}
    (length : data.length = d.sectorSize) :
    (d.cycle sector data).map l.opcodeOf = d.cycleOpcodes l := by
  have perSector : d.sectorSize / d.flash.options.eraseUnit.size = d.flashSectors := by
    rw [← tiled.whole, Nat.mul_div_cancel _ d.flash.options.eraseUnit.size_pos]
  rw [cycle, List.map_append, Driver.opcodes_renewals, opcodes_pagePrograms, cycleOpcodes, length,
    perSector]

theorem opcodes_cycles (tiled : d.Tiled) (l : Link) (start count : Nat) {data : Bytes}
    (length : data.length = count * d.sectorSize) :
    (d.cycles start data count).map l.opcodeOf =
      (List.replicate count (d.cycleOpcodes l)).flatten := by
  induction count generalizing start data with
  | zero => rfl
  | succ count ih =>
    rw [Nat.succ_mul] at length
    have first : (data.take d.sectorSize).length = d.sectorSize := by
      rw [List.length_take]
      omega
    have rest : (data.drop d.sectorSize).length = count * d.sectorSize := by
      rw [List.length_drop]
      omega
    rw [cycles_succ, List.map_append, tiled.opcodes_cycle l start first, ih _ rest,
      List.replicate_succ, List.flatten_cons]

end Disk.Tiled

/-! ### Sessions -/

namespace Session

variable {s s' : Session} {d : Disk} {start : Nat} {data : Bytes} {result : Except DiskError Nat}

/-- A disk is cut into whole flash sectors in every state. -/
theorem Reached.cut (reached : s.Reached) (found : s.device.disk? = some d) : d.Cut := by
  have recognises := (reached.recognised.driver _ (Device.driver?_of_disk? found)).2
  obtain ⟨pos, whole⟩ := Disk.whole_of_fits recognises.sectorSize (reached.fitted.format d found)
  refine ⟨recognises.suits, fun some_bytes => ?_, pos, whole⟩
  rcases recognises.layout with unknown | ⟨size, -, layout⟩
  · rw [unknown] at some_bytes
    exact absurd some_bytes (Nat.lt_irrefl 0)
  · rw [layout]
    exact Layout.erasedValue_tile _ _

/-- A ready disk is tiled in every state. -/
theorem Reached.tiled (reached : s.Reached) (found : s.device.disk? = some d)
    (ready : d.flash.state = .ready) : d.Tiled := by
  have recognises := (reached.recognised.driver _ (Device.driver?_of_disk? found)).2
  obtain ⟨size, -, layout⟩ := recognises.sized (.inl ready)
  have cut := reached.cut found
  have erased : d.flash.layout.erasedValue = erasedByte := by
    rw [layout]
    exact Layout.erasedValue_tile _ _
  exact ⟨ready, cut.suits, erased, cut.pos, cut.whole⟩

/-- The order of a disk write, in what goes out and what the chip logs. -/
structure WritesInOrder (s : Session) (d : Disk) (start : Nat) (data : Bytes)
    (result : Except DiskError Nat) (s' : Session) : Prop where
  /-- Without write enables and looks at the status, the opcodes that the chip logs are a front of
  those of the cycles. -/
  logged : ∃ log, s'.bench.chip.opcodeLog.toList = s.bench.chip.opcodeLog.toList ++ log ∧
    log.filter opcodeWorks <+:
      (List.replicate (data.length / d.sectorSize) (d.cycleOpcodes s.bench.link)).flatten ∧
    ∀ n, result = .ok n → n = data.length / d.sectorSize ∧
      log.filter opcodeWorks = (List.replicate n (d.cycleOpcodes s.bench.link)).flatten
  /-- So are the requests, with their addresses and data. -/
  sent : workRequests (s.diskEvents (.write start data)) <+:
    (d.cycles start data (data.length / d.sectorSize)).map s.bench.link.request
  /-- A write that succeeds has gone through all of its cycles. -/
  whole : ∀ n, result = .ok n →
    workRequests (s.diskEvents (.write start data)) =
      (d.cycles start data n).map s.bench.link.request ∧
    ∀ i ∈ d.cycles start data n, i.Finished s.bench.link (s.diskEvents (.write start data))
  /-- Nothing with an address in a sector goes out before the sectors in front of it are done. -/
  inTurn : ∀ before request reply after address,
    s.diskEvents (.write start data) = before ++ .exchanged request reply :: after →
    request.address = some address → ∀ k, start + k < address / d.sectorSize →
      ∀ i ∈ d.cycle (start + k) (d.sectorData data k), i.Finished s.bench.link before
  /-- Nothing is programmed before every flash sector under its sector has been erased and read
  back. -/
  renewed : ∀ before address page reply after, s.diskEvents (.write start data) =
      before ++ .exchanged (s.bench.link.request (.programPage address page)) reply :: after →
    ∀ i ∈ d.flash.renewals (address / d.sectorSize * d.flashSectors) d.flashSectors,
      i.Finished s.bench.link before
  /-- Nothing is sent behind an exchange that fails, or a chunk that is not erased. -/
  failed : ∀ before i reply after, s.diskEvents (.write start data) =
      before ++ .exchanged (s.bench.link.request i) reply :: after →
    i.fails reply = true → requestsSent after = []
  /-- Nothing is sent behind a wait that has taken too long. -/
  timedOut : ∀ before i reply looks after, s.diskEvents (.write start data) =
      before ++ .exchanged (s.bench.link.request i) reply :: (looks ++ after) →
    Agenda.patience d.flash.options i = some looks.length →
    (∀ e ∈ looks, e.Shows s.bench.link true) → requestsSent after = []

/-- What the chip logs of an operation of the disk. -/
theorem exists_log (s : Session) (operation : DiskOperation) : ∃ log,
    (s.step (.disk operation)).2.bench.chip.opcodeLog.toList =
      s.bench.chip.opcodeLog.toList ++ log ∧
    log.filter opcodeWorks = (workRequests (s.diskEvents operation)).map Request.opcode := by
  have logged := logs_disk Chip.logs_opcodes s operation
  rw [← Event.opcode?_eq] at logged
  exact ⟨_, logged, filter_opcodeWorks _⟩

/-- An operation of the disk goes along the agenda of what it does. -/
theorem follow_does {α : Type} {op : DiskM α} {wrap : Except DiskError α → DiskOutcome}
    {operation : DiskOperation} {steps : List Instruction} {a : α}
    (found : s.device.disk? = some d) (runs : operation.run = wrap <$> ExceptT.run op)
    (does : op.Does s.bench.link d.flash.options d steps a) : ∃ result s' k',
      s.step (.disk operation) = (.disk (wrap result), s') ∧
      (s.diskEvents operation).foldlM (Agenda.next s.bench.link d.flash.options)
        ⟨steps, none⟩ = some k' ∧
      ∀ a', result = .ok a' → a' = a ∧ k' = ⟨[], none⟩ := by
  have tracks := does []
  rw [List.append_nil] at tracks
  have wrapped : (operation.run.run d).Tracks s.bench.link
      (passPauses (Agenda.next s.bench.link d.flash.options))
      (fun p k => ∃ result, p.1 = wrap result ∧ ∀ a', result = .ok a' → a' = a ∧ k = ⟨[], none⟩)
      ⟨steps, none⟩ := by
    rw [runs, DiskOperation.run_wrap, Script.tracks_bind]
    refine Script.Tracks.mono tracks ?_
    rintro ⟨e | a', d'⟩ k ended
    · exact ⟨_, rfl, nofun⟩
    · obtain ⟨rfl, -, rfl⟩ := ended
      exact ⟨_, rfl, fun a'' same => by cases same; exact ⟨rfl, rfl⟩⟩
  obtain ⟨k', followed, result, outcome, ended⟩ := wrapped.exchanges rfl
  refine ⟨result, _, k', by rw [step_disk_eq found, outcome], ?_, ended⟩
  simp only [diskEvents, found, List.foldlM_append, followed]
  rfl

/-- In every state that any actions lead to, and whatever the chip replies: a disk write that is
admitted replaces its sectors one by one, each by erasing and reading back all flash sectors under
it and then programming its pages, and does nothing behind the first failure. -/
theorem disk_write_order (reached : s.Reached) (found : s.device.disk? = some d)
    (ready : d.flash.state = .ready) (covers : d.Covers start data.length) : ∃ result s',
      s.step (.disk (.write start data)) = (.disk (.write result), s') ∧
      s.WritesInOrder d start data result s' := by
  have tiled := reached.tiled found ready
  obtain ⟨result, s', k', step, followed, ended⟩ :=
    follow_does found (show DiskOperation.run (.write start data) = _ from rfl)
      (tiled.does_write covers)
  have works : ∀ i ∈ d.cycles start data (data.length / d.sectorSize), i.Works :=
    fun i mem => Disk.works_of_mem_cycles mem
  obtain ⟨done, split, sent, finished⟩ := Agenda.follow_front works followed
  simp only at split
  have all (n : Nat) (ok : result = .ok n) : n = data.length / d.sectorSize ∧
      done = d.cycles start data n ∧ k'.polls = none := by
    obtain ⟨rfl, rfl⟩ := ended n ok
    exact ⟨rfl, by rw [split, List.append_nil], rfl⟩
  have opcodes : (d.cycles start data (data.length / d.sectorSize)).map s.bench.link.opcodeOf =
      (List.replicate (data.length / d.sectorSize) (d.cycleOpcodes s.bench.link)).flatten :=
    tiled.opcodes_cycles _ _ _ (Nat.div_mul_cancel covers.1).symm
  refine ⟨result, s', step, ?_⟩
  exact {
    logged := by
      obtain ⟨log, logged, worked⟩ := s.exists_log (.write start data)
      rw [step] at logged
      rw [sent, List.map_map] at worked
      refine ⟨log, logged, ?_, fun n ok => ?_⟩
      · rw [worked, ← opcodes, split, List.map_append]
        exact List.prefix_append _ _
      · obtain ⟨rfl, rfl, -⟩ := all n ok
        exact ⟨rfl, worked.trans opcodes⟩
    sent := by
      rw [sent, split, List.map_append]
      exact List.prefix_append _ _
    whole := fun n ok => by
      obtain ⟨-, rfl, idle⟩ := all n ok
      exact ⟨sent, finished idle⟩
    inTurn := fun before request reply after address events found k below i mem => by
      obtain ⟨i', done, todo, rfl, split, finished, -⟩ :=
        Agenda.follow_next works found (events ▸ followed)
      exact finished i ((tiled.done_of_next split found).1 k below i mem)
    renewed := fun before address page reply after events i mem => by
      have mine : (Instruction.programPage address page).Works := trivial
      obtain ⟨done, todo, split, finished, -⟩ :=
        Agenda.follow_works works mine (events ▸ followed)
      exact finished i ((tiled.done_of_next (l := s.bench.link) split rfl).2 ⟨page, rfl⟩ i mem)
    failed := fun before i reply after events fails =>
      Agenda.follow_fails works (events ▸ followed) fails
    timedOut := fun before i reply looks after events patient busy =>
      Agenda.follow_timeout works (events ▸ followed) patient busy }

/-- Zeros written to the first two sectors of a fresh disk go out in two cycles, each of an erase,
the reads of 128 chunks and 16 page programs. -/
theorem fresh_write_in_order : ∃ d s' log, freshDisk.device.disk? = some d ∧
    freshDisk.step (.disk (.write 0 (List.replicate 8192 0))) = (.disk (.write (.ok 2)), s') ∧
    freshDisk.WritesInOrder d 0 (List.replicate 8192 0) (.ok 2) s' ∧
    s'.bench.chip.opcodeLog.toList = freshDisk.bench.chip.opcodeLog.toList ++ log ∧
    log.filter opcodeWorks = (List.replicate 2
      (0x20 :: (List.replicate 128 0x03 ++ List.replicate 16 0x02))).flatten := by
  have reached : freshDisk.Reached := ⟨_, _, _, _, _, rfl⟩
  have reachable : freshDisk.Reachable Setting.LeavesQuad := reachable_freshDisk
  have settled : freshDisk.Settled True := reachable.settled fun _ _ leaves => leaves
  have prompt : freshDisk.bench.chip.Prompt .standard :=
    ⟨rfl, rfl, rfl, rfl, by decide, by decide⟩
  obtain ⟨d, found, ready, options, size, count, opcodes⟩ : ∃ d,
      freshDisk.device.disk? = some d ∧ d.flash.state = .ready ∧ d.flash.options = .standard ∧
      d.sectorSize = 4096 ∧ d.sectorCount = 256 ∧ d.cycleOpcodes freshDisk.bench.link =
        0x20 :: (List.replicate 128 0x03 ++ List.replicate 16 0x02) :=
    ⟨_, rfl, rfl, rfl, rfl, rfl, rfl⟩
  have covers : d.Covers 0 (List.replicate 8192 (0 : UInt8)).length := by
    rw [Disk.Covers, List.length_replicate, size, count]
    decide
  have span : d.span? 0 (List.replicate 8192 (0 : UInt8)).length = some 2 := by
    rw [Disk.span?_eq_ite (reached.tiled found ready).suits, if_pos covers, List.length_replicate,
      size]
  obtain ⟨s', written⟩ :=
    disk_write_succeeds settled found ready rfl (options ▸ prompt) rfl span
  obtain ⟨result, s'', step, order⟩ := disk_write_order reached found ready covers
  cases written.symm.trans step
  obtain ⟨log, logged, -, whole⟩ := order.logged
  refine ⟨d, s', log, found, written, order, logged, ?_⟩
  rw [← opcodes]
  exact (whole 2 rfl).2

end Session

end SerialFlash
