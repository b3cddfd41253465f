import SerialFlash.Proofs.EraseChecks
import SerialFlash.Proofs.EraseWaits
import SerialFlash.Proofs.Logs
import SerialFlash.Proofs.PageCuts
import SerialFlash.Proofs.Refusals
import SerialFlash.Proofs.StatusPolls
import SerialFlash.Proofs.Tracking

/-!
The cycle of a disk write. A logical sector is replaced by renewing every flash sector under it,
that is erasing it and reading it back, and then programming its pages in their order; write enables
and looks at the status come in between. An agenda holds what a write still has to do and how long
it may wait. Whatever the chip replies, a write does what is next on its agenda, and when something
has gone wrong it does nothing more.
-/

namespace SerialFlash

open Procedure

/-! ### What a write does -/

/-- Erases a flash sector, and reads it back in chunks. -/
def Driver.renewal (d : Driver) (sector : Nat) : List Instruction :=
  .eraseSector d.options.eraseUnit (sector * d.options.eraseUnit.size) ::
    d.sectorReads sector (d.options.eraseUnit.size / d.compareBuffer.size)

/-- Renews so many flash sectors from one on. -/
def Driver.renewals (d : Driver) (first count : Nat) : List Instruction :=
  (List.range count).flatMap fun k => d.renewal (first + k)

theorem Driver.renewals_succ (d : Driver) (first count : Nat) :
    d.renewals first (count + 1) = d.renewal first ++ d.renewals (first + 1) count := by
  rw [renewals, List.range_succ_eq_map, List.flatMap_cons, List.flatMap_map]
  simp only [Nat.add_zero, renewals, Nat.succ_eq_add_one, Nat.add_comm 1, Nat.add_assoc]

/-- Programs whole pages of data, one after the other. -/
def pagePrograms (offset : Nat) (data : Bytes) : List Instruction :=
  (List.range (data.length / pageSize)).map fun j =>
    .programPage (offset + j * pageSize) ((data.drop (j * pageSize)).take pageSize)

namespace Disk

/-- Replaces a logical sector. -/
def cycle (d : Disk) (sector : Nat) (data : Bytes) : List Instruction :=
  d.flash.renewals (sector * d.flashSectors) d.flashSectors ++
    pagePrograms (sector * d.sectorSize) data

/-- The data of a sector, counted from the first one of a transfer. -/
def sectorData (d : Disk) (data : Bytes) (k : Nat) : Bytes :=
  (data.drop (k * d.sectorSize)).take d.sectorSize

/-- Replaces so many logical sectors from one on. -/
def cycles (d : Disk) (start : Nat) (data : Bytes) (count : Nat) : List Instruction :=
  (List.range count).flatMap fun k => d.cycle (start + k) (d.sectorData data k)

theorem cycles_succ (d : Disk) (start : Nat) (data : Bytes) (count : Nat) :
    d.cycles start data (count + 1) =
      d.cycle start (data.take d.sectorSize) ++
        d.cycles (start + 1) (data.drop d.sectorSize) count := by
  rw [cycles, List.range_succ_eq_map, List.flatMap_cons, List.flatMap_map]
  simp only [Nat.add_zero, cycles, sectorData, Nat.succ_eq_add_one, Nat.add_comm 1, Nat.add_assoc,
    Nat.zero_mul, List.drop_zero, List.drop_drop, Nat.add_mul, Nat.one_mul,
    Nat.add_comm d.sectorSize]

end Disk

/-- The page program of a piece. -/
def Piece.instruction (p : Piece) : Instruction :=
  .programPage p.address p.data

/-- The instructions that a cycle is made of. -/
def Instruction.Works : Instruction → Prop
  | eraseSector _ _ | readArray _ _ | programPage _ _ => True
  | _ => False

/-- An instruction has gone wrong: the chip was not reached, or a chunk that was read back is not
erased. -/
def Instruction.fails : Instruction → Reply → Bool
  | _, .error _ => true
  | readArray _ _, .ok reply => reply.any (· != erasedByte)
  | _, .ok _ => false

/-! ### Agendas -/

/-- Where a write stands. -/
structure Agenda where
  /-- What it still has to do. -/
  todo : List Instruction
  /-- How often it may yet look at the status, if it waits for the chip. One that has broken off
  has no looks left. -/
  polls : Option Nat

namespace Agenda

/-- How often the status is looked at, at most, behind an instruction that the chip works on. -/
def patience (options : DriverOptions) : Instruction → Option Nat
  | .eraseSector _ _ => some (options.eraseTimeout + 1)
  | .programPage _ _ => some options.maxPolls
  | _ => none

/-- The looks at the status that may follow an instruction. -/
def pollsFor (options : DriverOptions) (i : Instruction) (reply : Reply) : Option Nat :=
  if i.fails reply then some 0 else patience options i

/-- The looks that are left behind one that was not the last. -/
def pollsLeft (polls : Nat) (reply : Reply) : Option Nat :=
  match reply with
  | .error _ => some 0
  | .ok bytes => if (StatusRegister.ofReply bytes).isBusy then some polls else none

/-- The agenda after an event that is in order. -/
def next (l : Link) (options : DriverOptions) (k : Agenda) : Event → Option Agenda
  | .returned _ => some k
  | .exchanged request reply =>
      if request = l.request .readStatus1 then
        match k.polls with
        | none => some { k with polls := pollsFor options .readStatus1 reply }
        | some 0 => none
        | some (polls + 1) => some { k with polls := pollsLeft polls reply }
      else if k.polls.isSome then none
      else if request = l.request .writeEnable then
        some { k with polls := pollsFor options .writeEnable reply }
      else
        match k.todo with
        | i :: todo =>
            if request = l.request i then some ⟨todo, pollsFor options i reply⟩ else none
        | [] => none

variable {l : Link} {options : DriverOptions} {todo : List Instruction} {i : Instruction}

/-- The requests of a cycle have an address, those in between have none. -/
theorem address_request (works : i.Works) : ∃ address, (l.request i).address = some address := by
  cases i <;> first | exact ⟨_, rfl⟩ | exact works.elim

theorem next_readStatus1 (reply : Reply) :
    next l options ⟨todo, none⟩ (.exchanged (l.request .readStatus1) reply) =
      some ⟨todo, pollsFor options .readStatus1 reply⟩ := by
  rw [next, if_pos rfl]

theorem next_poll (polls : Nat) (reply : Reply) :
    next l options ⟨todo, some (polls + 1)⟩ (.exchanged (l.request .readStatus1) reply) =
      some ⟨todo, pollsLeft polls reply⟩ := by
  rw [next, if_pos rfl]

theorem next_writeEnable (reply : Reply) :
    next l options ⟨todo, none⟩ (.exchanged (l.request .writeEnable) reply) =
      some ⟨todo, pollsFor options .writeEnable reply⟩ := by
  have other : l.request .writeEnable ≠ l.request .readStatus1 := nofun
  rw [next, if_neg other, if_neg (by simp), if_pos rfl]

theorem next_todo (works : i.Works) (reply : Reply) :
    next l options ⟨i :: todo, none⟩ (.exchanged (l.request i) reply) =
      some ⟨todo, pollsFor options i reply⟩ := by
  obtain ⟨address, found⟩ := address_request (l := l) works
  have notRead : l.request i ≠ l.request .readStatus1 := by
    intro same
    rw [same] at found
    nomatch found
  have notEnable : l.request i ≠ l.request .writeEnable := by
    intro same
    rw [same] at found
    nomatch found
  simp only [next, notRead, notEnable, if_false, if_true, Option.isSome_none,
    Bool.false_eq_true]

end Agenda

/-! ### Operations that keep to the agenda -/

namespace Procedure

variable {σ ε α β : Type} {l : Link} {options : DriverOptions} {s : σ} {op : Procedure σ ε α}
  {steps steps' : List Instruction} {a : α} {b : β}

/-- Whatever the chip replies, the operation does these steps of an agenda, gives back the value and
leaves the state as it was, or it fails on the way. -/
def Does (op : Procedure σ ε α) (l : Link) (options : DriverOptions) (s : σ)
    (steps : List Instruction) (a : α) : Prop :=
  ∀ rest, op.Tracks l (passPauses (Agenda.next l options)) s ⟨steps ++ rest, none⟩
    (fun a' s' k => a' = a ∧ s' = s ∧ k = ⟨rest, none⟩) fun _ _ _ => True

theorem Does.pure (a : α) : (Pure.pure a : Procedure σ ε α).Does l options s [] a :=
  fun _ => ⟨rfl, rfl, rfl⟩

theorem Does.bind {f : α → Procedure σ ε β} (first : op.Does l options s steps a)
    (rest : (f a).Does l options s steps' b) :
    (op >>= f).Does l options s (steps ++ steps') b := by
  intro later
  rw [List.append_assoc, tracks_bind]
  refine (first (steps' ++ later)).mono ?_ fun _ _ _ _ => trivial
  rintro _ _ _ ⟨rfl, rfl, rfl⟩
  exact rest later

end Procedure

namespace Driver

variable {l : Link} {options : DriverOptions} {d : Driver} {todo : List Instruction}

/-- A look at the status that ends the wait, or is followed by more. -/
theorem tracks_look {ended : Except (DriverError BusError) Unit × Driver → Agenda → Prop}
    {more : Script (Except (DriverError BusError) Unit × Driver)} {polls : Nat}
    (good : ended (.ok (), d) ⟨todo, none⟩) (bad : ∀ e k, ended (.error e, d) k)
    (goesOn : more.Tracks l (passPauses (Agenda.next l options)) ended ⟨todo, some polls⟩) :
    (Script.send .readStatus1 fun reply =>
      if endsWait reply then .done (waitAnswer reply, d) else more).Tracks l
        (passPauses (Agenda.next l options)) ended ⟨todo, some (polls + 1)⟩ := by
  intro reply
  refine ⟨_, Agenda.next_poll _ _, ?_⟩
  cases reply with
  | error e => exact bad _ _
  | ok bytes =>
    have shown : endsWait (.ok bytes) = !(StatusRegister.ofReply bytes).isBusy := rfl
    simp only [Agenda.pollsLeft, shown]
    cases (StatusRegister.ofReply bytes).isBusy with
    | true => exact goesOn
    | false => exact good

/-- A wait behind a page program ends in time, or the operation does. -/
theorem tracks_awaitIdleWithin_polls (options' : DriverOptions) (polls : Nat) :
    (awaitIdleWithin options' polls).Tracks l (passPauses (Agenda.next l options)) d
      ⟨todo, some polls⟩ (fun _ d' k => d' = d ∧ k = ⟨todo, none⟩) fun _ _ _ => True := by
  unfold Tracks
  induction polls with
  | zero => trivial
  | succ polls ih =>
    rw [script_awaitIdleWithin_succ]
    have look := tracks_look ⟨rfl, rfl⟩ (fun _ _ => trivial) ih
    cases options'.pauses with
    | true => exact ⟨_, rfl, look⟩
    | false => exact look

/-- An instruction that is next on the agenda, behind its write enable. -/
theorem tracks_enabled_todo {i : Instruction} (works : i.Works)
    {good : Bytes → Driver → Agenda → Prop} {bad : DriverError BusError → Driver → Agenda → Prop}
    (unheard : ∀ e k, bad e d k)
    (sent : ∀ reply, good reply d ⟨todo, Agenda.pollsFor options i (.ok reply)⟩) :
    writeEnable.Tracks l (passPauses (Agenda.next l options)) d ⟨i :: todo, none⟩
      (fun _ d k => (ask i).Tracks l (passPauses (Agenda.next l options)) d k good bad) bad := by
  simp only [writeEnable, tracks_bind, tracks_ask, tracks_pure]
  exact ⟨fun _ => ⟨_, Agenda.next_writeEnable _, fun reply => ⟨_, Agenda.next_todo works _, sent _⟩,
    fun _ => ⟨_, Agenda.next_todo works _, unheard _ _⟩⟩,
    fun _ => ⟨_, Agenda.next_writeEnable _, unheard _ _⟩⟩

/-- A page is programmed and waited for. -/
theorem tracks_programPiece (p : Piece) :
    (programPiece p).Tracks l (passPauses (Agenda.next l d.options)) d ⟨p.instruction :: todo, none⟩
      (fun _ d' k => d' = d ∧ k = ⟨todo, none⟩) fun _ _ _ => True := by
  simp only [programPiece, tracks_bind]
  refine tracks_enabled_todo (i := p.instruction) trivial (fun _ _ => trivial) fun reply => ?_
  rw [awaitIdle, tracks_bind, tracks_get]
  exact tracks_awaitIdleWithin_polls _ _

theorem does_programPieces (done : Nat) (pieces : List Piece) :
    (programPieces done pieces).Does l d.options d (pieces.map Piece.instruction) () := by
  induction pieces generalizing done with
  | nil => exact .pure ()
  | cons p rest ih =>
    intro todo
    rw [programPieces, tracks_bind, tracks_tryCatch]
    refine (tracks_programPiece p).mono ?_ ?_
    · rintro _ _ _ ⟨rfl, rfl⟩
      exact ih _ todo
    · intro e d' k _
      rw [tracks_throw]
      trivial

/-- A wait for an erase ends in time, or the operation does. -/
theorem tracks_finishWithin_polls (erasing : d.state = .erasing) (remaining : Nat) :
    (finishWithin remaining).Tracks l (passPauses (Agenda.next l options)) d
      ⟨todo, some (remaining + 1)⟩
      (fun _ d' k => d' = { d with state := .ready } ∧ k = ⟨todo, none⟩) fun _ _ _ => True := by
  unfold Tracks
  induction remaining with
  | zero =>
    rw [script_finishWithin erasing]
    exact tracks_look ⟨rfl, rfl⟩ (fun _ _ => trivial) trivial
  | succ remaining ih =>
    rw [script_finishWithin erasing]
    exact tracks_look ⟨rfl, rfl⟩ (fun _ _ => trivial) ⟨_, rfl, ih⟩

/-- Whole pages of data are programmed page by page. -/
theorem map_splitPages {offset : Nat} {data : Bytes} (bound : offset + data.length < Word32.limit)
    (aligned : pageSize ∣ offset) (whole : pageSize ∣ data.length) :
    (splitPages offset data).map Piece.instruction = pagePrograms offset data := by
  obtain ⟨first, rfl⟩ := aligned
  obtain ⟨pages, length⟩ := whole
  have cut (j : Nat) (le : j ≤ pages) :
      pageCut (pageSize * first) data.length j = j * pageSize := by
    rw [pageCut, length]
    unfold pageSize
    omega
  have count : pageCount (pageSize * first) data.length = data.length / pageSize := by
    rw [pageCount, length]
    unfold pageSize
    split <;> omega
  have number : data.length / pageSize = pages := by
    rw [length, Nat.mul_div_cancel_left _ pageSize_pos]
  rw [splitPages_eq_chunks bound, count, List.map_map, pagePrograms]
  refine List.map_congr_left fun j mem => ?_
  have lt : j < pages := number ▸ List.mem_range.mp mem
  simp only [Function.comp_apply, Piece.instruction, pageChunk, cut j (Nat.le_of_lt lt),
    cut (j + 1) lt, List.drop_take, Nat.succ_mul, Nat.add_sub_cancel_left]

theorem does_program {offset : Nat} {data : Bytes} (ready : d.state = .ready)
    (covered : d.layout.covers offset data.length = true)
    (bound : offset + data.length < Word32.limit) (aligned : pageSize ∣ offset)
    (whole : pageSize ∣ data.length) :
    (program offset data).Does l d.options d (pagePrograms offset data) () := by
  intro todo
  simp only [program, tracks_bind, tracks_guardReady, tracks_get, tracks_ite, tracks_throw,
    tracks_setState, tracks_resting, covered, ready]
  refine ⟨fun _ => ⟨fun _ => ?_, fun _ => trivial⟩, fun _ => trivial⟩
  rw [← map_splitPages bound aligned whole]
  refine (does_programPieces (d := { d with state := .programming }) 0 _ todo).mono ?_
    fun _ _ _ _ => trivial
  rintro _ _ _ ⟨-, rfl, rfl⟩
  exact ⟨trivial, by rw [← ready], rfl⟩

/-- Chunks that are read back as erased are read one after the other. -/
theorem does_checkFrom {step chunks offset : Nat}
    (word : offset + chunks * step < Word32.limit) :
    (checkFrom erasedByte step chunks offset).Does l options d (chunkReads step offset chunks)
      () := by
  induction chunks generalizing offset with
  | zero => exact .pure ()
  | succ chunks ih =>
    rw [Nat.succ_mul] at word
    intro todo
    have works : (Instruction.readArray offset step).Works := trivial
    rw [chunkReads_succ, checkFrom, tracks_bind, tracks_ask]
    refine ⟨fun reply => ⟨_, Agenda.next_todo works _, ?_⟩,
      fun e => ⟨_, Agenda.next_todo works _, trivial⟩⟩
    split
    · trivial
    · next clean =>
      have passes : (Instruction.readArray offset step).fails (.ok reply) = false := by
        rw [Instruction.fails, ← List.findIdx?_isSome, clean]
        rfl
      have onwards : Agenda.pollsFor options (.readArray offset step) (.ok reply) = none := by
        rw [Agenda.pollsFor, passes]
        rfl
      have next : Word32.satAdd offset step = offset + step := Word32.satAdd_of_lt (by omega)
      rw [onwards, next]
      exact ih (by omega) todo

theorem does_checkRange (erased : d.layout.erasedValue = erasedByte) {start chunks : Nat}
    (word : start + chunks * d.compareBuffer.size < Word32.limit) :
    (checkRange start (chunks * d.compareBuffer.size)).Does l options d
      (chunkReads d.compareBuffer.size start chunks) () := by
  intro todo
  unfold Tracks
  rw [script_checkRange erased word]
  exact does_checkFrom word todo

section

variable (suits : d.layout.Suits d.options.eraseUnit)

include suits

/-- A flash sector is read back. -/
theorem does_checkErased (erased : d.layout.erasedValue = erasedByte) (ready : d.state = .ready)
    {sector : Nat} (inside : sector < d.layout.sectorCount) :
    (checkErased sector).Does l d.options d
      (d.sectorReads sector (d.options.eraseUnit.size / d.compareBuffer.size)) () := by
  obtain ⟨chunks, whole⟩ := d.exists_chunks d.options.eraseUnit
  have count : d.options.eraseUnit.size / d.compareBuffer.size = chunks := by
    rw [← whole, Nat.mul_div_cancel _ d.compareBuffer.size_pos]
  have word : sector * d.options.eraseUnit.size + chunks * d.compareBuffer.size <
      Word32.limit := by
    refine Nat.lt_of_le_of_lt ?_ suits.size_lt_limit
    rw [whole, suits.size, ← Nat.succ_mul]
    exact Nat.mul_le_mul_right _ inside
  have checked : (checkRange (sector * d.options.eraseUnit.size)
      (chunks * d.compareBuffer.size)).Does l d.options { d with state := .reading }
        (d.sectorReads sector chunks) () :=
    does_checkRange (d := { d with state := .reading }) erased word
  rw [whole] at checked
  intro todo
  simp only [checkErased, tracks_bind, tracks_guardReady, sectorStart, tracks_get,
    suits.sectorStart?_eq inside, tracks_pure, tracks_setState, tracks_resting, count,
    suits.sectorSize]
  refine ⟨fun _ => (checked todo).mono ?_ fun _ _ _ _ => trivial, absurd ready⟩
  rintro _ _ _ ⟨-, rfl, rfl⟩
  exact ⟨trivial, by rw [← ready], rfl⟩

/-- An erase is begun and waited for. -/
theorem does_eraseToEnd (ready : d.state = .ready) {sector : Nat}
    (inside : sector < d.layout.sectorCount) :
    (do
      beginEraseSector sector
      finishErase : FlashM Unit).Does l d.options d
        [.eraseSector d.options.eraseUnit (sector * d.options.eraseUnit.size)] () := by
  intro todo
  simp only [beginEraseSector, beginErase, sectorStart, tracks_bind, tracks_guardReady, tracks_get,
    suits.sectorStart?_eq inside, tracks_pure, tracks_setState]
  refine ⟨fun _ => ⟨fun _ => ?_, absurd ready⟩, absurd ready⟩
  refine tracks_enabled_todo (i := .eraseSector _ _) trivial (fun _ _ => trivial) fun reply => ?_
  rw [finishErase, tracks_bind, tracks_get]
  refine (tracks_finishWithin_polls rfl _).mono ?_ fun _ _ _ _ => trivial
  rintro _ _ _ ⟨rfl, rfl⟩
  exact ⟨trivial, by rw [← ready], rfl⟩

/-- Flash sectors are renewed one after the other. -/
theorem does_eraseRun (erased : d.layout.erasedValue = erasedByte) (ready : d.state = .ready)
    {count sector : Nat} (inside : sector + count ≤ d.layout.sectorCount) :
    (Disk.eraseRun true count sector).Does l d.options d (d.renewals sector count) () := by
  induction count generalizing sector with
  | zero => exact .pure ()
  | succ count ih =>
    have here : sector < d.layout.sectorCount := by omega
    have onwards : (do
        checkErased sector
        Disk.eraseRun true count (sector + 1) : FlashM Unit).Does l d.options d
          (d.sectorReads sector (d.options.eraseUnit.size / d.compareBuffer.size) ++
            d.renewals (sector + 1) count) () :=
      (does_checkErased suits erased ready here).bind (ih (by omega))
    have renewed : ((do
        beginEraseSector sector
        finishErase : FlashM Unit) >>= fun _ => do
          checkErased sector
          Disk.eraseRun true count (sector + 1)).Does l d.options d
            (d.renewals sector (count + 1)) () := by
      rw [d.renewals_succ]
      exact (does_eraseToEnd suits ready here).bind onwards
    rwa [bind_assoc] at renewed

variable {perSector sector : Nat}

/-- What is done under a logical sector is what the run of erases does. -/
theorem does_eraseUnder (pos : 0 < perSector)
    (inside : (sector + 1) * perSector ≤ d.layout.sectorCount) {verify : Bool}
    {steps : List Instruction}
    (run : (Disk.eraseRun verify perSector (sector * perSector)).Does l d.options d steps ()) :
    (Disk.eraseUnder perSector sector verify).Does l d.options d steps
      (sector * perSector * d.options.eraseUnit.size) := by
  rw [Nat.succ_mul] at inside
  have start : (sectorStart (sector * perSector)).Does l d.options d []
      (sector * perSector * d.options.eraseUnit.size) := by
    have found := suits.sectorStart?_eq (show sector * perSector < d.layout.sectorCount by omega)
    intro todo
    simp only [sectorStart, tracks_bind, tracks_get, found]
    exact ⟨rfl, rfl, rfl⟩
  have done := run.bind (f := fun _ => sectorStart (sector * perSector)) start
  rw [List.append_nil] at done
  rw [Disk.eraseUnder_eq suits inside]
  exact done

/-- A logical sector is renewed and then programmed. -/
theorem does_replaceSector (erased : d.layout.erasedValue = erasedByte) (ready : d.state = .ready)
    (pos : 0 < perSector) (inside : (sector + 1) * perSector ≤ d.layout.sectorCount)
    {data : Bytes} (whole : data.length = perSector * d.options.eraseUnit.size) :
    (Disk.replaceSector perSector sector data).Does l d.options d
      (d.renewals (sector * perSector) perSector ++
        pagePrograms (sector * data.length) data) () := by
  have pages : pageSize ∣ data.length := by
    rw [whole]
    exact Nat.dvd_mul_left_of_dvd (by cases d.options.eraseUnit <;> decide) perSector
  have start : sector * perSector * d.options.eraseUnit.size = sector * data.length := by
    rw [whole, Nat.mul_assoc]
  have bound : sector * data.length + data.length ≤ d.layout.size := by
    rw [← Nat.succ_mul, whole, ← Nat.mul_assoc, suits.size]
    exact Nat.mul_le_mul_right _ inside
  have word : sector * data.length + data.length < Word32.limit :=
    Nat.lt_of_le_of_lt bound suits.size_lt_limit
  have covered : d.layout.covers (sector * data.length) data.length = true := by
    simp only [Layout.covers, Word32.add?, word, if_true, bound, decide_true, Bool.and_true]
    exact decide_eq_true (by omega)
  have renewed : (Disk.eraseRun true perSector (sector * perSector)).Does l d.options d
      (d.renewals (sector * perSector) perSector) () :=
    does_eraseRun suits erased ready (by rwa [← Nat.succ_mul])
  refine (does_eraseUnder suits pos inside renewed).bind ?_
  rw [start]
  exact does_program ready covered word (Nat.dvd_mul_left_of_dvd pages sector) pages

end

end Driver

namespace Disk

variable {α β : Type} {l : Link} {options : DriverOptions} {d : Disk} {start count : Nat}
  {data : Bytes}

/-- The rule for an operation of the flash whose failure ends that of the disk. -/
theorem does_onFlash_bind {op : FlashM α} {f : Except (DriverError BusError) α → DiskM β}
    {steps steps' : List Instruction} {a : α} {b : β}
    (first : op.Does l options d.flash steps a) (rest : (f (.ok a)).Does l options d steps' b)
    (failed : ∀ e, ∃ e', f (.error e) = throw e') :
    (liftM (onFlash op) >>= f).Does l options d (steps ++ steps') b := by
  intro todo
  rw [List.append_assoc, tracks_bind, Driver.tracks_onFlash]
  refine (first (steps' ++ todo)).mono ?_ fun e _ _ _ => ?_
  · rintro _ _ _ ⟨rfl, rfl, rfl⟩
    exact rest todo
  · obtain ⟨e', ended⟩ := failed e
    rw [ended, tracks_throw]
    trivial

/-- The look at the protection bits is on no agenda, and what it refuses is not begun. -/
theorem does_guardWritable_bind {f : Unit → DiskM β} {steps : List Instruction} {a : β}
    (rest : (f ()).Does l options d steps a) :
    (guardWritable >>= f).Does l options d steps a := by
  intro todo
  unfold Tracks
  rw [script_guardWritable_bind]
  intro reply
  refine ⟨_, Agenda.next_readStatus1 reply, ?_⟩
  cases reply with
  | error e => trivial
  | ok bytes =>
    by_cases clear : (StatusRegister.ofReply bytes).protection = 0
    · simp only [writableAnswer, clear, if_true, follow_ok]
      exact rest todo
    · simp only [writableAnswer, clear, if_false, follow_error]
      trivial

/-- The device is divided into erase units, of which a logical sector is a whole number. -/
structure Cut (d : Disk) : Prop where
  suits : d.flash.layout.Suits d.flash.options.eraseUnit
  erased : 0 < d.flash.layout.size → d.flash.layout.erasedValue = erasedByte
  pos : 0 < d.sectorSize
  whole : d.flashSectors * d.flash.options.eraseUnit.size = d.sectorSize

theorem Cut.flashSectors_pos (cut : d.Cut) : 0 < d.flashSectors :=
  Nat.pos_of_mul_pos_right (cut.whole ▸ cut.pos)

/-- The flash sectors under a sector of the disk are sectors of the device. -/
theorem Cut.flashSectors_le (cut : d.Cut) {sector : Nat} (inside : sector < d.sectorCount) :
    (sector + 1) * d.flashSectors ≤ d.flash.layout.sectorCount := by
  refine Nat.le_of_mul_le_mul_right ?_ d.flash.options.eraseUnit.size_pos
  rw [Nat.mul_assoc, cut.whole, ← cut.suits.size]
  exact mul_sectorSize_le inside

/-- The disk is ready, and its device is divided into erase units of which a logical sector is a
whole number. -/
structure Tiled (d : Disk) : Prop where
  ready : d.flash.state = .ready
  suits : d.flash.layout.Suits d.flash.options.eraseUnit
  erased : d.flash.layout.erasedValue = erasedByte
  pos : 0 < d.sectorSize
  whole : d.flashSectors * d.flash.options.eraseUnit.size = d.sectorSize

namespace Tiled

variable (tiled : d.Tiled)

include tiled

theorem cut : d.Cut :=
  ⟨tiled.suits, fun _ => tiled.erased, tiled.pos, tiled.whole⟩

theorem flashSectors_pos : 0 < d.flashSectors :=
  tiled.cut.flashSectors_pos

theorem flashSectors_le {sector : Nat} (inside : sector < d.sectorCount) :
    (sector + 1) * d.flashSectors ≤ d.flash.layout.sectorCount :=
  tiled.cut.flashSectors_le inside

/-- Logical sectors are replaced one after the other. -/
theorem does_writeFrom (completed : Nat) {sector : Nat} (inside : sector + count ≤ d.sectorCount)
    (length : data.length = count * d.sectorSize) :
    (writeFrom completed count sector data).Does l d.flash.options d (d.cycles sector data count)
      () := by
  induction count generalizing completed sector data with
  | zero => exact .pure ()
  | succ count ih =>
    rw [Nat.succ_mul] at length
    have chunk : (data.take d.sectorSize).length = d.sectorSize := by
      rw [List.length_take]
      omega
    have replaced := Driver.does_replaceSector (l := l) tiled.suits tiled.erased tiled.ready
      tiled.flashSectors_pos (tiled.flashSectors_le (show sector < d.sectorCount by omega))
      (chunk.trans tiled.whole.symm)
    rw [chunk] at replaced
    have onwards := ih (completed + 1) (show sector + 1 + count ≤ d.sectorCount by omega)
      (show (data.drop d.sectorSize).length = count * d.sectorSize by
        rw [List.length_drop]
        omega)
    rw [cycles_succ]
    intro todo
    rw [writeFrom, tracks_bind, tracks_get]
    exact does_onFlash_bind replaced onwards (fun e => ⟨_, rfl⟩) todo

/-- A write that is admitted goes through its cycles. -/
theorem does_write (covers : d.Covers start data.length) :
    (write start data).Does l d.flash.options d
      (d.cycles start data (data.length / d.sectorSize)) (data.length / d.sectorSize) := by
  have written : (do
      writeFrom 0 (data.length / d.sectorSize) start data
      return data.length / d.sectorSize : DiskM Nat).Does l d.flash.options d
        (d.cycles start data (data.length / d.sectorSize)) (data.length / d.sectorSize) := by
    have done := (tiled.does_writeFrom (l := l) 0 covers.2
      (Nat.div_mul_cancel covers.1).symm).bind (f := fun _ => Pure.pure (data.length /
        d.sectorSize)) (.pure _)
    rwa [List.append_nil] at done
  intro todo
  unfold Tracks
  rw [write, script_guardReady_bind, if_pos tiled.ready, script_guardSpan_bind tiled.suits,
    if_pos covers]
  exact does_guardWritable_bind written todo

end Tiled

end Disk

end SerialFlash
