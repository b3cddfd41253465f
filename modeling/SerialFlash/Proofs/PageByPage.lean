import SerialFlash.Proofs.PageCuts
import SerialFlash.Proofs.Polling
import SerialFlash.Proofs.Speech
import SerialFlash.Proofs.Traces

/-!
Programming page by page. Each chunk of the data has its own write enable, page program and wait.
On a chip that does what it is told every chunk is programmed before the next one is sent, so a
program that fails has programmed all chunks in front of one, that one as a whole or not at all,
and has not sent anything of the rest. The error tells how many bytes are certain, and a timeout is
told from an error on the bus.
-/

namespace SerialFlash

open Procedure

/-! ### What is said -/

/-- Status reads that have been answered. -/
def Link.polls (l : Link) (replies : List Bytes) : List Event :=
  replies.map fun reply => .exchanged (l.request .readStatus1) (.ok reply)

def Piece.request (p : Piece) (l : Link) : Request :=
  l.request (.programPage p.address p.data)

/-- The polling bound has been used up: behind a page program the status has been read that many
times, and the chip has been busy each time. -/
def Exhausted (l : Link) (bound : Nat) (events : List Event) : Prop :=
  ∃ before p reply replies, events =
      before ++ .exchanged (Piece.request p l) (.ok reply) :: l.polls replies ∧
    replies.length = bound ∧ ∀ reply ∈ replies, (StatusRegister.ofReply reply).isBusy = true

/-- The page programs that have gone out. -/
def programsSent (l : Link) (events : List Event) : List Request :=
  (requestsSent events).filter (·.opcode = l.programOpcode.byte)

section
variable {l : Link} {bound : Nat} {events : List Event}

@[simp] theorem programsSent_nil (l : Link) : programsSent l [] = [] := rfl

@[simp] theorem programsSent_append (l : Link) (events later : List Event) :
    programsSent l (events ++ later) = programsSent l events ++ programsSent l later := by
  rw [programsSent, requestsSent_append, List.filter_append]
  rfl

theorem programsSent_other {request : Request} (other : request.opcode ≠ l.programOpcode.byte)
    (reply : Reply) (later : List Event) :
    programsSent l (.exchanged request reply :: later) = programsSent l later := by
  simp [programsSent, other]

@[simp] theorem programsSent_program (address : Nat) (data : Bytes) (reply : Reply)
    (later : List Event) :
    programsSent l (.exchanged (l.request (.programPage address data)) reply :: later) =
      l.request (.programPage address data) :: programsSent l later := by
  simp [programsSent, Link.request, Request.sendAt]

theorem Link.byte_ne_programOpcode (l : Link) (op : Opcode) (single : op ≠ .pageProgram)
    (quad : op ≠ .quadPageProgram) : op.byte ≠ l.programOpcode.byte := by
  intro same
  have found := Opcode.byte_injective same
  rcases l with _ | _ | ⟨_ | _ | _⟩
  · exact single found
  · exact single found
  · exact single found
  · exact single found
  · exact quad found

@[simp] theorem programsSent_writeEnable (reply : Reply) (later : List Event) :
    programsSent l (.exchanged (l.request .writeEnable) reply :: later) = programsSent l later := by
  refine programsSent_other ?_ reply later
  exact l.byte_ne_programOpcode .writeEnable nofun nofun

@[simp] theorem programsSent_readStatus1 (reply : Reply) (later : List Event) :
    programsSent l (.exchanged (l.request .readStatus1) reply :: later) = programsSent l later := by
  refine programsSent_other ?_ reply later
  exact l.byte_ne_programOpcode .readStatus1 nofun nofun

@[simp] theorem programsSent_polls (replies : List Bytes) :
    programsSent l (l.polls replies) = [] := by
  induction replies with
  | nil => rfl
  | cons reply rest ih => exact (programsSent_readStatus1 _ _).trans ih

theorem Exhausted.after (h : Exhausted l bound events) (before : List Event) :
    Exhausted l bound (before ++ events) := by
  obtain ⟨front, p, reply, replies, rfl, length, busy⟩ := h
  exact ⟨before ++ front, p, reply, replies, (List.append_assoc ..).symm, length, busy⟩

/-- Behind an exhausted wait nothing has gone wrong on the bus. -/
theorem Exhausted.getLast? (h : Exhausted l bound events) :
    ∃ request reply, events.getLast? = some (.exchanged request (.ok reply)) := by
  obtain ⟨before, p, reply, replies, rfl, -⟩ := h
  rcases replies.eq_nil_or_concat with rfl | ⟨front, last, rfl⟩
  · exact ⟨p.request l, reply, by simp [Link.polls]⟩
  · exact ⟨l.request .readStatus1, last, by simp [Link.polls, List.getLast?_cons]⟩

end

/-! ### What is done -/

namespace Bench

/-- The chip does what it is told over the link. -/
structure Works (size : Nat) (b : Bench) : Prop where
  size : b.chip.memory.size = size
  responsive : b.chip.responsive = true
  serves : b.chip.serves b.link = true

/-- The chip has taken page programs with these pieces. -/
structure Took (b : Bench) (pieces : List Piece) (b' : Bench) : Prop where
  link : b'.link = b.link
  memory : b'.chip.memory = b.chip.memory.programPieces pieces
  programs : b'.chip.programs = b.chip.programs + pieces.length

variable {b b' b'' : Bench} {pieces more : List Piece} {size : Nat}

theorem Took.refl (b : Bench) : b.Took [] b :=
  ⟨rfl, rfl, rfl⟩

theorem Took.trans (h : b.Took pieces b') (h' : b'.Took more b'') :
    b.Took (pieces ++ more) b'' where
  link := h'.link.trans h.link
  memory := by
    rw [h'.memory, h.memory, Memory.programPieces, Memory.programPieces, Memory.programPieces,
      List.foldl_append]
  programs := by rw [h'.programs, h.programs, List.length_append, Nat.add_assoc]

theorem Took.of_alike (link : b'.link = b.link) (alike : b.chip.Alike b'.chip) :
    b.Took [] b' := by
  obtain ⟨_, _, _, same, -⟩ := alike
  exact ⟨link, by rw [same]; rfl, by rw [same]; rfl⟩

theorem Took.of_busyFor {reads : Nat} (link : b'.link = b.link)
    (alike : (b.chip.busyFor reads).Alike b'.chip) : b.Took [] b' := by
  obtain ⟨_, _, _, same, -⟩ := alike
  exact ⟨link, by rw [same]; rfl, by rw [same]; rfl⟩

theorem Idles.took (h : b.Idles b') : b.Took [] b' :=
  .of_busyFor h.link h.chip

theorem Idles.works (h : b.Idles b') (same : b.chip.memory.size = size)
    (serves : b.chip.serves b.link = true) : b'.Works size := by
  refine ⟨by rw [h.memory, same], h.responsive, ?_⟩
  obtain ⟨_, _, _, same, -⟩ := h.chip
  rw [same, h.link]
  exact serves

theorem took_writeEnable {b₁ : Bench} (link : b₁.link = b.link)
    (enabled : (b.chip.obey b.link .writeEnable).2.Alike b₁.chip) : b.Took [] b₁ := by
  rw [Chip.obey_writeEnable] at enabled
  by_cases responsive : b.chip.responsive = true
  · rw [if_pos responsive] at enabled
    obtain ⟨_, _, _, same, -⟩ := enabled
    exact ⟨link, by rw [same]; rfl, by rw [same]; rfl⟩
  · rw [if_neg responsive] at enabled
    exact .of_alike link enabled

/-- Behind a write enable the chip takes a page program. -/
theorem Works.took_programPage {b₁ b₂ : Bench} {p : Piece} (h : b.Works size)
    (link₁ : b₁.link = b.link) (enabled : (b.chip.obey b.link .writeEnable).2.Alike b₁.chip)
    (link₂ : b₂.link = b₁.link)
    (obeyed : (b₁.chip.obey b₁.link (.programPage p.address p.data)).2.Alike b₂.chip) :
    b.Took [p] b₂ ∧ b₂.chip.serves b₂.link = true := by
  rw [Chip.obey_writeEnable, if_pos h.responsive] at enabled
  obtain ⟨_, _, _, same₁, -⟩ := enabled
  have ready : (b₁.chip.responsive && b₁.chip.writeEnabled && b₁.chip.serves b₁.link) = true := by
    rw [same₁, link₁]
    exact Bool.and_eq_true_iff.mpr ⟨Bool.and_eq_true_iff.mpr ⟨h.responsive, rfl⟩, h.serves⟩
  rw [Chip.obey_programPage, if_pos ready, same₁] at obeyed
  obtain ⟨_, _, _, same₂, -⟩ := obeyed
  have link : b₂.link = b.link := link₂.trans link₁
  refine ⟨⟨link, by rw [same₂]; rfl, by rw [same₂]; rfl⟩, ?_⟩
  rw [same₂, link]
  exact h.serves

end Bench

/-- How a program of several pieces has been stopped at one of them. The pieces before it have
been sent and taken. It may have been sent, and then may have been taken. The cause is a timeout
behind the last poll, or an error that has come back on the bus. -/
structure Stopped (b : Bench) (bound : Nat) (before : List Piece) (p : Piece)
    (cause : DriverError BusError) (b' : Bench) (events : List Event) : Prop where
  progress : ∃ taken sent, before <+: taken ∧ taken <+: sent ∧ sent <+: before ++ [p] ∧
    b.Took taken b' ∧ programsSent b.link events = sent.map (Piece.request · b.link)
  cause : cause = .timeout ∧ Exhausted b.link bound events ∨
    cause = .bus .injected ∧
      ∃ front request, events = front ++ [.exchanged request (.error .injected)]

namespace Driver

variable {d : Driver} {b : Bench} {size : Nat}

/-! ### Waiting -/

theorem traces_readStatus1 {good : StatusRegister → Driver → Bench → List Event → Prop}
    {bad : DriverError BusError → Driver → Bench → List Event → Prop}
    (unheard : ∀ b', b.Took [] b' → bad (.bus .injected) d b'
      [.exchanged (b.link.request .readStatus1) (.error .injected)])
    (heard : ∀ reply reads b', b'.link = b.link → (b.chip.busyFor reads).Alike b'.chip →
      ((StatusRegister.ofReply reply).isBusy = false → b.Idles b') →
      good (.ofReply reply) d b' (b.link.polls [reply])) :
    readStatus1.Traces d b good bad := by
  rw [readStatus1, traces_bind]
  refine traces_ask (i := .readStatus1) trivial
    (fun b' link _ alike => unheard b' (.of_alike link alike)) fun b' link chip => ?_
  rw [traces_pure]
  rcases b.chip.obey_readStatus1_cases b.link with ⟨set, reads, same⟩ | ⟨awake, free, same⟩
  · refine heard _ reads b' link (same ▸ chip) fun idle => ?_
    rw [set] at idle
    contradiction
  · exact heard _ 0 b' link (same ▸ chip) fun _ => ⟨link, awake, free, same ▸ chip⟩

/-- A wait for the chip sees it idle in the end, or uses the bound up, or fails on the bus. -/
theorem traces_awaitIdleWithin (options : DriverOptions) (bound : Nat) :
    (awaitIdleWithin options bound).Traces d b
      (fun _ d' b' es => d' = d ∧ b.Idles b' ∧ ∃ replies, es = b.link.polls replies)
      fun e d' b' es => d' = d ∧ b.Took [] b' ∧ ∃ replies,
        e = .timeout ∧ es = b.link.polls replies ∧ replies.length = bound ∧
            (∀ reply ∈ replies, (StatusRegister.ofReply reply).isBusy = true) ∨
          e = .bus .injected ∧ es = b.link.polls replies ++
            [.exchanged (b.link.request .readStatus1) (.error .injected)] := by
  induction bound generalizing b with
  | zero => exact ⟨rfl, .refl b, [], .inl ⟨rfl, rfl, rfl, List.forall_mem_nil _⟩⟩
  | succ bound ih =>
    have poll (b : Bench) : (do
        let status ← readStatus1
        if status.isBusy then awaitIdleWithin options bound : FlashM Unit).Traces d b
          (fun _ d' b' es => d' = d ∧ b.Idles b' ∧ ∃ replies, es = b.link.polls replies)
          fun e d' b' es => d' = d ∧ b.Took [] b' ∧ ∃ replies,
            e = .timeout ∧ es = b.link.polls replies ∧ replies.length = bound + 1 ∧
                (∀ reply ∈ replies, (StatusRegister.ofReply reply).isBusy = true) ∨
              e = .bus .injected ∧ es = b.link.polls replies ++
                [.exchanged (b.link.request .readStatus1) (.error .injected)] := by
      rw [traces_bind]
      refine traces_readStatus1 (fun b' took => ⟨rfl, took, [], .inr ⟨rfl, rfl⟩⟩)
        fun reply reads b' link chip idle => ?_
      rw [traces_ite]
      refine ⟨fun busy => ih.mono ?_ ?_, fun free => ⟨rfl, idle (Bool.eq_false_iff.mpr free),
        [reply], rfl⟩⟩
      · rintro _ _ b'' _ ⟨same, idles, replies, rfl⟩
        exact ⟨same, idles.of_poll link chip, reply :: replies, by rw [link]; rfl⟩
      · rintro e _ b'' _ ⟨same, took, replies, ended⟩
        refine ⟨same, (Bench.Took.of_busyFor link chip).trans took, reply :: replies, ?_⟩
        rw [link] at ended
        rcases ended with ⟨timeout, rfl, length, all⟩ | ⟨error, rfl⟩
        · exact .inl ⟨timeout, rfl, congrArg (· + 1) length, List.forall_mem_cons.mpr ⟨busy, all⟩⟩
        · exact .inr ⟨error, rfl⟩
    rw [awaitIdleWithin, traces_ite]
    refine ⟨fun _ => ?_, fun _ => poll b⟩
    rw [traces_bind, traces_sleep]
    refine (poll _).mono ?_ ?_
    · rintro _ _ b' _ ⟨same, idles, said⟩
      exact ⟨same, ⟨idles.link, idles.awake, idles.free, idles.chip⟩, said⟩
    · rintro _ _ b' _ ⟨same, took, said⟩
      exact ⟨same, ⟨took.link, took.memory, took.programs⟩, said⟩

/-! ### One piece -/

/-- A piece is programmed, or has stopped the program. -/
theorem traces_programPiece (works : b.Works size) (small : size ≤ 16777216) {p : Piece}
    (fits : p.Fits size) :
    (programPiece p).Traces d b
      (fun _ d' b' es => d' = d ∧ b'.Works size ∧ b.Took [p] b' ∧
        programsSent b.link es = [p.request b.link])
      fun e d' b' es => d' = d ∧ Stopped b d.options.maxPolls [] p e b' es := by
  have legible : (Instruction.programPage p.address p.data).Fits :=
    ⟨by have := fits.bound; have := List.length_pos_iff.mpr fits.data_ne_nil; omega,
      fits.data_ne_nil⟩
  rw [programPiece, writeEnable]
  simp only [traces_bind, traces_pure]
  refine traces_ask (i := .writeEnable) trivial (fun b₁ link₁ _ alike => ⟨rfl, ?_, ?_⟩)
    fun b₁ link₁ enabled => ?_
  · exact ⟨[], [], List.nil_prefix, List.nil_prefix, List.nil_prefix, .of_alike link₁ alike,
      programsSent_writeEnable _ _⟩
  · exact .inr ⟨rfl, [], _, rfl⟩
  have woken := Bench.took_writeEnable link₁ enabled
  refine traces_ask legible (fun b₂ link₂ _ alike => ⟨rfl, ?_, ?_⟩) fun b₂ link₂ obeyed => ?_
  · refine ⟨[], [p], List.nil_prefix, List.nil_prefix, List.prefix_rfl,
      woken.trans (.of_alike link₂ alike), ?_⟩
    simp [← link₁, Piece.request]
  · exact .inr ⟨rfl, [_], _, rfl⟩
  obtain ⟨took, serves⟩ := works.took_programPage link₁ enabled link₂ obeyed
  have same : b₂.chip.memory.size = size := by
    rw [took.memory]
    exact (Memory.size_program _ _ _).trans works.size
  rw [awaitIdle, traces_bind, traces_get]
  refine (traces_awaitIdleWithin d.options d.options.maxPolls).mono ?_ ?_
  · rintro _ _ b₃ _ ⟨rfl, idles, replies, rfl⟩
    refine ⟨rfl, idles.works same serves, took.trans idles.took, ?_⟩
    simp [took.link, link₁, Piece.request]
  · rintro e _ b₃ _ ⟨rfl, waited, replies, ended⟩
    refine ⟨rfl, ⟨[p], [p], List.nil_prefix, List.prefix_rfl, List.prefix_rfl, took.trans waited,
      ?_⟩, ?_⟩
    · rcases ended with ⟨-, rfl, -⟩ | ⟨-, rfl⟩ <;> simp [took.link, link₁, Piece.request]
    · rcases ended with ⟨timeout, rfl, length, busy⟩ | ⟨error, rfl⟩
      · rw [took.link, link₁]
        exact .inl ⟨timeout, [_], p, _, replies, rfl, length, busy⟩
      · exact .inr ⟨error, [_, _] ++ b₂.link.polls replies, _, rfl⟩

/-! ### All pieces -/

theorem Stopped.after {bound : Nat} {first before : List Piece} {p : Piece}
    {cause : DriverError BusError} {b₁ b' : Bench} {said es : List Event}
    (took : b.Took first b₁)
    (sent : programsSent b.link said = first.map (Piece.request · b.link))
    (h : Stopped b₁ bound before p cause b' es) :
    Stopped b bound (first ++ before) p cause b' (said ++ es) where
  progress := by
    obtain ⟨taken, sent', certain, le, upto, took', sent''⟩ := h.progress
    rw [took.link] at sent''
    refine ⟨first ++ taken, first ++ sent', (List.prefix_append_right_inj first).mpr certain,
      (List.prefix_append_right_inj first).mpr le, ?_, took.trans took', ?_⟩
    · rw [List.append_assoc]
      exact (List.prefix_append_right_inj first).mpr upto
    · rw [programsSent_append, sent, sent'', List.map_append]
  cause := by
    rcases h.cause with ⟨timeout, exhausted⟩ | ⟨error, front, request, rfl⟩
    · rw [took.link] at exhausted
      exact .inl ⟨timeout, exhausted.after said⟩
    · exact .inr ⟨error, said ++ front, request, (List.append_assoc ..).symm⟩

/-- What is reported of a program stopped behind `done` bytes. -/
def stopError (done : Nat) (cause : DriverError BusError) : DriverError BusError :=
  if done = 0 then cause else .interrupted done cause.cause

/-- All pieces are programmed, or one of them has stopped the program. -/
theorem traces_programPieces (works : b.Works size) (small : size ≤ 16777216)
    {pieces : List Piece} (fits : ∀ p ∈ pieces, p.Fits size) (done : Nat) :
    (programPieces done pieces).Traces d b
      (fun _ d' b' es => d' = d ∧ b.Took pieces b' ∧
        programsSent b.link es = pieces.map (Piece.request · b.link))
      fun e d' b' es => d' = d ∧ ∃ before p after cause, pieces = before ++ p :: after ∧
        e = stopError (done + (before.flatMap Piece.data).length) cause ∧
        Stopped b d.options.maxPolls before p cause b' es := by
  induction pieces generalizing d b done with
  | nil => exact ⟨rfl, .refl b, rfl⟩
  | cons p rest ih =>
    rw [programPieces, traces_bind, traces_tryCatch]
    simp only [traces_throw]
    refine (traces_programPiece works small (fits p List.mem_cons_self)).mono ?_ ?_
    · rintro _ _ b₁ said ⟨rfl, works₁, took, sent⟩
      refine (ih works₁ (fun q mem => fits q (List.mem_cons_of_mem _ mem)) _).mono ?_ ?_
      · rintro _ _ b' es ⟨rfl, took', sent'⟩
        rw [took.link] at sent'
        exact ⟨rfl, took.trans took', by rw [programsSent_append, sent, sent']; rfl⟩
      · rintro e _ b' es ⟨rfl, before, q, after, cause, rfl, rfl, stopped⟩
        refine ⟨rfl, p :: before, q, after, cause, rfl, ?_, Stopped.after took sent stopped⟩
        rw [List.flatMap_cons, List.length_append, Nat.add_assoc]
    · rintro e _ b' es ⟨rfl, stopped⟩
      rw [List.append_nil]
      exact ⟨rfl, [], p, rest, e, rfl, rfl, stopped⟩

end Driver

/-! ### A whole program -/

/-- The first `n` chunks of the data have been programmed, and nothing else. -/
structure Bench.Programmed (b : Bench) (offset : Nat) (data : Bytes) (n : Nat) (b' : Bench) :
    Prop where
  memory : b.chip.memory.ProgramsTo offset (data.take (pageCut offset data.length n))
    b'.chip.memory
  programs : b'.chip.programs = b.chip.programs + n

/-- The page programs of the first `n` chunks. -/
def chunkRequests (l : Link) (offset : Nat) (data : Bytes) (n : Nat) : List Request :=
  (List.range n).map fun j => (pageChunk offset data j).request l

theorem Bench.Took.programmed {b b' : Bench} {offset n : Nat} {data : Bytes}
    (bound : offset + data.length ≤ b.chip.memory.size) (le : n ≤ pageCount offset data.length)
    (took : b.Took ((List.range n).map (pageChunk offset data)) b') :
    b.Programmed offset data n b' where
  memory := by
    rw [took.memory]
    exact Memory.programPieces_pageChunk bound le
  programs := by rw [took.programs, List.length_map, List.length_range]

/-- How a program has stopped at its page number `j`. -/
structure StoppedAt (b : Bench) (bound offset : Nat) (data : Bytes) (e : DriverError BusError)
    (state : DriverState) (b' : Bench) (events : List Event) (j : Nat)
    (cause : DriverError BusError) : Prop where
  page : j < pageCount offset data.length
  /-- The first page reports its own error, any other one how much has been programmed. -/
  error : e = if j = 0 then cause else .interrupted (pageCut offset data.length j) cause.cause
  known : cause = .timeout ∨ cause = .bus .injected
  timeout : cause = .timeout ↔ Exhausted b.link bound events
  bus : cause = .bus .injected ↔
    ∃ front request, events = front ++ [.exchanged request (.error .injected)]
  left : state = if cause = .timeout then .failed else .ready
  /-- The chunks before it have been programmed, it has been programmed or not, and nothing behind
  it has been sent. -/
  progress : ∃ taken sent, j ≤ taken ∧ taken ≤ sent ∧ sent ≤ j + 1 ∧
    b.Programmed offset data taken b' ∧
    programsSent b.link events = chunkRequests b.link offset data sent

namespace Stopped

variable {b b' : Bench} {bound offset : Nat} {data : Bytes} {before after : List Piece} {p : Piece}
  {cause : DriverError BusError} {es : List Event}

/-- The cause can be told from what has been said last. -/
theorem cause_iff (h : Stopped b bound before p cause b' es) :
    (cause = .timeout ∨ cause = .bus .injected) ∧
      (cause = .timeout ↔ Exhausted b.link bound es) ∧
      (cause = .bus .injected ↔
        ∃ front request, es = front ++ [.exchanged request (.error .injected)]) := by
  have apart (front : List Event) (request : Request)
      (exhausted : Exhausted b.link bound (front ++ [.exchanged request (.error .injected)])) :
      False := by
    obtain ⟨request', reply, last⟩ := exhausted.getLast?
    rw [List.getLast?_concat] at last
    cases last
  rcases h.cause with ⟨rfl, exhausted⟩ | ⟨rfl, front, request, rfl⟩
  · refine ⟨.inl rfl, iff_of_true rfl exhausted, iff_of_false nofun ?_⟩
    rintro ⟨front, request, rfl⟩
    exact apart front request exhausted
  · exact ⟨.inr rfl, iff_of_false nofun (apart front request),
      iff_of_true rfl ⟨front, request, rfl⟩⟩

/-- A program that has stopped, in terms of the chunks. -/
theorem chunks (inside : offset + data.length ≤ b.chip.memory.size)
    (split : (List.range (pageCount offset data.length)).map (pageChunk offset data) =
      before ++ p :: after)
    (h : Stopped b bound before p cause b' es) :
    ∃ j < pageCount offset data.length,
      (before.flatMap Piece.data).length = pageCut offset data.length j ∧
      ∃ taken sent, j ≤ taken ∧ taken ≤ sent ∧ sent ≤ j + 1 ∧ b.Programmed offset data taken b' ∧
        programsSent b.link es = chunkRequests b.link offset data sent := by
  obtain ⟨taken, sent, certain, le, upto, took, said⟩ := h.progress
  have whole : before ++ [p] <+: (List.range (pageCount offset data.length)).map
      (pageChunk offset data) := ⟨after, by rw [split, List.append_assoc]; rfl⟩
  obtain ⟨-, same⟩ := eq_of_prefix_pageChunk ((List.prefix_append before [p]).trans whole)
  obtain ⟨-, sentSame⟩ := eq_of_prefix_pageChunk (upto.trans whole)
  obtain ⟨shorter, takenSame⟩ := eq_of_prefix_pageChunk (le.trans (upto.trans whole))
  have page : before.length < pageCount offset data.length := by
    have := whole.length_le
    simp only [List.length_append, List.length_singleton, List.length_map,
      List.length_range] at this
    omega
  refine ⟨before.length, page, ?_, taken.length, sent.length, certain.length_le, le.length_le,
    ?_, ?_, ?_⟩
  · calc (before.flatMap Piece.data).length
        = (((List.range before.length).map (pageChunk offset data)).flatMap Piece.data).length :=
          congrArg (fun pieces => (pieces.flatMap Piece.data).length) same
      _ = (data.take (pageCut offset data.length before.length)).length := by
          rw [flatMap_pageChunk (Nat.le_of_lt page)]
      _ = pageCut offset data.length before.length := by
          rw [List.length_take, Nat.min_eq_left (pageCut_le _ _ _)]
  · simpa using upto.length_le
  · refine Bench.Took.programmed inside shorter ?_
    rw [← takenSame]
    exact took
  · calc programsSent b.link es = sent.map (Piece.request · b.link) := said
      _ = ((List.range sent.length).map (pageChunk offset data)).map (Piece.request · b.link) :=
        congrArg (List.map _) sentSame
      _ = chunkRequests b.link offset data sent.length := List.map_map

/-- What the driver reports of it, and is left in. -/
theorem stoppedAt (inside : offset + data.length ≤ b.chip.memory.size)
    (split : (List.range (pageCount offset data.length)).map (pageChunk offset data) =
      before ++ p :: after)
    (h : Stopped b bound before p cause b' es) {e : DriverError BusError}
    {state : DriverState} (reported : e = Driver.stopError (before.flatMap Piece.data).length cause)
    (rest : state = if e.cause = .timeout then .failed else .ready) :
    ∃ j, StoppedAt b bound offset data e state b' es j cause := by
  obtain ⟨known, timeout, bus⟩ := h.cause_iff
  obtain ⟨j, page, done, progress⟩ := h.chunks inside split
  rw [done, Driver.stopError] at reported
  simp only [pageCut_eq_zero_iff page] at reported
  refine ⟨j, page, reported, known, timeout, bus, ?_, progress⟩
  have same : e.cause = cause.cause := by
    rw [reported]
    split <;> rfl
  rw [rest, same]
  rcases known with rfl | rfl <;> rfl

end Stopped

/-- Programming on a chip that does what it is told. -/
theorem FlashOperation.traces_program {d : Driver} {b : Bench} {size offset : Nat} {data : Bytes}
    (ready : d.state = .ready) (works : b.Works size) (small : size ≤ 16777216)
    (covered : d.layout.covers offset data.length = true) (inside : offset + data.length ≤ size) :
    (FlashOperation.program offset data).run.Traces d b
      (fun v d' b' es => v = .nothing ∧ d'.state = .ready ∧
        b.Programmed offset data (pageCount offset data.length) b' ∧
        programsSent b.link es = chunkRequests b.link offset data (pageCount offset data.length))
      fun e d' b' es => ∃ j cause, StoppedAt b d.options.maxPolls offset data e d'.state b' es j
        cause := by
  have inside' : offset + data.length ≤ b.chip.memory.size := works.size.symm ▸ inside
  have word : size < Word32.limit := Nat.lt_of_le_of_lt small (by decide)
  have cut : splitPages offset data = _ := splitPages_eq_chunks (Nat.lt_of_le_of_lt inside word)
  have fits : ∀ p ∈ splitPages offset data, p.Fits size := fun p mem =>
    fits_of_mem_splitPages inside word mem
  rw [run, silent, traces_map, Driver.program, traces_bind, Driver.traces_guardReady]
  refine ⟨fun _ => ?_, fun unready => absurd ready unready⟩
  rw [traces_bind, traces_get, traces_ite]
  refine ⟨fun _ => ?_, fun refused => absurd covered refused⟩
  rw [traces_bind, Driver.traces_setState, Driver.traces_resting]
  refine (Driver.traces_programPieces works small fits 0).mono ?_ ?_
  · rintro _ _ b' es ⟨rfl, took, sent⟩
    rw [cut] at took sent
    exact ⟨rfl, rfl, took.programmed inside' (Nat.le_refl _), sent.trans List.map_map⟩
  · rintro e _ b' es ⟨rfl, before, p, after, cause, split, reported, stopped⟩
    rw [Nat.zero_add] at reported
    rw [cut] at split
    obtain ⟨j, stoppedAt⟩ := stopped.stoppedAt inside' split reported rfl
    exact ⟨j, cause, stoppedAt⟩

namespace Session

variable {s : Session} {d : Driver}

/-- Programming page by page, on an idle chip that is awake and has quad enabled if the link needs
it, whatever it holds, whatever faults are armed and however long is waited. -/
theorem program_page_by_page (id : Identity) (link : Link) (compareBuffer : CompareBuffer)
    (options : DriverOptions) (actions : List Action)
    (reached : s = (create id link compareBuffer options).run actions)
    (found : s.device.driver? = some d) (ready : d.state = .ready)
    (responsive : s.bench.chip.responsive = true)
    (quad : s.bench.link.needsQuad = true → s.bench.chip.quadEnabled = true)
    {offset : Nat} {data : Bytes} (inside : offset + data.length ≤ d.layout.size) :
    CutsPages offset data.length (pageCount offset data.length)
      (pageCut offset data.length) ∧
    ∃ result d' s' es, s.step (.flash (.program offset data)) = (.flash result, s') ∧
      s'.device.driver? = some d' ∧
      s.events (.flash (.program offset data)) = es ++ [.ofResult result] ∧
      ((result = .ok .nothing ∧ d'.state = .ready ∧
          s.bench.Programmed offset data (pageCount offset data.length) s'.bench ∧
          programsSent s.bench.link es =
            chunkRequests s.bench.link offset data (pageCount offset data.length)) ∨
        ∃ e j cause, result = .error e ∧
          StoppedAt s.bench d.options.maxPolls offset data e d'.state s'.bench es j cause) := by
  refine ⟨cutsPages_pageCut offset data.length, ?_⟩
  have recognised : s.Recognised := by
    rw [reached]
    exact (recognised_create id link compareBuffer options).run actions
  have known := (recognised.driver d found).2
  obtain ⟨size, listed, layout⟩ := known.sized (.inl ready)
  obtain ⟨same, -, small⟩ := Driver.Sized.bounds listed layout
  have array : s.bench.chip.memory.size = size := by
    rw [known.identity size listed] at listed
    exact recognised.genuine size listed
  have serves : s.bench.chip.serves s.bench.link = true := by
    cases needs : s.bench.link.needsQuad with
    | false => simp [Chip.serves, needs]
    | true => simp [Chip.serves, quad needs]
  have traced := FlashOperation.traces_program ready ⟨array, responsive, serves⟩ small
    (known.suits.covers_iff.mpr inside) (same ▸ inside)
  have step := step_flash_eq found (.program offset data)
  have said : s.events (.flash (.program offset data)) =
      ((FlashOperation.program offset data).run.script d).exchanges s.bench ++ [.ofResult
        (((FlashOperation.program offset data).run.script d).run s.bench).1.1] := by
    simp only [events, found]
  rcases run : ((FlashOperation.program offset data).run.script d).run s.bench with
    ⟨⟨e | v, d'⟩, b'⟩ <;> rw [run] at step said
  · obtain ⟨j, cause, stopped⟩ := Ensures.of_failed traced run
    exact ⟨_, d', _, _, step, Device.driver?_withDriver found d', said,
      .inr ⟨e, j, cause, rfl, stopped⟩⟩
  · obtain ⟨rfl, state, programmed, sent⟩ := Ensures.of_run traced run
    exact ⟨_, d', _, _, step, Device.driver?_withDriver found d', said,
      .inl ⟨rfl, state, programmed, sent⟩⟩

/-- Three bytes on two pages: the second page program does not get through. -/
theorem second_page_stops : ∃ s d s' es j cause,
    s = (create ⟨0xEF, 0x40, 0x14⟩ (.wide .standard) .standard .standard).run
      [.flash .identify, .configure (.failOpcode 0x32 1)] ∧
    s.device.driver? = some d ∧
    s.step (.flash (.program 0xFE [0x0F, 0xF0, 0x55])) =
      (.flash (.error (.interrupted 2 .bus)), s') ∧
    StoppedAt s.bench 100 0xFE [0x0F, 0xF0, 0x55] (.interrupted 2 .bus) .ready s'.bench es j
      cause := by
  obtain ⟨s, d, reached, found, ready, responsive, quad, size, polls, fails⟩ : ∃ s d,
      s = (create ⟨0xEF, 0x40, 0x14⟩ (.wide .standard) .standard .standard).run
        [.flash .identify, .configure (.failOpcode 0x32 1)] ∧
      s.device.driver? = some d ∧ d.state = .ready ∧ s.bench.chip.responsive = true ∧
      s.bench.chip.quadEnabled = true ∧ d.layout.size = 0x100000 ∧ d.options.maxPolls = 100 ∧
      (((FlashOperation.program 0xFE [0x0F, 0xF0, 0x55]).run.script d).run s.bench).1.1 =
        .error (.interrupted 2 .bus) := by
    have cut : splitPages 0xFE [0x0F, 0xF0, 0x55] = [⟨0xFE, [0x0F, 0xF0]⟩, ⟨0x100, [0x55]⟩] := by
      rw [splitPages_eq_chunks (by decide)]
      rfl
    refine ⟨_, _, rfl, rfl, rfl, rfl, rfl, rfl, rfl, ?_⟩
    rw [FlashOperation.run, Driver.program, cut]
    rfl
  have inside : 0xFE + [(0x0F : UInt8), 0xF0, 0x55].length ≤ d.layout.size := by
    rw [size]
    decide
  obtain ⟨-, result, d', s', es, step, -, -, ended⟩ := program_page_by_page ⟨0xEF, 0x40, 0x14⟩
    (.wide .standard) .standard .standard _ reached found ready responsive (fun _ => quad) inside
  have same := congrArg Prod.fst step
  rw [step_flash_eq found, fails] at same
  injection same with same
  subst same
  rcases ended with ⟨ok, -⟩ | ⟨e, j, cause, failed, stopped⟩
  · cases ok
  injection failed with failed
  subst failed
  have left : d'.state = .ready := by
    refine stopped.left.trans (if_neg ?_)
    rintro rfl
    have error := congrArg DriverError.cause stopped.error
    split at error <;> simp [DriverError.cause] at error
  rw [polls, left] at stopped
  exact ⟨s, d, s', es, j, cause, reached, found, step, stopped⟩

end Session

end SerialFlash
