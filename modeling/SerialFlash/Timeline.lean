import SerialFlash.History

/-!
What a script does in time: the requests that it puts to the chip, with their replies, and the
pauses in between. The requests alone are its exchanges, and the pauses alone are what the clock is
told. A row of status reads is what every wait for the chip looks at.
-/

namespace SerialFlash

inductive Moment where
  | exchanged (request : Request) (reply : Reply)
  | waited (nanoseconds : Nat)

namespace Moment

/-- The exchange, if it is one. -/
def event? : Moment → Option Event
  | exchanged request reply => some (.exchanged request reply)
  | waited _ => none

/-- The length of the pause, if it is one. -/
def pause? : Moment → Option Nat
  | exchanged _ _ => none
  | waited nanoseconds => some nanoseconds

end Moment

namespace Script

variable {α β : Type}

/-- What a script does on a bench, in its order. -/
def timeline : Script α → Bench → List Moment
  | done _, _ => []
  | send i next, b =>
      .exchanged (b.link.request i) (b.send i).1 :: (next (b.send i).1).timeline (b.send i).2
  | pause us next, b => .waited (us * 1000) :: next.timeline (b.wait (us * 1000))

theorem exchanges_eq_events (s : Script α) (b : Bench) :
    s.exchanges b = (s.timeline b).filterMap Moment.event? := by
  induction s generalizing b with
  | done value => rfl
  | send i next ih => exact congrArg (List.cons _) (ih _ _)
  | pause us next ih => exact ih _

/-- The clock counts the pauses. -/
theorem clock_run (s : Script α) (b : Bench) :
    (s.run b).2.clock = ((s.timeline b).filterMap Moment.pause?).foldl Clock.wait b.clock := by
  induction s generalizing b with
  | done value => rfl
  | send i next ih => exact ih _ _
  | pause us next ih => exact ih _

theorem timeline_bind (s : Script α) (f : α → Script β) (b : Bench) :
    (s.bind f).timeline b = s.timeline b ++ (f (s.run b).1).timeline (s.run b).2 := by
  induction s generalizing b with
  | done value => rfl
  | send i next ih => exact congrArg (List.cons _) (ih _ _)
  | pause us next ih => exact congrArg (List.cons _) (ih _)

end Script

/-! ### Status reads in a row -/

/-- A reply behind which a wait for the chip does not go on: an error, or a status without the busy
bit. -/
def endsWait : Reply → Bool
  | .ok reply => !(StatusRegister.ofReply reply).isBusy
  | .error _ => true

/-- The reply number `k` is the first one that ends a wait. -/
def FirstEnd (replies : Nat → Reply) (k : Nat) : Prop :=
  endsWait (replies k) = true ∧ ∀ j < k, endsWait (replies j) = false

namespace FirstEnd

variable {replies : Nat → Reply} {j k limit : Nat}

/-- No two replies are the first one. -/
theorem eq (ends : FirstEnd replies j) (ends' : FirstEnd replies k) : j = k := by
  rcases Nat.lt_trichotomy j k with before | same | behind
  · exact absurd ends.1 (by rw [ends'.2 j before]; nofun)
  · exact same
  · exact absurd ends'.1 (by rw [ends.2 k behind]; nofun)

theorem succ_iff :
    FirstEnd replies (k + 1) ↔
      endsWait (replies 0) = false ∧ FirstEnd (fun n => replies (n + 1)) k := by
  constructor
  · rintro ⟨ended, busy⟩
    exact ⟨busy 0 (Nat.succ_pos k), ended, fun j lt => busy (j + 1) (Nat.succ_lt_succ lt)⟩
  · rintro ⟨first, ended, busy⟩
    refine ⟨ended, fun j lt => ?_⟩
    cases j with
    | zero => exact first
    | succ j => exact busy j (Nat.lt_of_succ_lt_succ lt)

/-- If no reply ends the wait in time, none of them is one that would. -/
theorem all_busy_of_late (late : ∀ k, FirstEnd replies k → limit ≤ k) :
    ∀ k < limit, endsWait (replies k) = false := by
  intro k
  induction k using Nat.strongRecOn with
  | ind k ih =>
    intro lt
    cases ended : endsWait (replies k) with
    | false => rfl
    | true => exact absurd (late k ⟨ended, fun j before => ih j before (by omega)⟩) (by omega)

end FirstEnd

namespace Bench

/-- The bench behind so many status reads. -/
def polled (b : Bench) : Nat → Bench
  | 0 => b
  | n + 1 => (b.send .readStatus1).2.polled n

/-- The reply to the status read that comes behind `n` others. -/
def poll (b : Bench) (n : Nat) : Reply :=
  ((b.polled n).send .readStatus1).1

/-- The replies to the first `n` status reads. -/
def polls (b : Bench) (n : Nat) : List Reply :=
  (List.range n).map b.poll

/-- The status read that comes behind `k` others is the first one that ends a wait. -/
def EndsAt (b : Bench) (k : Nat) : Prop :=
  endsWait (b.poll k) = true ∧ ∀ j < k, endsWait (b.poll j) = false

variable {b : Bench}

theorem polls_succ (b : Bench) (n : Nat) :
    b.polls (n + 1) = b.poll 0 :: (b.send .readStatus1).2.polls n := by
  rw [polls, List.range_succ_eq_map, List.map_cons, List.map_map]
  rfl

/-- A pause changes nothing for the chip. -/
theorem send_wait (b : Bench) (i : Instruction) (ns : Nat) :
    (b.wait ns).send i = ((b.send i).1, (b.send i).2.wait ns) := rfl

theorem polled_wait (b : Bench) (n ns : Nat) : (b.wait ns).polled n = (b.polled n).wait ns := by
  induction n generalizing b with
  | zero => rfl
  | succ n ih => exact ih (b.send .readStatus1).2

theorem poll_wait (b : Bench) (n ns : Nat) : (b.wait ns).poll n = b.poll n := by
  rw [poll, polled_wait, send_wait]
  rfl

/-- No two reads are the first one. -/
theorem EndsAt.eq {j k : Nat} (ends : b.EndsAt j) (ends' : b.EndsAt k) : j = k :=
  FirstEnd.eq ends ends'

theorem endsAt_succ_iff {k : Nat} :
    b.EndsAt (k + 1) ↔ endsWait (b.poll 0) = false ∧ (b.send .readStatus1).2.EndsAt k :=
  FirstEnd.succ_iff

end Bench

end SerialFlash
