import SerialFlash.Instruction

/-!
Conversations with a chip. A script sends instructions one at a time, each reply
deciding how it goes on, and pauses in between. A driver operation is a script,
so what it sends can be stated for every reply a chip might give.
-/

namespace SerialFlash

abbrev Reply := Except BusError Bytes

inductive Script (α : Type) where
  | done (value : α)
  | send (instruction : Instruction) (next : Reply → Script α)
  | pause (microseconds : Nat) (next : Script α)

namespace Script

variable {α β γ : Type}

def bind : Script α → (α → Script β) → Script β
  | done value, f => f value
  | send i next, f => send i fun reply => (next reply).bind f
  | pause us next, f => pause us (next.bind f)

instance : Monad Script where
  pure := done
  bind := bind

/-- Sends one instruction and gives back its reply. -/
def ask (i : Instruction) : Script Reply :=
  send i done

def sleep (microseconds : Nat) : Script Unit :=
  pause microseconds (done ())

@[simp] theorem done_bind (value : α) (f : α → Script β) : (done value).bind f = f value := rfl

@[simp] theorem send_bind (i : Instruction) (next : Reply → Script α) (f : α → Script β) :
    (send i next).bind f = send i fun reply => (next reply).bind f := rfl

@[simp] theorem pause_bind (us : Nat) (next : Script α) (f : α → Script β) :
    (pause us next).bind f = pause us (next.bind f) := rfl

@[simp] theorem bind_done (s : Script α) : s.bind done = s := by
  induction s with
  | done value => rfl
  | send i next ih => simp only [bind, ih]
  | pause us next ih => simp only [bind, ih]

@[simp] theorem bind_assoc (s : Script α) (f : α → Script β) (g : β → Script γ) :
    (s.bind f).bind g = s.bind fun a => (f a).bind g := by
  induction s with
  | done value => rfl
  | send i next ih => simp only [bind, ih]
  | pause us next ih => simp only [bind, ih]

instance : LawfulMonad Script :=
  LawfulMonad.mk' Script
    (fun s => bind_done s)
    (fun _ _ => rfl)
    (fun s f g => bind_assoc s f g)

@[simp] theorem pure_eq (value : α) : (pure value : Script α) = done value := rfl

@[simp] theorem bind_eq (s : Script α) (f : α → Script β) : (s >>= f) = s.bind f := rfl

end Script

end SerialFlash
