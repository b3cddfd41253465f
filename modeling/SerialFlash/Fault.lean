/-!
Armed bus faults. A fault waits for its turn, fires once and is gone.
-/

namespace SerialFlash

/-- Waiting faults: one that counts every transaction, one that counts only
those with its own opcode. -/
structure Faults where
  onAny : Option Nat
  onOpcode : Option (UInt8 × Nat)
  deriving DecidableEq, Repr

namespace Faults

def none : Faults :=
  ⟨Option.none, Option.none⟩

/-- What the opcode fault does at a transaction: whether it fires, and what
remains armed. -/
def countOpcode (opcode : UInt8) : Option (UInt8 × Nat) → Bool × Option (UInt8 × Nat)
  | Option.none => (false, Option.none)
  | some (target, skip) =>
      if target = opcode then
        match skip with
        | 0 => (true, Option.none)
        | n + 1 => (false, some (target, n))
      else
        (false, some (target, skip))

/-- Whether a fault fires at a transaction, and what remains armed. The general
fault goes first; when it fires the other one does not count. -/
def count (f : Faults) (opcode : UInt8) : Bool × Faults :=
  match f.onAny with
  | some 0 => (true, { f with onAny := Option.none })
  | some (n + 1) =>
      let (fires, rest) := countOpcode opcode f.onOpcode
      (fires, ⟨some n, rest⟩)
  | Option.none =>
      let (fires, rest) := countOpcode opcode f.onOpcode
      (fires, ⟨Option.none, rest⟩)

@[simp] theorem count_none (opcode : UInt8) : none.count opcode = (false, none) := rfl

end Faults

end SerialFlash
