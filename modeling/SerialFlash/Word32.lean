/-!
Arithmetic of 32-bit words held as natural numbers. Addresses, sizes and
sector numbers stay below `limit`; a sum or product that would leave the range
is refused or clamped, never wrapped.
-/

namespace SerialFlash.Word32

/-- The number of 32-bit words. -/
def limit : Nat := 4294967296

/-- The largest 32-bit word. -/
def max : Nat := 4294967295

/-- The sum, if it is still a word. -/
def add? (a b : Nat) : Option Nat :=
  if a + b < limit then some (a + b) else none

/-- The product, if it is still a word. -/
def mul? (a b : Nat) : Option Nat :=
  if a * b < limit then some (a * b) else none

/-- The sum, clamped to the largest word. -/
def satAdd (a b : Nat) : Nat :=
  Nat.min (a + b) max

theorem add?_eq_some_iff {a b c : Nat} :
    add? a b = some c ↔ a + b < limit ∧ a + b = c := by
  simp [add?]

theorem mul?_eq_some_iff {a b c : Nat} :
    mul? a b = some c ↔ a * b < limit ∧ a * b = c := by
  simp [mul?]

theorem satAdd_of_lt {a b : Nat} (h : a + b < limit) : satAdd a b = a + b := by
  unfold limit at h
  exact Nat.min_eq_left (by unfold max; omega)

end SerialFlash.Word32
