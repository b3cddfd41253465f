/-!
FAT timestamps. A packed timestamp holds, from the highest bit down, seven bits
of years since 1980, four of month, five of day, five of hour, six of minute and
five of seconds counted in twos.
-/

namespace SerialFlash

/-- A date and time that a packed timestamp can hold. Days are not checked
against the month. -/
structure Timestamp where
  year : Nat
  month : Nat
  day : Nat
  hour : Nat
  minute : Nat
  second : Nat
  year_range : 1980 ≤ year ∧ year ≤ 2107
  month_range : 1 ≤ month ∧ month ≤ 12
  day_range : 1 ≤ day ∧ day ≤ 31
  hour_lt : hour < 24
  minute_lt : minute < 60
  second_lt : second < 60
  deriving DecidableEq

namespace Timestamp

/-- The fields, the most significant first. -/
def fields (t : Timestamp) : List Nat :=
  [t.year, t.month, t.day, t.hour, t.minute, t.second]

/-- The earliest timestamp. -/
def epoch : Timestamp where
  year := 1980
  month := 1
  day := 1
  hour := 0
  minute := 0
  second := 0
  year_range := by decide
  month_range := by decide
  day_range := by decide
  hour_lt := by decide
  minute_lt := by decide
  second_lt := by decide

/-- A timestamp of these fields, if every one is in range. -/
def create? (year month day hour minute second : Nat) : Option Timestamp :=
  if h : (1980 ≤ year ∧ year ≤ 2107) ∧ (1 ≤ month ∧ month ≤ 12) ∧ (1 ≤ day ∧ day ≤ 31) ∧
      hour < 24 ∧ minute < 60 ∧ second < 60 then
    some ⟨year, month, day, hour, minute, second, h.1, h.2.1, h.2.2.1, h.2.2.2.1, h.2.2.2.2.1,
      h.2.2.2.2.2⟩
  else
    none

/-- The packed form. Odd seconds round down. -/
def pack (t : Timestamp) : UInt32 :=
  UInt32.ofNat ((t.year - 1980) * 33554432 + t.month * 2097152 + t.day * 65536 +
    t.hour * 2048 + t.minute * 32 + t.second / 2)

/-- The field of a packed word that counts `unit`s and stays below `count`. -/
def field (packed : UInt32) (unit count : Nat) : Nat :=
  packed.toNat / unit % count

/-- The timestamp that a word packs, if every field is in range. -/
def unpack? (packed : UInt32) : Option Timestamp :=
  create? (1980 + field packed 33554432 128) (field packed 2097152 16) (field packed 65536 32)
    (field packed 2048 32) (field packed 32 64) (field packed 1 32 * 2)

/-- The packed time of a clock, which may not be set. -/
def packNow (now : Option Timestamp) : UInt32 :=
  (now.getD epoch).pack

end Timestamp

end SerialFlash
