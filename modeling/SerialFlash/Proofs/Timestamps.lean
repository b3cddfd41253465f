import SerialFlash.Timestamp

/-!
Packed timestamps. The six fields of a packed word are its bits, from the years at the top down to
the seconds, which are counted in twos. A timestamp comes back from its packed form with its second
made even. A word with a field out of range is refused, and any other one is the packed form of what
it is read as. Later timestamps have larger packed forms.
-/

namespace SerialFlash.Timestamp

/-- The bits of a word that a mask lets through behind `shift` lower ones. -/
def bits (packed shift mask : UInt32) : Nat :=
  (packed >>> shift &&& mask).toNat

/-- The same timestamp at the even second before. -/
def evened (t : Timestamp) : Timestamp :=
  { t with
    second := t.second / 2 * 2
    second_lt := by have := t.second_lt; omega }

variable {year month day hour minute second : Nat} {t t' : Timestamp} {p : UInt32}

theorem create?_eq_none_iff :
    create? year month day hour minute second = none ↔
      ¬ ((1980 ≤ year ∧ year ≤ 2107) ∧ (1 ≤ month ∧ month ≤ 12) ∧ (1 ≤ day ∧ day ≤ 31) ∧
        hour < 24 ∧ minute < 60 ∧ second < 60) := by
  unfold create?
  split
  · next range => exact iff_of_false nofun (not_not_intro range)
  · next range => exact iff_of_true rfl range

/-- What is accepted has the fields that it was made of, and every timestamp is accepted with its
own. -/
theorem create?_eq_some_iff :
    create? year month day hour minute second = some t ↔
      t.fields = [year, month, day, hour, minute, second] := by
  obtain ⟨_, _, _, _, _, _, years, months, days, hours, minutes, seconds⟩ := t
  simp only [fields, List.cons.injEq, and_true]
  constructor
  · intro accepted
    unfold create? at accepted
    split at accepted
    · cases accepted
      exact ⟨rfl, rfl, rfl, rfl, rfl, rfl⟩
    · contradiction
  · rintro ⟨rfl, rfl, rfl, rfl, rfl, rfl⟩
    exact dif_pos ⟨years, months, days, hours, minutes, seconds⟩

/-! ### Fields -/

/-- A row of bits is a field. -/
theorem bits_eq_field (p : UInt32) {shift mask : UInt32} (width : Nat)
    (ones : mask.toNat = 1 <<< width - 1) :
    bits p shift mask = field p (1 <<< (shift.toNat % 32)) (1 <<< width) := by
  rw [bits, UInt32.toNat_and, UInt32.toNat_shiftRight, ones, Nat.one_shiftLeft, Nat.one_shiftLeft,
    Nat.and_two_pow_sub_one_eq_mod, Nat.shiftRight_eq_div_pow]
  rfl

/-- The fields of a word in its digits. -/
theorem bits_eq_digits (p : UInt32) :
    bits p 25 0x7F = p.toNat / 33554432 % 128 ∧ bits p 21 0x0F = p.toNat / 2097152 % 16 ∧
    bits p 16 0x1F = p.toNat / 65536 % 32 ∧ bits p 11 0x1F = p.toNat / 2048 % 32 ∧
    bits p 5 0x3F = p.toNat / 32 % 64 ∧ bits p 0 0x1F = p.toNat / 1 % 32 :=
  ⟨bits_eq_field p 7 rfl, bits_eq_field p 4 rfl, bits_eq_field p 5 rfl, bits_eq_field p 5 rfl,
    bits_eq_field p 6 rfl, bits_eq_field p 5 rfl⟩

theorem unpack?_eq_bits (p : UInt32) :
    unpack? p = create? (1980 + bits p 25 0x7F) (bits p 21 0x0F) (bits p 16 0x1F) (bits p 11 0x1F)
      (bits p 5 0x3F) (bits p 0 0x1F * 2) := by
  obtain ⟨years, months, days, hours, minutes, seconds⟩ := bits_eq_digits p
  rw [years, months, days, hours, minutes, seconds]
  rfl

theorem toNat_pack (t : Timestamp) :
    t.pack.toNat = (t.year - 1980) * 33554432 + t.month * 2097152 + t.day * 65536 +
      t.hour * 2048 + t.minute * 32 + t.second / 2 := by
  obtain ⟨_, _, _, _, _, _, years, months, days, hours, minutes, seconds⟩ := t
  refine UInt32.toNat_ofNat_of_lt' (Nat.lt_of_lt_of_le ?_ (Nat.le_refl 4294967296))
  simp only
  omega

/-- A field is put before the lower ones. -/
theorem toNat_shiftLeft_or {number below : Nat} {low : UInt32} (shift : UInt32)
    (small : shift.toNat < 32) (lower : low.toNat = below) (below_lt : below < 1 <<< shift.toNat)
    (fits : number * 1 <<< shift.toNat < UInt32.size) :
    (UInt32.ofNat number <<< shift ||| low).toNat = number * 1 <<< shift.toNat + below := by
  rw [Nat.one_shiftLeft] at below_lt fits ⊢
  have word : number < UInt32.size :=
    Nat.lt_of_le_of_lt (Nat.le_mul_of_pos_right _ (Nat.two_pow_pos _)) fits
  rw [UInt32.toNat_or, UInt32.toNat_shiftLeft, UInt32.toNat_ofNat_of_lt' word, lower,
    Nat.mod_eq_of_lt small, Nat.shiftLeft_eq, Nat.mod_eq_of_lt fits, ← Nat.shiftLeft_eq,
    ← Nat.shiftLeft_add_eq_or_of_lt below_lt]

/-- The fields are shifted to their places and put together. -/
theorem pack_eq_or (t : Timestamp) :
    t.pack = (UInt32.ofNat (t.year - 1980) <<< 25 ||| UInt32.ofNat t.month <<< 21 |||
      UInt32.ofNat t.day <<< 16 ||| UInt32.ofNat t.hour <<< 11 ||| UInt32.ofNat t.minute <<< 5 |||
      UInt32.ofNat t.second >>> 1) := by
  have year := t.year_range
  have month := t.month_range
  have day := t.day_range
  have hour := t.hour_lt
  have minute := t.minute_lt
  have second := t.second_lt
  have word : t.second < UInt32.size := Nat.lt_trans second (by decide)
  have seconds : (UInt32.ofNat t.second >>> 1).toNat = t.second / 2 := by
    rw [UInt32.toNat_shiftRight, UInt32.toNat_ofNat_of_lt' word]
    exact Nat.shiftRight_eq_div_pow _ 1
  have minutes := toNat_shiftLeft_or 5 (by decide) seconds
    (show _ < 32 by omega) (show t.minute * 32 < 4294967296 by omega)
  have hours := toNat_shiftLeft_or 11 (by decide) minutes
    (show t.minute * 32 + _ < 2048 by omega) (show t.hour * 2048 < 4294967296 by omega)
  have days := toNat_shiftLeft_or 16 (by decide) hours
    (show t.hour * 2048 + (t.minute * 32 + _) < 65536 by omega)
    (show t.day * 65536 < 4294967296 by omega)
  have months := toNat_shiftLeft_or 21 (by decide) days
    (show t.day * 65536 + (t.hour * 2048 + (t.minute * 32 + _)) < 2097152 by omega)
    (show t.month * 2097152 < 4294967296 by omega)
  have years := toNat_shiftLeft_or 25 (by decide) months
    (show t.month * 2097152 + (t.day * 65536 + (t.hour * 2048 + (t.minute * 32 + _))) < 33554432
      by omega)
    (show (t.year - 1980) * 33554432 < 4294967296 by omega)
  rw [← UInt32.toNat_inj, toNat_pack, UInt32.or_assoc, UInt32.or_assoc, UInt32.or_assoc,
    UInt32.or_assoc, years]
  simp only [Nat.add_assoc]
  rfl

/-- A digit is read off between the higher and the lower ones. -/
theorem digit_eq {number digit unit count : Nat} (high low : Nat)
    (parts : number = (high * count + digit) * unit + low) (small : low < unit)
    (digit_lt : digit < count) : number / unit % count = digit := by
  have pos : 0 < unit := Nat.zero_lt_of_lt small
  rw [parts, Nat.mul_comm, Nat.mul_add_div pos, Nat.div_eq_of_lt small, Nat.add_zero,
    Nat.mul_comm high, Nat.mul_add_mod, Nat.mod_eq_of_lt digit_lt]

/-- Every field of a packed timestamp stays inside its own bits. -/
theorem bits_pack (t : Timestamp) :
    bits t.pack 25 0x7F = t.year - 1980 ∧ bits t.pack 21 0x0F = t.month ∧
    bits t.pack 16 0x1F = t.day ∧ bits t.pack 11 0x1F = t.hour ∧ bits t.pack 5 0x3F = t.minute ∧
    bits t.pack 0 0x1F = t.second / 2 := by
  obtain ⟨years, months, days, hours, minutes, seconds⟩ := bits_eq_digits t.pack
  rw [years, months, days, hours, minutes, seconds, toNat_pack]
  clear years months days hours minutes seconds
  have year := t.year_range
  have month := t.month_range
  have day := t.day_range
  have hour := t.hour_lt
  have minute := t.minute_lt
  have second := t.second_lt
  refine ⟨digit_eq 0 (t.month * 2097152 + t.day * 65536 + t.hour * 2048 + t.minute * 32 +
      t.second / 2) ?_ ?_ ?_,
    digit_eq (t.year - 1980) (t.day * 65536 + t.hour * 2048 + t.minute * 32 + t.second / 2)
      ?_ ?_ ?_,
    digit_eq ((t.year - 1980) * 16 + t.month) (t.hour * 2048 + t.minute * 32 + t.second / 2)
      ?_ ?_ ?_,
    digit_eq (((t.year - 1980) * 16 + t.month) * 32 + t.day) (t.minute * 32 + t.second / 2)
      ?_ ?_ ?_,
    digit_eq ((((t.year - 1980) * 16 + t.month) * 32 + t.day) * 32 + t.hour) (t.second / 2)
      ?_ ?_ ?_,
    digit_eq (((((t.year - 1980) * 16 + t.month) * 32 + t.day) * 32 + t.hour) * 64 + t.minute) 0
      ?_ ?_ ?_⟩ <;> omega

/-- What is left above a digit, and the digit. -/
theorem div_mul_eq (number unit count : Nat) {above : Nat} (next : unit * count = above) :
    number / unit * unit = number / above * above + number / unit % count * unit := by
  subst next
  calc number / unit * unit
      = (number / unit / count * count + number / unit % count) * unit := by
        rw [Nat.div_add_mod']
    _ = number / (unit * count) * (unit * count) + number / unit % count * unit := by
        rw [Nat.add_mul, Nat.mul_assoc, Nat.mul_comm count, Nat.div_div_eq_div_mul]

/-- The fields make up the whole word. -/
theorem toNat_eq_bits (p : UInt32) :
    p.toNat = bits p 25 0x7F * 33554432 + bits p 21 0x0F * 2097152 + bits p 16 0x1F * 65536 +
      bits p 11 0x1F * 2048 + bits p 5 0x3F * 32 + bits p 0 0x1F := by
  obtain ⟨years, months, days, hours, minutes, seconds⟩ := bits_eq_digits p
  have none_above : p.toNat / 4294967296 = 0 := Nat.div_eq_of_lt p.toNat_lt
  rw [years, months, days, hours, minutes, seconds]
  calc p.toNat = p.toNat / 1 * 1 := by rw [Nat.div_one, Nat.mul_one]
    _ = _ := by
      rw [div_mul_eq p.toNat 1 32 rfl, div_mul_eq p.toNat 32 64 rfl, div_mul_eq p.toNat 2048 32 rfl,
        div_mul_eq p.toNat 65536 32 rfl, div_mul_eq p.toNat 2097152 16 rfl,
        div_mul_eq p.toNat 33554432 128 rfl, none_above, Nat.zero_mul, Nat.zero_add, Nat.mul_one]

/-! ### Both ways -/

theorem unpack?_pack (t : Timestamp) : unpack? t.pack = some t.evened := by
  obtain ⟨years, months, days, hours, minutes, seconds⟩ := bits_pack t
  have since : 1980 + (t.year - 1980) = t.year := by have := t.year_range; omega
  rw [unpack?_eq_bits, years, months, days, hours, minutes, seconds, since, create?_eq_some_iff]
  rfl

/-- Years and days that five and seven bits can hold are never too large. -/
theorem unpack?_eq_none_iff :
    unpack? p = none ↔
      bits p 21 0x0F = 0 ∨ 12 < bits p 21 0x0F ∨ bits p 16 0x1F = 0 ∨ 23 < bits p 11 0x1F ∨
        59 < bits p 5 0x3F ∨ 29 < bits p 0 0x1F := by
  obtain ⟨years, -, days, -⟩ := bits_eq_digits p
  have : bits p 25 0x7F < 128 := years ▸ Nat.mod_lt _ (by decide)
  have : bits p 16 0x1F < 32 := days ▸ Nat.mod_lt _ (by decide)
  rw [unpack?_eq_bits, create?_eq_none_iff]
  omega

theorem pack_of_unpack? (read : unpack? p = some t) : t.pack = p := by
  rw [unpack?_eq_bits, create?_eq_some_iff] at read
  simp only [fields, List.cons.injEq, and_true] at read
  obtain ⟨years, months, days, hours, minutes, seconds⟩ := read
  rw [← UInt32.toNat_inj, toNat_pack, toNat_eq_bits p, years, months, days, hours, minutes, seconds,
    Nat.add_sub_cancel_left, Nat.mul_div_cancel _ (by decide)]

/-! ### Order -/

/-- The last bit of the second is not packed. -/
theorem pack_evened (t : Timestamp) : t.evened.pack = t.pack :=
  pack_of_unpack? (unpack?_pack t)

/-- The packed form tells timestamps apart up to the last bit of the second. -/
theorem pack_eq_pack_iff : t.pack = t'.pack ↔ t.evened = t'.evened := by
  constructor
  · intro same
    have read := unpack?_pack t
    rw [same, unpack?_pack] at read
    exact (Option.some.inj read).symm
  · intro same
    rw [← pack_evened t, same, pack_evened]

/-- The first timestamp is not later than the second one: they are the same, or the most significant
field in which they differ is smaller. -/
def NotAfter (t t' : Timestamp) : Prop :=
  t.fields = t'.fields ∨ List.Lex (· < ·) t.fields t'.fields

/-- What is behind a digit is worth less than one more of it. -/
theorem le_of_digits {high high' low low' unit : Nat} (small : low < unit)
    (order : high < high' ∨ high = high' ∧ low ≤ low') :
    high * unit + low ≤ high' * unit + low' := by
  rcases order with less | ⟨rfl, le⟩
  · calc high * unit + low ≤ (high + 1) * unit := by
          rw [Nat.succ_mul]
          exact Nat.add_le_add_left (Nat.le_of_lt small) _
      _ ≤ high' * unit := Nat.mul_le_mul_right _ less
      _ ≤ high' * unit + low' := Nat.le_add_right _ _
  · exact Nat.add_le_add_left le _

/-- A later field can only make a difference where the earlier ones agree. -/
theorem pack_le_pack (earlier : t.NotAfter t') : t.pack ≤ t'.pack := by
  have month := t.month_range
  have day := t.day_range
  have hour := t.hour_lt
  have minute := t.minute_lt
  have second := t.second_lt
  rw [UInt32.le_iff_toNat_le, toNat_pack, toNat_pack]
  simp only [Nat.add_assoc]
  rcases earlier with same | less
  · simp only [fields, List.cons.injEq, and_true] at same
    obtain ⟨years, months, days, hours, minutes, seconds⟩ := same
    exact Nat.le_of_eq (by rw [years, months, days, hours, minutes, seconds])
  · simp only [fields, List.cons_lex_cons_iff, List.not_lex_nil, and_false, or_false] at less
    have epoch := t.year_range.1
    refine le_of_digits (by omega) (less.imp (by omega) (And.imp (congrArg (· - 1980)) ?_))
    intro less
    refine le_of_digits (by omega) (less.imp_right (And.imp_right fun less => ?_))
    refine le_of_digits (by omega) (less.imp_right (And.imp_right fun less => ?_))
    refine le_of_digits (by omega) (less.imp_right (And.imp_right fun less => ?_))
    refine le_of_digits (by omega) (less.imp_right (And.imp_right fun less => ?_))
    exact Nat.div_le_div_right (Nat.le_of_lt less)

/-- Timestamps and words go back and forth without loss, except for the last bit of a second and the
words that no timestamp has, and the order of the words is that of the time. -/
theorem packing_is_faithful :
    (∀ t : Timestamp, unpack? t.pack = some t.evened) ∧
    (∀ p, unpack? p = none ↔
      bits p 21 0x0F = 0 ∨ 12 < bits p 21 0x0F ∨ bits p 16 0x1F = 0 ∨ 23 < bits p 11 0x1F ∨
        59 < bits p 5 0x3F ∨ 29 < bits p 0 0x1F) ∧
    (∀ p t, unpack? p = some t → t.pack = p) ∧
    ∀ t t' : Timestamp, t.NotAfter t' →
      t.pack ≤ t'.pack ∧ (t.pack = t'.pack → t.evened = t'.evened) :=
  ⟨unpack?_pack, fun _ => unpack?_eq_none_iff, fun _ _ => pack_of_unpack?,
    fun _ _ earlier => ⟨pack_le_pack earlier, pack_eq_pack_iff.mp⟩⟩

/-- The last two seconds that can be packed share the largest word that can be read. -/
theorem packing_is_faithful_latest : ∃ t t', create? 2107 12 31 23 59 58 = some t ∧
    create? 2107 12 31 23 59 59 = some t' ∧ unpack? 0xFF9FBF7D = some t ∧
    t.pack = 0xFF9FBF7D ∧ t'.pack = 0xFF9FBF7D ∧ t.pack ≤ t'.pack ∧ t.evened = t'.evened ∧
    unpack? t'.pack = some t'.evened ∧ unpack? 0xFF9FBF7E = none := by
  obtain ⟨back, refused, forth, ordered⟩ := packing_is_faithful
  have read : unpack? 0xFF9FBF7D = create? 2107 12 31 23 59 58 := rfl
  obtain ⟨below, agree⟩ := ordered ⟨2107, 12, 31, 23, 59, 58, by decide, by decide, by decide,
    by decide, by decide, by decide⟩ ⟨2107, 12, 31, 23, 59, 59, by decide, by decide, by decide,
    by decide, by decide, by decide⟩ (.inr (by decide))
  exact ⟨_, _, rfl, rfl, read, forth _ _ read, rfl, below, agree rfl, back _,
    (refused _).mpr (by decide)⟩

end SerialFlash.Timestamp
