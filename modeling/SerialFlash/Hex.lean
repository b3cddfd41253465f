/-! Hexadecimal text of numbers and bytes. -/

namespace SerialFlash.Hex

/-- Lower-case digits of `n`, without padding. -/
def ofNat (n : Nat) : String :=
  String.ofList (Nat.toDigits 16 n)

/-- Two lower-case digits. -/
def ofByte (b : UInt8) : String :=
  String.ofList [Nat.digitChar (b.toNat / 16), Nat.digitChar (b.toNat % 16)]

/-- Two lower-case digits for every byte. -/
def ofBytes (bytes : List UInt8) : String :=
  String.join (bytes.map ofByte)

end SerialFlash.Hex
