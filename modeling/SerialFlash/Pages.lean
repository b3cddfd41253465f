import SerialFlash.Geometry
import SerialFlash.Request

/-!
Cutting data at page boundaries. Each piece lies in one page, no piece is empty,
and the pieces joined together are the data.
-/

namespace SerialFlash

/-- Data for one page program. -/
structure Piece where
  address : Nat
  data : Bytes
  deriving DecidableEq, Repr

/-- Bytes from an address to the end of its page. -/
def pageRoom (address : Nat) : Nat :=
  pageSize - address % pageSize

theorem pageRoom_pos (address : Nat) : 0 < pageRoom address :=
  Nat.sub_pos_of_lt (Nat.mod_lt _ pageSize_pos)

/-- Cuts data that starts at an address at the page boundaries behind it. -/
def splitPages (address : Nat) (data : Bytes) : List Piece :=
  if data.isEmpty then []
  else
    let piece := data.take (pageRoom address)
    ⟨address, piece⟩ ::
      splitPages (Word32.satAdd address piece.length) (data.drop (pageRoom address))
termination_by data.length
decreasing_by
  have := pageRoom_pos address
  cases data with
  | nil => contradiction
  | cons b bs =>
    rw [List.length_drop, List.length_cons]
    omega

@[simp] theorem splitPages_nil (address : Nat) : splitPages address [] = [] := by
  rw [splitPages]
  rfl

theorem splitPages_cons (address : Nat) (b : UInt8) (bs : Bytes) :
    splitPages address (b :: bs) =
      ⟨address, (b :: bs).take (pageRoom address)⟩ ::
        splitPages (Word32.satAdd address ((b :: bs).take (pageRoom address)).length)
          ((b :: bs).drop (pageRoom address)) := by
  rw [splitPages]
  rfl

end SerialFlash
