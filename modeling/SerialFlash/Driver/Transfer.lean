import SerialFlash.Driver.Status
import SerialFlash.Pages

/-!
Reading and programming. Both refuse a range outside the device before anything
is sent. Programming goes page by page, each with its own write enable and
status poll, and stops at the first page that fails.
-/

namespace SerialFlash.Driver

def read (offset length : Nat) : FlashM Bytes := do
  guardReady
  unless (← get).layout.covers offset length do
    throw .outOfBounds
  if length = 0 then
    return []
  setState .reading
  resting (ask (.readArray offset length))

/-- Programs one piece and waits for the chip. -/
def programPiece (p : Piece) : FlashM Unit := do
  writeEnable
  let _ ← ask (.programPage p.address p.data)
  awaitIdle

/-- Programs pieces after `done` bytes have been programmed. Once something is
done, a failure tells how much. -/
def programPieces (done : Nat) : List Piece → FlashM Unit
  | [] => return
  | p :: rest => do
      tryCatch (programPiece p) fun e =>
        throw (if done = 0 then e else .interrupted done e.cause)
      programPieces (done + p.data.length) rest

/-- Programs data at an offset; bits only go to zero. -/
def program (offset : Nat) (data : Bytes) : FlashM Unit := do
  guardReady
  unless (← get).layout.covers offset data.length do
    throw .outOfBounds
  setState .programming
  resting (programPieces 0 (splitPages offset data))

end SerialFlash.Driver
