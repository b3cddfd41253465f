import SerialFlash.Driver.Status

/-!
Identification. It reads the identity, sets the quad-enable bit where the link
needs it, and derives the geometry. It is also the way back from the failed
state.
-/

namespace SerialFlash.Driver

/-- Sets the quad-enable bit unless it is set already. The two-byte status write
keeps the other bits; the answer is checked afterwards. -/
def ensureQuad : FlashM Unit := do
  let second ← readStatus2
  if second &&& Status2.quadEnable = 0 then
    let first ← readStatus1
    let kept := first.value &&& ~~~(Status1.busy ||| Status1.writeEnableLatch)
    writeEnable
    let _ ← ask (.writeStatus kept (second ||| Status2.quadEnable))
    awaitIdle
    if (← readStatus2) &&& Status2.quadEnable = 0 then
      throw .quadNotLatched

/-- Drops what was known of the chip. -/
def forget (state : DriverState) : FlashM Unit :=
  modify fun d =>
    { d with layout := .unknown d.options.eraseUnit.size, state }

/-- Identifies the chip, in every state but while an erase runs. -/
def identify : FlashM Layout := do
  if (← get).state = .erasing then
    throw (.busy .erasing)
  let id := Identity.ofBytes (← ask .readId)
  modify fun d => { d with identity := id }
  match id.capacity? with
  | none =>
      forget .notReady
      throw (.unknownDevice id)
  | some capacity =>
      if (← get).needsQuad then
        tryCatch ensureQuad fun e => do
          forget (if e.isTimeout then .failed else .notReady)
          throw e
      let layout := Layout.tile capacity (← get).options.eraseUnit.size
      modify fun d => { d with layout, state := .ready }
      return layout

end SerialFlash.Driver
