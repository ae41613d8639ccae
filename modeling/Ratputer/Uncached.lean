import Ratputer.Bus

/-!
# A mass-storage device without a cache

What the block cache must not be told apart from: the same class, whose READ(10) takes every block from the card when it sends
it and whose WRITE(10) stores every block when it has it.
-/

namespace Ratputer

namespace Uncached

def readLoop (fin : ℕ) : ℕ → ℕ → ℕ → MscM CommandResult
  | 0, _, residue => pure (residue, .passed)
  | fuel + 1, current, residue =>
    if current < fin then do
      match ← blockRead (← borrow).backend current 1 with
      | none =>
        modifyShared (·.setSense SENSE_MEDIUM_ERROR ASC_UNRECOVERED_READ 0)
        pure (residue, .failed)
      | some blocks =>
        match ← sendBlocks residue blocks with
        | .error residue => pure (residue, .phaseError)
        | .ok residue => readLoop fin fuel (current + 1) residue
    else
      pure (residue, .passed)

def writeLoop (fin : ℕ) : ℕ → ℕ → ℕ → MscM CommandResult
  | 0, _, residue => pure (residue, .passed)
  | fuel + 1, current, residue =>
    if current < fin then do
      match ← readBlocks 1 with
      | .error _ => pure (residue, .phaseError)
      | .ok blocks =>
        if !(← blockWrite (← borrow).backend current blocks) then
          modifyShared (·.setSense SENSE_MEDIUM_ERROR ASC_WRITE_ERROR 0)
          match ← discardOut (residue - BLOCK_LEN) with
          | .error _ => pure (residue, .phaseError)
          | .ok () => pure (residue, .failed)
        else
          writeLoop fin fuel (current + 1) (residue - BLOCK_LEN)
    else
      pure (residue, .passed)

def read10 (cbw : Cbw) : MscM CommandResult :=
  if cbw.direction ≠ .in_ ∨ cbw.transferLen ≠ cbw.blocks * BLOCK_LEN then
    pure (cbw.transferLen, .phaseError)
  else if cbw.blocks = 0 then
    pure (0, .passed)
  else do
    let count := (← borrow).blockCount
    if 2 ^ 32 ≤ cbw.lba + cbw.blocks ∨ cbw.lba + cbw.blocks > count then
      modifyShared (·.setSense SENSE_ILLEGAL_REQUEST ASC_INVALID_FIELD 0)
      pure (cbw.transferLen, .failed)
    else
      readLoop (cbw.lba + cbw.blocks) cbw.blocks cbw.lba cbw.transferLen

def write10 (cbw : Cbw) : MscM CommandResult :=
  if cbw.direction ≠ .out ∨ cbw.transferLen ≠ cbw.blocks * BLOCK_LEN then
    pure (cbw.transferLen, .phaseError)
  else if cbw.blocks = 0 then
    pure (0, .passed)
  else do
    let count := (← borrow).blockCount
    if 2 ^ 32 ≤ cbw.lba + cbw.blocks ∨ cbw.lba + cbw.blocks > count then
      modifyShared (·.setSense SENSE_ILLEGAL_REQUEST ASC_INVALID_FIELD 0)
      match ← discardOut cbw.transferLen with
      | .error _ => pure (cbw.transferLen, .phaseError)
      | .ok () => pure (cbw.transferLen, .failed)
    else
      writeLoop (cbw.lba + cbw.blocks) cbw.blocks cbw.lba cbw.transferLen

def execute (cbw : Cbw) : MscM CommandResult :=
  if cbw.byte 0 = SCSI_READ_10 then read10 cbw
  else if cbw.byte 0 = SCSI_WRITE_10 then write10 cbw
  else executeOther cbw

end Uncached

end Ratputer
