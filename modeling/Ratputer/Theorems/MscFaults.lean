import Ratputer.Lemmas.MscFaults

/-!
# READ(10) and WRITE(10) over a backend that fails

What the host learns when the card fails: the residue of a WRITE(10) says which blocks are stored, and a READ(10) is passed
whenever the lines of its blocks can be read.
-/

namespace Ratputer

open Chunks Patch MscAux

variable {D : Type} {dev : BlockDevice D} {image : D → ℕ → Block}

/-! ## WRITE(10) with checked subtraction -/

/-- `u32` subtraction, with nothing where it would underflow. -/
def checkedSub (a b : ℕ) : Option ℕ := if b ≤ a then some (a - b) else none

/-- The loop of `write_10`, ending with nothing where a subtraction from the residue underflows. -/
def write10LoopChecked (fin : ℕ) : ℕ → BlockCache → ℕ → ℕ → MscM (Option (CommandResult × BlockCache))
  | 0, cache, _, residue => pure (some ((residue, .passed), cache))
  | fuel + 1, cache, current, residue =>
    if current < fin then do
      let count := min (fin - current) LINE_BLOCKS
      match ← readBlocks count with
      | .error _ => pure (some ((residue, .phaseError), cache.drop STREAM_LINE))
      | .ok blocks =>
        let cache := cache.stage blocks
        let backend := (← borrow).backend
        let written ← blockWrite backend current ((cache.lines STREAM_LINE).data.take count)
        if !written then
          modifyShared (·.setSense SENSE_MEDIUM_ERROR ASC_WRITE_ERROR 0)
          match checkedSub residue (count * BLOCK_LEN) with
          | none => pure none
          | some remaining =>
            match ← discardOut remaining with
            | .error _ => pure (some ((residue, .phaseError), cache))
            | .ok () => pure (some ((residue, .failed), cache))
        else
          match checkedSub residue (count * BLOCK_LEN) with
          | none => pure none
          | some residue =>
            modifyShared fun s => { s with stats.writeBlocks := (s.stats.writeBlocks + count) % 2 ^ 32 }
            write10LoopChecked fin fuel (cache.updateFromStream current count) (current + count) residue
    else
      pure (some ((residue, .passed), cache))

/-- `write_10` with this loop. -/
def write10Checked (cache : BlockCache) (cbw : Cbw) : MscM (Option (CommandResult × BlockCache)) :=
  if cbw.direction ≠ .out ∨ cbw.transferLen ≠ cbw.blocks * BLOCK_LEN then
    pure (some ((cbw.transferLen, .phaseError), cache))
  else if cbw.blocks = 0 then
    pure (some ((0, .passed), cache))
  else do
    let count := (← borrow).blockCount
    if 2 ^ 32 ≤ cbw.lba + cbw.blocks ∨ cbw.lba + cbw.blocks > count then
      modifyShared (·.setSense SENSE_ILLEGAL_REQUEST ASC_INVALID_FIELD 0)
      match ← discardOut cbw.transferLen with
      | .error _ => pure (some ((cbw.transferLen, .phaseError), cache))
      | .ok () => pure (some ((cbw.transferLen, .failed), cache))
    else
      write10LoopChecked (cbw.lba + cbw.blocks) cbw.blocks cache cbw.lba cbw.transferLen

namespace MscAux

/-- While the residue is what is left to write, no subtraction underflows. -/
theorem write10LoopChecked_eq (fin fuel : ℕ) (cache : BlockCache) (current residue : ℕ)
    (hres : residue = (fin - current) * BLOCK_LEN) :
    write10LoopChecked fin fuel cache current residue = some <$> write10Loop fin fuel cache current residue := by
  induction fuel generalizing cache current residue with
  | zero => rfl
  | succ fuel ih =>
    rw [write10LoopChecked, write10Loop]
    split
    · have hcount : min (fin - current) LINE_BLOCKS ≤ fin - current := Nat.min_le_left ..
      generalize min (fin - current) LINE_BLOCKS = count at *
      have hle : count * BLOCK_LEN ≤ residue := by
        rw [hres]
        exact Nat.mul_le_mul_right _ hcount
      have hsub : checkedSub residue (count * BLOCK_LEN) = some (residue - count * BLOCK_LEN) := if_pos hle
      have hrest : residue - count * BLOCK_LEN = (fin - (current + count)) * BLOCK_LEN := by
        rw [hres, ← Nat.sub_mul, Nat.sub_sub]
      simp only [hsub, map_bind]
      refine bind_congr fun answer => ?_
      rcases answer with e | blocks
      · rfl
      · simp only [map_bind]
        refine bind_congr fun shared => bind_congr fun written => ?_
        cases written with
        | false =>
          simp only [Bool.not_false, if_true, map_bind]
          refine bind_congr fun _ => bind_congr fun answer => ?_
          rcases answer with e | _
          · rfl
          · rfl
        | true =>
          simp only [Bool.not_true, Bool.false_eq_true, if_false, map_bind]
          exact bind_congr fun _ => ih _ _ _ hrest
    · rfl

/-- No subtraction of a WRITE(10) from its residue underflows, whatever its surroundings answer. -/
theorem write10Checked_eq (cache : BlockCache) (cbw : Cbw) : write10Checked cache cbw = some <$> write10 cache cbw := by
  rw [write10Checked, write10]
  split
  · rfl
  · rename_i hmatch
    simp only [not_or, Decidable.not_not] at hmatch
    split
    · rfl
    · simp only [map_bind]
      refine bind_congr fun shared => ?_
      split
      · simp only [map_bind]
        refine bind_congr fun _ => bind_congr fun answer => ?_
        rcases answer with e | _
        · rfl
        · rfl
      · exact write10LoopChecked_eq _ _ _ _ _ (by rw [hmatch.2, Nat.add_sub_cancel_left])

end MscAux

/-! ## The residue of a WRITE(10) -/

/-- A write that fails stores nothing. -/
def FailStoresNothing (dev : BlockDevice D) (image : D → ℕ → Block) : Prop :=
  ∀ card lba blocks, (dev.write card lba blocks).1 = false → image (dev.write card lba blocks).2 = image card

/-- The writes before the one that fails leave what all writes leave, when that one stores nothing. -/
theorem image_after (hfail : FailStoresNothing dev image) {backend : Backend} {l : List (List Block)} {lba : ℕ}
    {stored : Stored D} (h : StoreEnd dev backend l lba stored) : image stored.after = image stored.before := by
  cases h with
  | all => rfl
  | @failed count before after blocks _ _ hcall =>
    rcases backend with _ | context
    · obtain ⟨-, rfl⟩ := Prod.mk.inj hcall
      rfl
    · have hafter := hfail before (lba + count) blocks (congrArg Prod.fst hcall)
      rwa [show dev.write before (lba + count) blocks = (false, after) from hcall] at hafter

/-- A sequence of writes passes exactly when it stores all of its blocks. -/
theorem status_passed_iff {backend : Backend} {l : List (List Block)} {lba : ℕ} {stored : Stored D}
    (hl : ∀ blocks ∈ l, blocks ≠ []) (h : StoreEnd dev backend l lba stored) :
    stored.count ≤ l.flatten.length ∧ (stored.count = l.flatten.length ↔ stored.status = .passed) := by
  cases h with
  | all => exact ⟨le_rfl, by simp [Stored.status]⟩
  | @failed count _ _ blocks hmem hfirst _ =>
    have hpos : 0 < blocks.length := List.length_pos_iff.mpr (hl blocks hmem)
    have hle := hfirst.length_le
    rw [List.length_drop] at hle
    have hlt : count < l.flatten.length := by omega
    simp only [Stored.status, Option.isSome_some, if_true, reduceCtorEq, iff_false]
    exact ⟨hlt.le, hlt.ne⟩

/-- A WRITE(10) whose data the host sends, over a backend whose failing writes store nothing. Inside the card the device reads the
data and no more; with the residue `r` the first `(transferLen - r) / 512` blocks are stored and nothing else is, and `r = 0` exactly
when the command passes. Outside it drains the data, stores nothing and reports all of it. No subtraction from the residue
underflows. -/
theorem write10_residue (law : dev.Lawful image) (hfail : FailStoresNothing dev image) (cls : MscClass) {cbw : Cbw}
    {payload : List UInt8} (rest : List Packet) (b : Bus D) (hop : cbw.byte 0 = SCSI_WRITE_10) (hd : cbw.direction = .out)
    (hlen : cbw.transferLen = cbw.blocks * BLOCK_LEN) (hp : payload.length = cbw.transferLen)
    (hq : b.outQueue = dataPackets payload ++ rest) :
    (cbw.lba + cbw.blocks < 2 ^ 32 ∧ cbw.lba + cbw.blocks ≤ b.shared.blockCount → ∃ r status cls' card' shared',
      Bus.exec dev (cls.execute cbw) b =
        some (((r, status), cls'), { b with card := card', shared := shared', outQueue := rest }) ∧
      r ≤ cbw.transferLen ∧ BLOCK_LEN ∣ r ∧
      image card' = patch (image b.card) cbw.lba ((blocksOf payload).take ((cbw.transferLen - r) / BLOCK_LEN)) ∧
      (r = 0 ↔ status = .passed)) ∧
    (cbw.blocks ≠ 0 ∧ ¬(cbw.lba + cbw.blocks < 2 ^ 32 ∧ cbw.lba + cbw.blocks ≤ b.shared.blockCount) → ∃ cls' shared',
      Bus.exec dev (cls.execute cbw) b =
        some (((cbw.transferLen, .failed), cls'), { b with shared := shared', outQueue := rest })) ∧
    write10Checked (cls.refresh b.shared.generation).cache cbw =
      some <$> write10 (cls.refresh b.shared.generation).cache cbw := by
  have hmatch : ¬(cbw.direction ≠ .out ∨ cbw.transferLen ≠ cbw.blocks * BLOCK_LEN) := by simp [hd, hlen]
  generalize hcache : (cls.refresh b.shared.generation).cache = cache
  refine ⟨?_, ?_, write10Checked_eq _ _⟩
  · rintro ⟨hlt, hle⟩
    by_cases h0 : cbw.blocks = 0
    · rw [exec_execute_write hop, hcache, write10, if_neg hmatch, if_pos h0]
      have hnil : payload = [] := List.length_eq_zero_iff.mp (by rw [hp, hlen, h0, Nat.zero_mul])
      have hq' : b.outQueue = rest := by simpa [hnil, dataPackets] using hq
      refine ⟨0, .passed, _, b.card, b.shared, by rw [← hq']; rfl, Nat.zero_le _, Nat.dvd_zero _, ?_, by simp⟩
      simp [hnil, blocksOf]
    · rw [exec_execute_write_inRange hop ⟨hd, hlen, h0, hlt, hle⟩, hcache]
      have hmoved : cbw.lba + cbw.blocks - cbw.lba = cbw.blocks := Nat.add_sub_cancel_left ..
      have hdata : payload.length = (cbw.lba + cbw.blocks - cbw.lba) * BLOCK_LEN := by rw [hmoved, hp, hlen]
      obtain ⟨cache', stats, sense, hrun, -, -⟩ := exec_write10Loop_cases law (cbw.lba + cbw.blocks) rest cbw.blocks cache
        cbw.lba cbw.transferLen payload b (Nat.le_add_right ..) hmoved.le hdata hp.symm hq
      obtain ⟨himage, -, hend⟩ := storeAll_spec law b.shared.backend (chunks LINE_BLOCKS (blocksOf payload)) cbw.lba b.card
      generalize b.shared.backend.storeAll dev (chunks LINE_BLOCKS (blocksOf payload)) cbw.lba b.card = stored at *
      have hne : ∀ blocks ∈ chunks LINE_BLOCKS (blocksOf payload), blocks ≠ [] := fun blocks hb =>
        List.length_pos_iff.mp (length_of_mem_chunks (by decide) _ blocks hb).1
      obtain ⟨hcount, hpassed⟩ := status_passed_iff hne hend
      rw [flatten_chunks (by decide), length_blocksOf hdata, hmoved] at hcount hpassed
      rw [flatten_chunks (by decide)] at himage
      rw [hrun]
      refine ⟨_, _, _, stored.after, _, rfl, Nat.sub_le _ _, ?_, ?_, ?_⟩
      · rw [hlen, ← Nat.sub_mul]
        exact Nat.dvd_mul_left _ _
      · have hback : (cbw.transferLen - (cbw.transferLen - stored.count * BLOCK_LEN)) / BLOCK_LEN = stored.count := by
          rw [hlen, Nat.sub_sub_self (Nat.mul_le_mul_right _ hcount)]
          exact Nat.mul_div_cancel _ (by decide)
        rw [image_after hfail hend, himage, hback]
      · rw [← hpassed, hlen, ← Nat.sub_mul, Nat.mul_eq_zero]
        simp only [BLOCK_LEN]
        omega
  · rintro ⟨h0, hout⟩
    rw [exec_execute_write hop, hcache, write10, if_neg hmatch, if_neg h0]
    have hin : 2 ^ 32 ≤ cbw.lba + cbw.blocks ∨ cbw.lba + cbw.blocks > b.shared.blockCount := by omega
    have hdrain : Bus.exec dev _ _ = _ := exec_discardOut payload rest
      { b with shared := b.shared.setSense SENSE_ILLEGAL_REQUEST ASC_INVALID_FIELD 0 } hq
    rw [hp] at hdrain
    simp only [exec_bind, exec_borrow, Option.bind_some, if_pos hin, exec_modifyShared, hdrain]
    exact ⟨_, _, rfl⟩

/-- A worn card that does not tear its writes stores nothing of those that fail. -/
theorem wornCard_failStoresNothing (worn : ℕ → Bool) : FailStoresNothing (wornCard worn false) ramImage := by
  intro d start blocks h
  simp only [wornCard, ramCard] at h ⊢
  split
  · rename_i hgood
    rw [if_pos hgood] at h
    split
    · rename_i hin
      simp [hin] at h
    · rfl
  · rfl

/-- A WRITE(10) of nine blocks from the start of the card. -/
def writeNine : Cbw := ⟨1, 4608, .out, 0, 10, [0x2a, 0, 0, 0, 0, 0, 0, 0, 9, 0, 0, 0, 0, 0, 0, 0]⟩

/-- A shared state attached to a card of `blocks` blocks. -/
def attachedTo (blocks : ℕ) : SharedState := SharedState.default.attach 0 blocks

/-- Nine blocks written to a card whose last block is worn. -/
theorem write10_residue_worn : ∃ r status cls' card' shared',
    Bus.exec (wornCard (· = 8) false) (MscClass.new.execute writeNine)
        ⟨attachedTo 9, List.replicate 9 Block.new, dataPackets (List.replicate 4608 7), [], []⟩ =
      some (((r, status), cls'), ⟨shared', card', [], [], []⟩) ∧
    r ≤ 4608 ∧ BLOCK_LEN ∣ r ∧
    ramImage card' = patch (ramImage (List.replicate 9 Block.new)) 0
      ((blocksOf (List.replicate 4608 7)).take ((4608 - r) / BLOCK_LEN)) ∧
    (r = 0 ↔ status = .passed) := by
  have hlen : writeNine.transferLen = writeNine.blocks * BLOCK_LEN := by decide
  have hlba : writeNine.lba = 0 := by decide
  have hpayload : (List.replicate 4608 (7 : UInt8)).length = writeNine.transferLen := List.length_replicate
  have hin : writeNine.lba + writeNine.blocks < 2 ^ 32 ∧ writeNine.lba + writeNine.blocks ≤ (attachedTo 9).blockCount := by decide
  generalize List.replicate 4608 (7 : UInt8) = payload at *
  have h := (write10_residue (wornCard_lawful (· = 8) false) (wornCard_failStoresNothing _) .new [] ⟨attachedTo 9,
    List.replicate 9 Block.new, dataPackets payload, [], []⟩ rfl rfl hlen hpayload (List.append_nil _).symm).1 hin
  rw [hlba] at h
  exact h

/-! ## A READ(10) beside unreadable blocks -/

/-- A backend read fails exactly when it covers one of the blocks `bad`. -/
def FailsOn (dev : BlockDevice D) (bad : ℕ → Prop) : Prop :=
  ∀ card start count, (dev.read card start count).1 = none ↔ ∃ a, start ≤ a ∧ a < start + count ∧ bad a

/-- A READ(10) inside the card passes, and sends all it was asked for, when no block is unreadable in the lines of its blocks: the
aligned runs of eight blocks, cut off at the end of the card, that are read ahead into the cache. -/
theorem read10_passes (law : dev.Lawful image) {bad : ℕ → Prop} (hbad : FailsOn dev bad) {cls : MscClass}
    (hcache : cls.cache.WellFormed) {cbw : Cbw} (hop : cbw.byte 0 = SCSI_READ_10) (b : Bus D)
    (hb : ∃ context, b.shared.backend = .device context) (hr : cbw.InRange .in_ b.shared.blockCount)
    (hlines : ∀ a c, a < b.shared.blockCount → cbw.lba ≤ c → c < cbw.lba + cbw.blocks →
      a / LINE_BLOCKS = c / LINE_BLOCKS → ¬bad a) :
    ∃ cls' card' shared', ∃ sent : List Block,
      Bus.exec dev (cls.execute cbw) b = some (((0, .passed), cls'),
        { b with card := card', shared := shared', inQueue := b.inQueue ++ dataPackets (sent.flatMap Block.bytes) }) ∧
      sent.length = cbw.blocks ∧
      ((cls.refresh b.shared.generation).cache.Coherent (image b.card) → sent = window (image b.card) cbw.lba cbw.blocks) := by
  have hmoved : cbw.lba + cbw.blocks - cbw.lba = cbw.blocks := Nat.add_sub_cancel_left ..
  obtain ⟨status, cache', card', stats, sense, sent, hrun, hend, -, hsent⟩ := exec_read10Loop_cases law
    (decide (cbw.blocks > LINE_BLOCKS)) hr.le cbw.blocks (cls.refresh b.shared.generation).cache cbw.lba cbw.transferLen b
    (wellFormed_refresh hcache _) (Nat.le_add_right ..) hmoved.le
  have hpassed : status = .passed ∧ sent.length = cbw.blocks := by
    cases hend with
    | passed h => exact ⟨rfl, h.trans hmoved⟩
    | @failed start card hlt hstart href =>
      -- The refused line is the line of the next block to send.
      obtain ⟨context, hdevice⟩ := hb
      rcases href with hnone | hread
      · rw [hdevice] at hnone
        cases hnone
      · obtain ⟨a, ha, ha', hbada⟩ := (hbad ..).mp hread
        have hle := hr.le
        simp only [LINE_BLOCKS] at *
        exact absurd hbada (hlines a (cbw.lba + sent.length) (by omega) (by omega) (by omega) (by omega))
  obtain ⟨rfl, hlen⟩ := hpassed
  refine ⟨{ cls.refresh b.shared.generation with cache := cache' }, card', { b.shared with stats, sense }, sent, ?_, hlen,
    fun hc => hlen ▸ hsent hc⟩
  rw [exec_execute_read_inRange hop hr, hrun, hlen, ← hr.transferLen, Nat.sub_self]
  rfl

/-- A READ(10) of one block of the card. -/
def readOne (lba : UInt8) : Cbw := ⟨1, 512, .in_, 0, 10, [0x28, 0, 0, 0, 0, lba, 0, 0, 1, 0, 0, 0, 0, 0, 0, 0]⟩

/-- The class attached to a card of nine blocks. -/
def nineBlocks : Bus (List Block) := ⟨attachedTo 9, List.replicate 9 Block.new, [], [], []⟩

theorem wornCard_failsOn_zero : FailsOn (wornCard (· = 0) false) (· = 0) :=
  fun d start count => by simpa using wornCard_read_none (· = 0) false d start count

/-- With only the first block of the card unreadable, the ninth block is read. -/
theorem read10_passes_worn : ∃ cls' card' shared', ∃ sent : List Block,
    Bus.exec (wornCard (· = 0) false) (MscClass.new.execute (readOne 8)) nineBlocks = some (((0, .passed), cls'),
      { nineBlocks with card := card', shared := shared', inQueue := [] ++ dataPackets (sent.flatMap Block.bytes) }) ∧
    sent.length = (readOne 8).blocks ∧
    ((MscClass.new.refresh 1).cache.Coherent (ramImage nineBlocks.card) →
      sent = window (ramImage nineBlocks.card) (readOne 8).lba (readOne 8).blocks) := by
  refine read10_passes (wornCard_lawful _ _) wornCard_failsOn_zero (wellFormed_invalidate _) rfl nineBlocks ⟨0, rfl⟩
    ⟨rfl, by decide, by decide, by decide, by decide⟩ ?_
  intro a c _ hc _ hline ha
  have hlba : (readOne 8).lba = 8 := by decide
  simp only [LINE_BLOCKS] at hline
  omega

/-- With only the first block of the card unreadable, the second block is not read. -/
theorem read10_fails_beside :
    FailsOn (wornCard (· = 0) false) (· = 0) ∧ (readOne 1).InRange .in_ nineBlocks.shared.blockCount ∧
      (∀ a, (readOne 1).lba ≤ a → a < (readOne 1).lba + (readOne 1).blocks → a ≠ 0) ∧
      (Bus.exec (wornCard (· = 0) false) (MscClass.new.execute (readOne 1)) nineBlocks).map (fun r => r.1.1) =
        some (512, .failed) := by
  refine ⟨wornCard_failsOn_zero, ⟨rfl, by decide, by decide, by decide, by decide⟩, ?_, by decide +kernel⟩
  intro a ha _ h0
  rw [h0] at ha
  exact absurd ha (by decide)

end Ratputer
