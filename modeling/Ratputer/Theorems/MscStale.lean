import Ratputer.Lemmas.MscFaults
import Ratputer.Theorems.MscCache

/-!
# The cache behind a failed WRITE(10)

A backend write that fails may have stored some of its blocks. `write_10` refreshes the cached copies of the blocks it has written
only where the write succeeds, so an LRU line can keep a block that the failing write has replaced on the card. `Harmless` says
that it has not; the cache then holds what the card holds, as it does behind every other command, and otherwise a READ(10) sends
the block as it was.
-/

namespace Ratputer

open Chunks Patch MscAux

variable {D : Type} (dev : BlockDevice D) (image : D → ℕ → Block)

/-- The backend writes of a WRITE(10): a line of the host's blocks each, up to the first that fails. -/
def Drive.stored (s : Drive D) (cbw : Cbw) (payload : List UInt8) : Stored D :=
  s.shared.backend.storeAll dev (chunks LINE_BLOCKS (blocksOf payload)) cbw.lba s.card

/-- A WRITE(10) whose failing backend write, if there is one, changes no block that an LRU line holds. -/
def Harmless (s : Drive D) : DriveEvent D → Prop
  | .command cbw payload => cbw.byte 0 = SCSI_WRITE_10 → cbw.InRange .out s.shared.blockCount →
      ∀ i, i ≠ STREAM_LINE → ∀ a, ((s.cls.refresh s.shared.generation).cache.lines i).contains a = true →
        image (s.stored dev cbw payload).after a = image (s.stored dev cbw payload).before a
  | _ => True

/-- A later command of the same attachment. -/
def Later (s : Drive D) (e : DriveEvent D) : Prop :=
  (∃ cbw payload, e = .command cbw payload) ∧ Provided s e ∧ Harmless dev image s e

/-- No READ(10) returns for a block of the range anything but what the card then holds. -/
def ReadsCard (s : Drive D) (lba count : ℕ) : Prop :=
  ∀ cbw payload packets result, cbw.byte 0 = SCSI_READ_10 →
    (s.step dev (.command cbw payload)).2 = some (packets, result) →
    ∀ j block, (blocksOf (packets.flatMap Packet.bytes))[j]? = some block → lba ≤ cbw.lba + j → cbw.lba + j < lba + count →
      block = image (s.step dev (.command cbw payload)).1.card (cbw.lba + j)

/-- A drive whose cache is well-formed and holds what the card holds. -/
structure Drive.Fresh (s : Drive D) : Prop where
  wellFormed : s.cls.cache.WellFormed
  coherent : (s.cls.refresh s.shared.generation).cache.Coherent (image s.card)

namespace MscAux

variable {dev image}

theorem refresh_refresh (cls : MscClass) (generation : ℕ) (cache : BlockCache) :
    MscClass.refresh { cls.refresh generation with cache } generation = { cls.refresh generation with cache } := by
  have hgen : (cls.refresh generation).cacheGeneration = generation := by
    unfold MscClass.refresh
    split
    · rfl
    · simp_all
  rw [MscClass.refresh, if_neg (not_not.mpr hgen.symm)]

/-- The bus that a command finds. -/
abbrev busOf (s : Drive D) (payload : List UInt8) : Bus D := ⟨s.shared, s.card, dataPackets payload, [], []⟩

theorem step_of_exec {s : Drive D} {cbw : Cbw} {payload : List UInt8} {result : CommandResult} {cls : MscClass} {b : Bus D}
    (h : Bus.exec dev (s.cls.execute cbw) (busOf s payload) = some ((result, cls), b)) :
    s.step dev (.command cbw payload) = (⟨cls, b.shared, b.card⟩, some (b.inQueue, result)) := by
  rw [Drive.step, h]

/-- A READ(10) leaves the contents of the card, and sends the first of its blocks. -/
theorem step_read (law : dev.Lawful image) {s : Drive D} (hw : s.cls.cache.WellFormed) {cbw : Cbw}
    (hop : cbw.byte 0 = SCSI_READ_10) (payload : List UInt8) :
    ∃ cache' card' stats sense result, ∃ sent : List Block,
      s.step dev (.command cbw payload) =
        (⟨{ s.cls.refresh s.shared.generation with cache := cache' }, { s.shared with stats, sense }, card'⟩,
          some (dataPackets (sent.flatMap Block.bytes), result)) ∧
      Kept dev image (s.cls.refresh s.shared.generation).cache s.card cache' card' ∧
      ((s.cls.refresh s.shared.generation).cache.Coherent (image s.card) →
        sent = window (image s.card) cbw.lba sent.length) := by
  have hw' := wellFormed_refresh hw s.shared.generation
  generalize hcls : s.cls.refresh s.shared.generation = cls at *
  by_cases hr : cbw.InRange .in_ s.shared.blockCount
  · have hmoved : cbw.lba + cbw.blocks - cbw.lba = cbw.blocks := Nat.add_sub_cancel_left ..
    obtain ⟨status, cache', card', stats, sense, sent, hrun, -, hkept, hsent⟩ := exec_read10Loop_cases law
      (decide (cbw.blocks > LINE_BLOCKS)) hr.le cbw.blocks cls.cache cbw.lba cbw.transferLen
      (busOf s payload) hw' (Nat.le_add_right ..) hmoved.le
    refine ⟨cache', card', stats, sense, (cbw.transferLen - sent.length * BLOCK_LEN, status), sent, ?_, hkept, hsent⟩
    have hexec : Bus.exec dev (s.cls.execute cbw) (busOf s payload) = _ := exec_execute_read_inRange hop hr
    rw [hcls, hrun] at hexec
    exact step_of_exec hexec
  · obtain ⟨result, sense, hrun⟩ := exec_read10_refused dev cls.cache (b := busOf s payload) hr
    refine ⟨cls.cache, s.card, s.shared.stats, sense, result, [], ?_, .refl .., fun _ => rfl⟩
    have hexec : Bus.exec dev (s.cls.execute cbw) (busOf s payload) = _ := exec_execute_read hop
    rw [hcls, hrun] at hexec
    exact step_of_exec hexec

/-- A WRITE(10) inside the card leaves what its backend writes leave. -/
theorem step_write (law : dev.Lawful image) {s : Drive D} {cbw : Cbw} (hop : cbw.byte 0 = SCSI_WRITE_10)
    (hr : cbw.InRange .out s.shared.blockCount) {payload : List UInt8} (hp : payload.length = cbw.transferLen) :
    ∃ cache' stats sense result,
      s.step dev (.command cbw payload) =
        (⟨{ s.cls.refresh s.shared.generation with cache := cache' }, { s.shared with stats, sense },
          (s.stored dev cbw payload).after⟩, some ([], result)) ∧
      Written image (s.cls.refresh s.shared.generation).cache s.card cache' (s.stored dev cbw payload).before ∧
      (cache'.lines STREAM_LINE).valid = false := by
  have hmoved : cbw.lba + cbw.blocks - cbw.lba = cbw.blocks := Nat.add_sub_cancel_left ..
  have hdata : payload.length = (cbw.lba + cbw.blocks - cbw.lba) * BLOCK_LEN := by rw [hmoved, hp, hr.transferLen]
  obtain ⟨cache', stats, sense, hrun, hwritten, hinvalid⟩ := exec_write10Loop_cases law (cbw.lba + cbw.blocks) [] cbw.blocks
    (s.cls.refresh s.shared.generation).cache cbw.lba cbw.transferLen payload
    (busOf s payload) (Nat.le_add_right ..) hmoved.le hdata hp.symm (List.append_nil _).symm
  refine ⟨cache', stats, sense, (cbw.transferLen - (s.stored dev cbw payload).count * BLOCK_LEN,
    (s.stored dev cbw payload).status), ?_, hwritten, hinvalid (Or.inr ?_)⟩
  · have hexec : Bus.exec dev (s.cls.execute cbw) (busOf s payload) = _ := exec_execute_write_inRange hop hr
    rw [hrun] at hexec
    exact step_of_exec hexec
  · exact Nat.lt_add_of_pos_right (Nat.pos_of_ne_zero hr.blocks)

/-- What a command leaves that writes nothing: the contents of the card, and a cache that knows no less of them. -/
theorem step_other (law : dev.Lawful image) {s : Drive D} (hw : s.cls.cache.WellFormed) {cbw : Cbw} {payload : List UInt8}
    (hp : Provided s (.command cbw payload))
    (hno : ¬(cbw.byte 0 = SCSI_WRITE_10 ∧ cbw.InRange .out s.shared.blockCount)) :
    ∃ cache' card' shared' packets, s.step dev (.command cbw payload) =
        (⟨{ s.cls.refresh s.shared.generation with cache := cache' }, shared', card'⟩, packets) ∧
      shared'.generation = s.shared.generation ∧
      Kept dev image (s.cls.refresh s.shared.generation).cache s.card cache' card' := by
  by_cases hread : cbw.byte 0 = SCSI_READ_10
  · obtain ⟨cache', card', stats, sense, result, sent, hstep, hkept, -⟩ := step_read law hw hread payload
    exact ⟨cache', card', _, _, hstep, rfl, hkept⟩
  by_cases hwrite : cbw.byte 0 = SCSI_WRITE_10
  · obtain ⟨result, sense, outQueue, hrun⟩ := exec_write10_refused dev (s.cls.refresh s.shared.generation).cache
      (b := busOf s payload) hp rfl fun hr => hno ⟨hwrite, hr⟩
    refine ⟨_, s.card, { s.shared with sense }, some ([], result), ?_, rfl, .refl ..⟩
    have hexec : Bus.exec dev (s.cls.execute cbw) (busOf s payload) = _ := exec_execute_write hwrite
    rw [hrun] at hexec
    exact step_of_exec hexec
  · obtain ⟨result, ejected, sense, hrun⟩ := exec_execute_reply dev s.cls (busOf s payload) hread hwrite
    exact ⟨_, s.card, { s.shared with ejected, sense }, _, step_of_exec hrun, rfl, .refl ..⟩

/-- A cache agrees with another card when that differs in no block that the LRU lines hold. -/
theorem coherent_of_eq {f g : ℕ → Block} {c : BlockCache} (hc : c.Coherent f) (hs : (c.lines STREAM_LINE).valid = false)
    (h : ∀ i, i ≠ STREAM_LINE → ∀ a, (c.lines i).contains a = true → g a = f a) : c.Coherent g := by
  intro i hv j hj
  have hi : i ≠ STREAM_LINE := by
    rintro rfl
    rw [hs] at hv
    cases hv
  have hcontains : (c.lines i).contains ((c.lines i).start + j) = true := by simp [Line.contains, hv, hj]
  rw [h i hi _ hcontains]
  exact hc i hv j hj

/-- A drive is fresh behind a later command of the attachment. -/
theorem fresh_step (law : dev.Lawful image) {s : Drive D} (h : s.Fresh image) {e : DriveEvent D}
    (hl : Later dev image s e) : (s.step dev e).1.Fresh image := by
  obtain ⟨⟨cbw, payload, rfl⟩, hp, hharm⟩ := hl
  by_cases hwrite : cbw.byte 0 = SCSI_WRITE_10 ∧ cbw.InRange .out s.shared.blockCount
  · obtain ⟨hop, hr⟩ := hwrite
    obtain ⟨cache', stats, sense, result, hstep, hwritten, hinvalid⟩ := step_write law hop hr (hp hr.direction)
    rw [hstep]
    refine ⟨hwritten.wellFormed (wellFormed_refresh h.wellFormed _), ?_⟩
    rw [refresh_refresh]
    refine coherent_of_eq (hwritten.coherent h.coherent) hinvalid fun i hi a ha => hharm hop hr i hi a ?_
    rwa [hwritten.contains i hi] at ha
  · obtain ⟨cache', card', shared', packets, hstep, hgen, hkept⟩ := step_other law h.wellFormed hp hwrite
    rw [hstep]
    refine ⟨hkept.wellFormed (wellFormed_refresh h.wellFormed _), ?_⟩
    simp only [hgen, refresh_refresh, hkept.image_eq]
    exact hkept.coherent h.coherent

/-- A fresh drive reads what the card holds. -/
theorem readsCard_of_fresh (law : dev.Lawful image) {s : Drive D} (h : s.Fresh image) (lba count : ℕ) :
    ReadsCard dev image s lba count := by
  intro cbw payload packets result hop hobs j block hj _ _
  obtain ⟨cache', card', stats, sense, result', sent, hstep, hkept, hsent⟩ := step_read law h.wellFormed hop payload
  rw [hstep] at hobs ⊢
  obtain ⟨rfl, -⟩ := Prod.mk.inj (Option.some.inj hobs)
  rw [flatMap_dataPackets, blocksOf_flatMap_bytes, hsent h.coherent] at hj
  obtain ⟨hlt, rfl⟩ := List.getElem?_eq_some_iff.mp hj
  rw [getElem_window, hkept.image_eq]

/-- A READ(10) of one block. -/
def readBlockAt (a : ℕ) : Cbw := ⟨0, BLOCK_LEN, .in_, 0, 10, [SCSI_READ_10, 0] ++ Octets.beBytes 4 a ++ [0, 0, 1, 0]⟩

theorem lba_readBlockAt {a : ℕ} (h : a < 2 ^ 32) : (readBlockAt a).lba = a := by
  have hlen : (Octets.beBytes 4 a).length = 4 := Octets.length_beBytes ..
  have htake : ((readBlockAt a).command.drop 2).take 4 = Octets.beBytes 4 a := by
    simp only [readBlockAt, List.append_assoc]
    exact List.take_left' hlen
  rw [Cbw.lba, htake]
  exact Octets.beNat_beBytes (by simpa using h)

theorem blocks_readBlockAt (a : ℕ) : (readBlockAt a).blocks = 1 := by
  have hlen : ([SCSI_READ_10, 0] ++ Octets.beBytes 4 a ++ [0]).length = 7 := by simp
  have hdrop : (readBlockAt a).command.drop 7 = [0, 1, 0] := by
    have hcommand : (readBlockAt a).command = ([SCSI_READ_10, 0] ++ Octets.beBytes 4 a ++ [0]) ++ [0, 1, 0] := by
      simp [readBlockAt]
    rw [hcommand]
    exact List.drop_left' hlen
  rw [Cbw.blocks, hdrop]
  rfl

theorem inRange_readBlockAt {a count : ℕ} (h : a < count) (h32 : a + 1 < 2 ^ 32) : (readBlockAt a).InRange .in_ count where
  direction := rfl
  transferLen := by rw [blocks_readBlockAt]; rfl
  blocks := by rw [blocks_readBlockAt]; decide
  lt := by rw [blocks_readBlockAt, lba_readBlockAt (by omega)]; exact h32
  le := by rw [blocks_readBlockAt, lba_readBlockAt (by omega)]; exact h

/-- One block read from a cache that agrees with an earlier card is the block of that card. -/
theorem step_readBlockAt {s : Drive D} {cls : MscClass} (hcls : s.cls.refresh s.shared.generation = cls) {f : ℕ → Block}
    (hc : cls.cache.Coherent f) {a : ℕ} (hheld : ∃ i, (cls.cache.lines i).contains a = true) (ha : a < s.shared.blockCount)
    (h32 : a + 1 < 2 ^ 32) :
    ∃ s' result, s.step dev (.command (readBlockAt a) []) = (s', some (dataPackets (f a).bytes, result)) ∧
      s'.card = s.card := by
  have hexec : Bus.exec dev (s.cls.execute (readBlockAt a)) (busOf s []) = _ :=
    exec_execute_read_inRange rfl (inRange_readBlockAt ha h32)
  obtain ⟨cache', stats, hrun⟩ := exec_read10Loop_hit dev hc hheld s.shared.blockCount BLOCK_LEN
    (decide (1 > LINE_BLOCKS)) (busOf s [])
  rw [blocks_readBlockAt, lba_readBlockAt (by omega), hcls] at hexec
  have hloop : Bus.exec dev (read10Loop (busOf s []).shared.blockCount (a + 1) (decide (1 > LINE_BLOCKS)) 1 cls.cache a
      (readBlockAt a).transferLen) (busOf s []) = _ := hrun
  rw [hloop] at hexec
  exact ⟨_, _, step_of_exec hexec, rfl⟩

/-- The failing write of a WRITE(10): it lies in the blocks of the command, and changes nothing beside its own. -/
theorem stored_failed (law : dev.Lawful image) {s : Drive D} {cbw : Cbw} (hr : cbw.InRange .out s.shared.blockCount)
    {payload : List UInt8} (hp : payload.length = cbw.transferLen) {blocks : List Block}
    (hfail : (s.stored dev cbw payload).failed = some blocks) :
    (s.stored dev cbw payload).count + blocks.length ≤ cbw.blocks ∧
      ∀ a, image (s.stored dev cbw payload).after a ≠ image (s.stored dev cbw payload).before a →
        cbw.lba + (s.stored dev cbw payload).count ≤ a ∧ a < cbw.lba + (s.stored dev cbw payload).count + blocks.length := by
  have hlen : (blocksOf payload).length = cbw.blocks := length_blocksOf (by rw [hp, hr.transferLen])
  obtain ⟨-, -, hend⟩ := storeAll_spec law s.shared.backend (chunks LINE_BLOCKS (blocksOf payload)) cbw.lba s.card
  change StoreEnd dev s.shared.backend _ cbw.lba (s.stored dev cbw payload) at hend
  generalize s.stored dev cbw payload = stored at *
  cases hend with
  | all => cases hfail
  | @failed count before after blocks' hmem hstart hcall =>
    obtain rfl : blocks' = blocks := Option.some.inj hfail
    have hpos := (length_of_mem_chunks (by decide) _ blocks' hmem).1
    have hle := hstart.length_le
    rw [flatten_chunks (by decide), List.length_drop, hlen] at hle
    have hwithin : count + blocks'.length ≤ cbw.blocks := by omega
    refine ⟨hwithin, fun a hne => ?_⟩
    by_contra hout
    simp only at hout
    have hsame := store_of_not_mem law s.shared.backend before (show a < cbw.lba + count ∨
      cbw.lba + count + blocks'.length ≤ a by omega)
    rw [hcall] at hsame
    exact hne hsame

end MscAux

variable {dev image}

/-- Behind a WRITE(10) whose backend write fails, no READ(10) of the attachment returns for a block of that write anything but what
the card then holds, exactly when the write has changed no block that an LRU line holds. -/
theorem failed_write_fresh_iff (law : dev.Lawful image) {s : Drive D} (h : s.Fresh image) {cbw : Cbw}
    (hop : cbw.byte 0 = SCSI_WRITE_10) (hr : cbw.InRange .out s.shared.blockCount) {payload : List UInt8}
    (hp : payload.length = cbw.transferLen) {blocks : List Block} (hfail : (s.stored dev cbw payload).failed = some blocks) :
    (∀ es, Mealy.Along (Drive.step dev) (Later dev image) (s.step dev (.command cbw payload)).1 es →
      ReadsCard dev image (Mealy.final (Drive.step dev) (s.step dev (.command cbw payload)).1 es)
        (cbw.lba + (s.stored dev cbw payload).count) blocks.length) ↔
      Harmless dev image s (.command cbw payload) := by
  constructor
  · intro hreads _ _ i hi a ha
    by_contra hne
    obtain ⟨hwithin, hchanged⟩ := stored_failed law hr hp hfail
    obtain ⟨hfrom, hto⟩ := hchanged a hne
    have hlt := hr.lt
    have hle := hr.le
    obtain ⟨cache', stats, sense, result, hstep, hwritten, -⟩ := step_write law hop hr hp
    -- The line still holds the block as it was before the failing write, and a READ(10) of it finds it there.
    have hheld : ∃ i, (cache'.lines i).contains a = true := ⟨i, by rw [hwritten.contains i hi]; exact ha⟩
    have hcount : a < (s.step dev (.command cbw payload)).1.shared.blockCount := by
      rw [hstep]
      exact (show a < s.shared.blockCount by omega)
    have hrefresh : (s.step dev (.command cbw payload)).1.cls.refresh
        (s.step dev (.command cbw payload)).1.shared.generation =
        { s.cls.refresh s.shared.generation with cache := cache' } := by
      rw [hstep]
      exact refresh_refresh ..
    obtain ⟨s', result', hread, hcard⟩ := step_readBlockAt hrefresh (hwritten.coherent h.coherent) hheld hcount (by omega)
    have hlba : (readBlockAt a).lba = a := lba_readBlockAt (by omega)
    have hblock := hreads [] trivial (readBlockAt a) [] _ result' rfl (congrArg Prod.snd hread) 0
      (image (s.stored dev cbw payload).before a) (by
        have hone := blocksOf_flatMap_bytes [image (s.stored dev cbw payload).before a]
        rw [List.flatMap_singleton] at hone
        rw [flatMap_dataPackets, hone]
        rfl) (by omega) (by omega)
    rw [Mealy.final_nil, hread, hlba, Nat.add_zero, hcard, hstep] at hblock
    exact hne hblock.symm
  · intro hharm es hes
    have hfresh := fresh_step law h ⟨⟨cbw, payload, rfl⟩, fun _ => hp, hharm⟩
    refine readsCard_of_fresh law ?_ _ _
    exact Mealy.invariant (Drive.Fresh image) (fun s e hs hl => fresh_step law hs hl) hfresh hes

/-! ## A torn write -/

/-- A card of nine blocks, attached, whose last block is worn: a write that covers it stores the blocks before it and fails. -/
def wornDrive : Drive (List Block) := ⟨.new, SharedState.default.attach 0 9, List.replicate 9 Block.new⟩

/-- A READ(10) of the block before the worn one, and a WRITE(10) of both. -/
def readLast : Cbw := ⟨1, 512, .in_, 0, 10, [0x28, 0, 0, 0, 0, 7, 0, 0, 1, 0, 0, 0, 0, 0, 0, 0]⟩

def writeLast : Cbw := ⟨1, 1024, .out, 0, 10, [0x2a, 0, 0, 0, 0, 7, 0, 0, 2, 0, 0, 0, 0, 0, 0, 0]⟩

/-- A block of sevens. -/
def sevens : Block := .ofBytes (List.replicate 512 7)

theorem wornDrive_fresh : wornDrive.Fresh ramImage := ⟨wellFormed_invalidate _, coherent_invalidate _ _⟩

/-- A card of seventeen blocks, attached, whose last block is worn. -/
def longDrive : Drive (List Block) := ⟨.new, SharedState.default.attach 0 17, List.replicate 17 Block.new⟩

/-- A WRITE(10) of the last two blocks of the long card. -/
def writeEnd : Cbw := ⟨1, 1024, .out, 0, 10, [0x2a, 0, 0, 0, 0, 15, 0, 0, 2, 0, 0, 0, 0, 0, 0, 0]⟩

/-- The long card after a READ(10), which has left its first eight blocks in a line. -/
def readDrive : Drive (List Block) := Mealy.final (Drive.step (wornCard (· = 16) true)) longDrive [.command readLast []]

theorem readDrive_fresh : readDrive.Fresh ramImage := by
  have hlater : Later (wornCard (· = 16) true) ramImage longDrive (.command readLast []) :=
    ⟨⟨readLast, [], rfl⟩, nofun, fun hop => absurd hop (by decide)⟩
  rw [readDrive, Mealy.final_cons, Mealy.final_nil]
  exact fresh_step (wornCard_lawful _ _) ⟨wellFormed_invalidate _, coherent_invalidate _ _⟩ hlater

theorem writeEnd_inRange : writeEnd.InRange .out readDrive.shared.blockCount :=
  ⟨rfl, by decide, by decide, by decide, by decide +kernel⟩

theorem writeEnd_failed : (readDrive.stored (wornCard (· = 16) true) writeEnd (sevens.bytes ++ sevens.bytes)).failed =
    some [sevens, sevens] := by decide +kernel

/-- The line in use lies before the blocks of the failing write. -/
theorem writeEnd_harmless : Harmless (wornCard (· = 16) true) ramImage readDrive
    (.command writeEnd (sevens.bytes ++ sevens.bytes)) := by
  intro _ _ i _ a ha
  have hlines : ∀ i, ((readDrive.cls.refresh readDrive.shared.generation).cache.lines i).valid = true →
      ((readDrive.cls.refresh readDrive.shared.generation).cache.lines i).start +
        ((readDrive.cls.refresh readDrive.shared.generation).cache.lines i).len ≤ 8 := by decide +kernel
  by_contra hne
  have hlow := ((stored_failed (wornCard_lawful _ _) writeEnd_inRange (by decide +kernel) writeEnd_failed).2 a hne).1
  have hlba : writeEnd.lba = 15 := by decide
  have hbefore : writeEnd.lba ≤ a := le_trans (Nat.le_add_right writeEnd.lba _) hlow
  simp only [Line.contains, Bool.and_eq_true, decide_eq_true_eq] at ha
  have hend := hlines i ha.1.1
  omega

/-- A READ(10) leaves a line, and a WRITE(10) that fails spares it: whatever follows, what is read is what the card holds. -/
theorem failed_write_fresh_spared :
    Harmless (wornCard (· = 16) true) ramImage readDrive (.command writeEnd (sevens.bytes ++ sevens.bytes)) ∧
      ∀ es, Mealy.Along (Drive.step (wornCard (· = 16) true)) (Later (wornCard (· = 16) true) ramImage)
          (readDrive.step (wornCard (· = 16) true) (.command writeEnd (sevens.bytes ++ sevens.bytes))).1 es →
        ReadsCard (wornCard (· = 16) true) ramImage (Mealy.final (Drive.step (wornCard (· = 16) true))
          (readDrive.step (wornCard (· = 16) true) (.command writeEnd (sevens.bytes ++ sevens.bytes))).1 es)
          (writeEnd.lba + (readDrive.stored (wornCard (· = 16) true) writeEnd (sevens.bytes ++ sevens.bytes)).count) 2 := by
  have hlen : (sevens.bytes ++ sevens.bytes).length = writeEnd.transferLen := by decide +kernel
  refine ⟨writeEnd_harmless, ?_⟩
  exact (failed_write_fresh_iff (wornCard_lawful _ _) readDrive_fresh rfl writeEnd_inRange hlen writeEnd_failed).mpr writeEnd_harmless

/-- A block is read into the cache, then written by a call that fails on the block behind it, and read again as it was. -/
theorem failed_write_stale :
    (Mealy.final (Drive.step (wornCard (· = 8) true)) wornDrive [.command readLast []]).Fresh ramImage ∧
    (Mealy.final (Drive.step (wornCard (· = 8) true)) wornDrive
        [.command readLast [], .command writeLast (sevens.bytes ++ sevens.bytes)]).card[7]? = some sevens ∧
    Mealy.outputs (Drive.step (wornCard (· = 8) true)) wornDrive
        [.command readLast [], .command writeLast (sevens.bytes ++ sevens.bytes), .command readLast []] =
      [some (dataPackets Block.new.bytes, (0, .passed)), some ([], (1024, .failed)),
        some (dataPackets Block.new.bytes, (0, .passed))] := by
  refine ⟨?_, by decide +kernel, by decide +kernel⟩
  have hlater : Later (wornCard (· = 8) true) ramImage wornDrive (.command readLast []) :=
    ⟨⟨readLast, [], rfl⟩, nofun, fun hop => absurd hop (by decide)⟩
  rw [Mealy.final_cons, Mealy.final_nil]
  exact fresh_step (wornCard_lawful _ _) wornDrive_fresh hlater

end Ratputer
