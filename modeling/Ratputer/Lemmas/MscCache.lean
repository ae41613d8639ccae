import Ratputer.Lemmas.Msc
import Ratputer.Uncached

/-!
# The block cache

Coherence of the cache with the card, what each cache operation does to it, and the loops of READ(10) and WRITE(10) from a
coherent cache.
-/

namespace Ratputer

open Chunks Patch

/-- What a valid line holds is what the card holds. -/
def Line.Coherent (image : ℕ → Block) (line : Line) : Prop :=
  line.valid = true → ∀ i < line.len, line.data[i]? = some (image (line.start + i))

def BlockCache.Coherent (image : ℕ → Block) (c : BlockCache) : Prop := ∀ i, (c.lines i).Coherent image

namespace MscAux

variable {D : Type} {dev : BlockDevice D} {image : D → ℕ → Block}

/-! ## Cache operations -/

@[simp] theorem setLine_self (c : BlockCache) (index : LineIndex) (line : Line) : (c.setLine index line).lines index = line :=
  Function.update_self ..

theorem setLine_of_ne (c : BlockCache) {index i : LineIndex} (line : Line) (h : i ≠ index) :
    (c.setLine index line).lines i = c.lines i :=
  Function.update_of_ne h ..

theorem coherent_setLine {f : ℕ → Block} {c : BlockCache} (h : c.Coherent f) (index : LineIndex) {line : Line}
    (hl : line.Coherent f) : (c.setLine index line).Coherent f := by
  intro i
  rcases eq_or_ne i index with rfl | hne
  · rw [setLine_self]
    exact hl
  · rw [setLine_of_ne c line hne]
    exact h i

theorem coherent_invalidate (f : ℕ → Block) (c : BlockCache) : c.invalidate.Coherent f := by
  intro i hv
  cases hv

theorem coherent_drop {f : ℕ → Block} {c : BlockCache} (h : c.Coherent f) (index : LineIndex) : (c.drop index).Coherent f :=
  coherent_setLine h index nofun

theorem coherent_stage {f : ℕ → Block} {c : BlockCache} (h : c.Coherent f) (blocks : List Block) :
    (c.stage blocks).Coherent f :=
  coherent_setLine h _ nofun

theorem coherent_touch {f : ℕ → Block} {c : BlockCache} (h : c.Coherent f) (index : LineIndex) : (c.touch index).Coherent f :=
  coherent_setLine (c := { c with clock := _ }) h index (h index)

theorem touch_lines_contains (c : BlockCache) (index i : LineIndex) (lba : ℕ) :
    ((c.touch index).lines i).contains lba = (c.lines i).contains lba := by
  rcases eq_or_ne i index with rfl | hne
  · rw [BlockCache.touch, setLine_self]
    rfl
  · rw [BlockCache.touch, setLine_of_ne _ _ hne]

/-- A line filled with the blocks of the card is coherent. -/
theorem coherent_fill {f : ℕ → Block} {c : BlockCache} (h : c.Coherent f) (index : LineIndex) (start len : ℕ) :
    (c.fill index start len (window f start len)).Coherent f := by
  apply coherent_touch
  apply coherent_setLine h
  intro _ i hi
  simp only
  rw [List.getElem?_append_left (by simpa using hi), List.getElem?_eq_getElem (by simpa using hi), getElem_window]

/-- A filled line contains the blocks from its start on. -/
theorem fill_contains (c : BlockCache) (index : LineIndex) {start len lba : ℕ} (blocks : List Block) (h1 : start ≤ lba)
    (h2 : lba - start < len) : ((c.fill index start len blocks).lines index).contains lba = true := by
  rw [BlockCache.fill, touch_lines_contains, setLine_self]
  simp [Line.contains, h1, h2]

/-- `find` returns a line that contains the block, and keeps the cache coherent. -/
theorem find_spec {f : ℕ → Block} {c c' : BlockCache} (h : c.Coherent f) {lba : ℕ} {index : LineIndex}
    (hf : c.find lba = some (index, c')) : c'.Coherent f ∧ (c'.lines index).contains lba = true := by
  obtain ⟨i, hi, heq⟩ := Option.map_eq_some_iff.mp hf
  obtain ⟨rfl, rfl⟩ := Prod.mk.inj heq
  have hc := List.find?_some hi
  exact ⟨coherent_touch h i, by rw [touch_lines_contains]; exact hc⟩

/-- Refreshing a coherent line with blocks written to the card leaves it coherent with the card after the write. -/
theorem coherent_updateLine {f : ℕ → Block} {line : Line} (h : line.Coherent f) (lba : ℕ) (blocks : List Block) :
    (BlockCache.updateLine line lba blocks).Coherent (patch f lba blocks) := by
  induction blocks generalizing f line lba with
  | nil => rwa [patch_nil]
  | cons block blocks ih =>
    have hone : (if line.contains lba then { line with data := line.data.set (lba - line.start) block } else line).Coherent
        (patch f lba [block]) := by
      split
      · rename_i hc
        intro hv i hi
        have hline := h hv i hi
        simp only [Line.contains, Bool.and_eq_true, decide_eq_true_eq] at hc
        rcases eq_or_ne (lba - line.start) i with rfl | hne
        · have haddr : line.start + (lba - line.start) = lba := by omega
          have hlt : lba - line.start < line.data.length := by
            rw [List.getElem?_eq_some_iff] at hline
            exact hline.1
          simp only [haddr, List.getElem?_set_self hlt]
          rw [patch_of_mem _ le_rfl (by simp)]
          simp
        · simp only [List.getElem?_set_ne hne, hline]
          rw [patch_of_not_mem _ (by simp only [List.length_singleton]; omega)]
      · rename_i hc
        intro hv i hi
        rw [h hv i hi, patch_of_not_mem]
        simp only [Line.contains, hv, Bool.true_and, Bool.and_eq_true, decide_eq_true_eq, not_and] at hc
        simp only [List.length_singleton]
        omega
    have hsplit : patch (patch f lba [block]) (lba + 1) blocks = patch f lba (block :: blocks) :=
      patch_patch_append f lba [block] blocks
    rw [← hsplit]
    exact ih hone (lba + 1)

/-- After a write from the stream line, the refreshed cache is coherent with the card. -/
theorem coherent_updateFromStream {f : ℕ → Block} {c : BlockCache} (h : c.Coherent f)
    (hs : (c.lines STREAM_LINE).valid = false) (lba count : ℕ) :
    (c.updateFromStream lba count).Coherent (patch f lba ((c.lines STREAM_LINE).data.take count)) := by
  intro i
  rcases eq_or_ne i STREAM_LINE with rfl | hne
  · intro hv
    simp only [BlockCache.updateFromStream, if_true] at hv
    rw [hs] at hv
    cases hv
  · simp only [BlockCache.updateFromStream, if_neg hne]
    exact coherent_updateLine (h i) lba _

/-- A line that contains `current` gives a read up to `fin` at least one block, and none behind `fin`. -/
theorem line_bounds {line : Line} {current fin : ℕ} (hc : line.contains current = true) (hfin : current < fin) :
    line.start + min (fin - line.start) line.len = current + (min (fin - line.start) line.len - (current - line.start)) ∧
    0 < min (fin - line.start) line.len - (current - line.start) ∧
    current + (min (fin - line.start) line.len - (current - line.start)) ≤ fin := by
  simp only [Line.contains, Bool.and_eq_true, decide_eq_true_eq] at hc
  omega

/-- The blocks that a coherent line gives for a read of `current` up to `fin` are those of the card. -/
theorem line_slice {f : ℕ → Block} {line : Line} (h : line.Coherent f) {current : ℕ} (fin : ℕ) (hc : line.contains current = true) :
    (line.data.drop (current - line.start)).take (min (fin - line.start) line.len - (current - line.start)) =
      window f current (min (fin - line.start) line.len - (current - line.start)) := by
  simp only [Line.contains, Bool.and_eq_true, decide_eq_true_eq] at hc
  obtain ⟨⟨hv, hstart⟩, hlen⟩ := hc
  apply List.ext_getElem?
  intro i
  by_cases hi : i < min (fin - line.start) line.len - (current - line.start)
  · have haddr : line.start + (current - line.start + i) = current + i := by omega
    rw [List.getElem?_take_of_lt hi, List.getElem?_drop, h hv _ (by omega), List.getElem?_eq_getElem (by simpa using hi),
      getElem_window, haddr]
  · rw [List.getElem?_take_eq_none (by omega), List.getElem?_eq_none (by simpa using hi)]

/-! ## The loops of READ(10) and WRITE(10) -/

/-- The card behind the installed backend: its capacity, and that transfers inside it succeed. -/
structure Serves (dev : BlockDevice D) (image : D → ℕ → Block) (n : ℕ) (b : Bus D) : Prop where
  lawful : dev.Lawful image
  succeeds : dev.Succeeds
  backend : ∃ context, b.shared.backend = .device context
  numBlocks : dev.numBlocks b.card = some n

theorem Serves.exec_blockRead {n : ℕ} {b : Bus D} (h : Serves dev image n b) (start len : ℕ) (hle : start + len ≤ n) :
    Bus.exec dev (blockRead b.shared.backend start len) b =
        some (some (window (image b.card) start len), { b with card := (dev.read b.card start len).2 }) := by
  obtain ⟨context, hb⟩ := h.backend
  obtain ⟨blocks, hr⟩ := Option.isSome_iff_exists.mp (h.succeeds.read b.card n start len h.numBlocks hle)
  rw [blockRead, exec_perform, hb, Bus.handle, hr, h.lawful.read_some _ _ _ _ hr]

theorem Serves.exec_blockWrite {n : ℕ} {b : Bus D} (h : Serves dev image n b) (start : ℕ) (blocks : List Block)
    (hle : start + blocks.length ≤ n) :
    Bus.exec dev (blockWrite b.shared.backend start blocks) b =
        some (true, { b with card := (dev.write b.card start blocks).2 }) := by
  obtain ⟨context, hb⟩ := h.backend
  rw [blockWrite, exec_perform, hb, Bus.handle, h.succeeds.write b.card n start blocks h.numBlocks hle]

/-- Any read leaves the card serving the same contents. -/
theorem Serves.of_read {n : ℕ} {b b' : Bus D} (h : Serves dev image n b) {start len : ℕ}
    (hb : b'.shared.backend = b.shared.backend) (hc : b'.card = (dev.read b.card start len).2) : Serves dev image n b' :=
  ⟨h.lawful, h.succeeds, hb ▸ h.backend, by rw [hc, h.lawful.read_numBlocks, h.numBlocks]⟩

/-- The line for a block of the card is found or read, and holds the block. -/
theorem exec_lookup {n count current : ℕ} (streaming : Bool) {b : Bus D} (h : Serves dev image n b) {cache : BlockCache}
    (hcache : cache.Coherent (image b.card)) (hcur : current < count) (hcount : count ≤ n) :
    ∃ index hit cache' card', Bus.exec dev (lookup cache count current streaming) b =
        some ((some (index, hit), cache'), { b with card := card' }) ∧
      Serves dev image n { b with card := card' } ∧ image card' = image b.card ∧
      cache'.Coherent (image b.card) ∧ (cache'.lines index).contains current = true := by
  rw [lookup]
  rcases hfind : cache.find current with _ | ⟨index, cache'⟩
  · have hstart : current / LINE_BLOCKS * LINE_BLOCKS ≤ current ∧ current < current / LINE_BLOCKS * LINE_BLOCKS + 8 := by
      simp only [LINE_BLOCKS]
      omega
    have hread := h.exec_blockRead (current / LINE_BLOCKS * LINE_BLOCKS)
      (min LINE_BLOCKS (count - current / LINE_BLOCKS * LINE_BLOCKS)) (by omega)
    simp only [exec_bind, exec_borrow, Option.bind_some, hread, exec_pure]
    refine ⟨_, _, _, _, rfl, h.of_read rfl rfl, h.lawful.read_image .., coherent_fill (coherent_drop hcache _) _ _ _, ?_⟩
    exact fill_contains _ _ _ hstart.1 (by simp only [LINE_BLOCKS] at hstart ⊢; omega)
  · obtain ⟨h1, h2⟩ := find_spec hcache hfind
    exact ⟨index, true, cache', b.card, rfl, h, rfl, h1, h2⟩

/-- The loop of READ(10) from a coherent cache sends the blocks of the card. -/
theorem exec_read10Loop {n count fin : ℕ} (streaming : Bool) (hfin : fin ≤ count) (hcount : count ≤ n) (fuel : ℕ)
    (cache : BlockCache) (current residue : ℕ) (b : Bus D) (h : Serves dev image n b)
    (hcache : cache.Coherent (image b.card)) (hle : current ≤ fin) (hfuel : fin - current ≤ fuel) :
    ∃ cache' card' stats, Bus.exec dev (read10Loop count fin streaming fuel cache current residue) b =
        some (((residue - (fin - current) * BLOCK_LEN, .passed), cache'),
          { b with card := card', shared := { b.shared with stats },
                   inQueue := b.inQueue ++
                     dataPackets ((window (image b.card) current (fin - current)).flatMap Block.bytes) }) ∧
      dev.numBlocks card' = some n ∧ image card' = image b.card ∧ cache'.Coherent (image b.card) := by
  induction fuel generalizing cache current residue b with
  | zero =>
    have heq : fin - current = 0 := by omega
    exact ⟨cache, b.card, b.shared.stats, by simp [read10Loop, heq, dataPackets], h.numBlocks, rfl, hcache⟩
  | succ fuel ih =>
    rw [read10Loop]
    by_cases hlt : current < fin
    · obtain ⟨index, hit, cache1, card1, hlook, h1, himage, hcache1, hcontains⟩ :=
        exec_lookup streaming h hcache (hlt.trans_le hfin) hcount
      obtain ⟨hnext, hpos, hend⟩ := line_bounds hcontains hlt
      have hslice := line_slice (hcache1 index) fin hcontains
      simp only [if_pos hlt, exec_bind, hlook, Option.bind_some, exec_sendBlocks, exec_modifyShared, hslice, hnext]
      generalize min (fin - (cache1.lines index).start) (cache1.lines index).len - (current - (cache1.lines index).start) =
        moved at *
      obtain ⟨cache2, card2, stats2, hrun, hnum, himage2, hcache2⟩ := ih cache1 (current + moved)
        (residue - (window (image b.card) current moved).length * BLOCK_LEN)
        { b with card := card1, shared := { b.shared with stats := b.shared.stats.countRead moved hit },
                 inQueue := b.inQueue ++ dataPackets ((window (image b.card) current moved).flatMap Block.bytes) }
        ⟨h.lawful, h.succeeds, h.backend, h1.numBlocks⟩ (by simpa only [himage] using hcache1) (by omega) (by omega)
      refine ⟨cache2, card2, stats2, ?_, hnum, by rw [himage2, himage], by simpa only [himage] using hcache2⟩
      have hsplit : window (image b.card) current (fin - current) =
          window (image b.card) current moved ++ window (image b.card) (current + moved) (fin - (current + moved)) := by
        rw [← window_add]
        congr 1
        omega
      have hres : residue - moved * BLOCK_LEN - (fin - (current + moved)) * BLOCK_LEN =
          residue - (fin - current) * BLOCK_LEN := by
        rw [Nat.sub_sub, ← Nat.add_mul]
        congr 2
        omega
      rw [hrun, hsplit, dataPackets_blocks_append, himage, List.append_assoc, length_window, hres]
    · have heq : fin - current = 0 := by omega
      exact ⟨cache, b.card, b.shared.stats, by simp [hlt, heq, dataPackets], h.numBlocks, rfl, hcache⟩

/-- No blocks left means no data left, and nothing of it on the queue. -/
theorem queue_of_no_blocks {data : List UInt8} {count : ℕ} {queue rest : List Packet} (h0 : count = 0)
    (hdata : data.length = count * BLOCK_LEN) (hq : queue = dataPackets data ++ rest) : data = [] ∧ queue = rest := by
  have hnil : data = [] := List.length_eq_zero_iff.mp (by rw [hdata, h0, Nat.zero_mul])
  exact ⟨hnil, by simpa [hnil, dataPackets] using hq⟩

/-- The loop of WRITE(10) from a coherent cache stores the host's blocks and leaves the cache coherent. -/
theorem exec_write10Loop {n fin : ℕ} (hfin : fin ≤ n) (rest : List Packet) (fuel : ℕ) (cache : BlockCache)
    (current residue : ℕ) (data : List UInt8) (b : Bus D) (h : Serves dev image n b)
    (hcache : cache.Coherent (image b.card)) (hle : current ≤ fin) (hfuel : fin - current ≤ fuel)
    (hdata : data.length = (fin - current) * BLOCK_LEN) (hq : b.outQueue = dataPackets data ++ rest) :
    ∃ cache' card' stats, Bus.exec dev (write10Loop fin fuel cache current residue) b =
        some (((residue - (fin - current) * BLOCK_LEN, .passed), cache'),
          { b with card := card', shared := { b.shared with stats }, outQueue := rest }) ∧
      dev.numBlocks card' = some n ∧ image card' = patch (image b.card) current (blocksOf data) ∧
      cache'.Coherent (image card') := by
  induction fuel generalizing cache current residue data b with
  | zero =>
    have h0 : fin - current = 0 := by omega
    obtain ⟨rfl, rfl⟩ := queue_of_no_blocks h0 hdata hq
    exact ⟨cache, b.card, b.shared.stats, by simp [write10Loop, h0], h.numBlocks, by simp [blocksOf], hcache⟩
  | succ fuel ih =>
    rw [write10Loop]
    by_cases hlt : current < fin
    · have hcount : 0 < min (fin - current) LINE_BLOCKS := by simp only [LINE_BLOCKS]; omega
      have hmin : min (fin - current) LINE_BLOCKS ≤ fin - current := Nat.min_le_left ..
      simp only [if_pos hlt]
      generalize min (fin - current) LINE_BLOCKS = count at *
      have hhead : (data.take (count * BLOCK_LEN)).length = count * BLOCK_LEN := by
        rw [List.length_take, hdata]
        exact Nat.min_eq_left (Nat.mul_le_mul_right _ hmin)
      have htail : (data.drop (count * BLOCK_LEN)).length = (fin - (current + count)) * BLOCK_LEN := by
        rw [List.length_drop, hdata, ← Nat.sub_mul, Nat.sub_sub]
      have hq' := hq
      rw [← List.take_append_drop (count * BLOCK_LEN) data, dataPackets_append _ (by
        rw [hhead]; exact Nat.dvd_mul_left_of_dvd (by decide) _), List.append_assoc] at hq'
      have hblocks := length_blocksOf hhead
      have hstage : ((cache.stage (blocksOf (data.take (count * BLOCK_LEN)))).lines STREAM_LINE).data.take count =
          blocksOf (data.take (count * BLOCK_LEN)) := by
        rw [BlockCache.stage, setLine_self]
        exact List.take_left' hblocks
      have hinvalid : ((cache.stage (blocksOf (data.take (count * BLOCK_LEN)))).lines STREAM_LINE).valid = false := by
        rw [BlockCache.stage, setLine_self]
      have hwrite := Serves.exec_blockWrite (b := { b with outQueue := dataPackets (data.drop (count * BLOCK_LEN)) ++ rest })
        ⟨h.lawful, h.succeeds, h.backend, h.numBlocks⟩ current (blocksOf (data.take (count * BLOCK_LEN))) (by omega)
      have himage := h.lawful.write_true b.card current (blocksOf (data.take (count * BLOCK_LEN)))
        (h.succeeds.write _ n _ _ h.numBlocks (by omega))
      have hcache' := coherent_updateFromStream (coherent_stage hcache (blocksOf (data.take (count * BLOCK_LEN)))) hinvalid
        current count
      rw [hstage, ← himage] at hcache'
      obtain ⟨cache2, card2, stats2, hrun, hnum, himage2, hcache2⟩ := ih _ (current + count) (residue - count * BLOCK_LEN)
        (data.drop (count * BLOCK_LEN))
        { b with card := (dev.write b.card current (blocksOf (data.take (count * BLOCK_LEN)))).2,
                 shared := { b.shared with
                   stats := { b.shared.stats with writeBlocks := (b.shared.stats.writeBlocks + count) % 2 ^ 32 } },
                 outQueue := dataPackets (data.drop (count * BLOCK_LEN)) ++ rest }
        ⟨h.lawful, h.succeeds, h.backend, by rw [h.lawful.write_numBlocks, h.numBlocks]⟩ hcache' (by omega) (by omega) htail
        rfl
      have hres : residue - count * BLOCK_LEN - (fin - (current + count)) * BLOCK_LEN =
          residue - (fin - current) * BLOCK_LEN := by
        rw [Nat.sub_sub, ← Nat.add_mul]
        congr 2
        omega
      refine ⟨cache2, card2, stats2, ?_, hnum, ?_, hcache2⟩
      · simp only [exec_bind, exec_readBlocks count hhead _ b hq', Option.bind_some, exec_borrow, hstage]
        simp only at hwrite
        simp only [hwrite, Option.bind_some, Bool.not_true, Bool.false_eq_true, if_false, exec_bind, exec_modifyShared]
        rw [hrun, hres]
      · have hsplit : blocksOf data =
            blocksOf (data.take (count * BLOCK_LEN)) ++ blocksOf (data.drop (count * BLOCK_LEN)) := by
          rw [← blocksOf_append hhead, List.take_append_drop]
        rw [himage2, himage, hsplit, ← patch_patch_append, hblocks]
    · have h0 : fin - current = 0 := by omega
      obtain ⟨rfl, rfl⟩ := queue_of_no_blocks h0 hdata hq
      exact ⟨cache, b.card, b.shared.stats, by simp [hlt, h0], h.numBlocks, by simp [blocksOf], hcache⟩

/-! ## The device without a cache -/

/-- Without a cache, the loop of READ(10) sends the blocks of the card. -/
theorem exec_uncached_readLoop {n fin : ℕ} (hfin : fin ≤ n) (fuel current residue : ℕ) (b : Bus D)
    (h : Serves dev image n b) (hle : current ≤ fin) (hfuel : fin - current ≤ fuel) :
    ∃ card', Bus.exec dev (Uncached.readLoop fin fuel current residue) b =
        some ((residue - (fin - current) * BLOCK_LEN, .passed),
          { b with card := card', inQueue := b.inQueue ++
                     dataPackets ((window (image b.card) current (fin - current)).flatMap Block.bytes) }) ∧
      dev.numBlocks card' = some n ∧ image card' = image b.card := by
  induction fuel generalizing current residue b with
  | zero =>
    have h0 : fin - current = 0 := by omega
    exact ⟨b.card, by simp [Uncached.readLoop, h0, dataPackets], h.numBlocks, rfl⟩
  | succ fuel ih =>
    rw [Uncached.readLoop]
    by_cases hlt : current < fin
    · have hread := h.exec_blockRead current 1 (by omega)
      have himage := h.lawful.read_image b.card current 1
      simp only [if_pos hlt, exec_bind, exec_borrow, Option.bind_some, hread, exec_sendBlocks]
      obtain ⟨card2, hrun, hnum, himage2⟩ := ih (current + 1)
        (residue - (window (image b.card) current 1).length * BLOCK_LEN)
        { b with card := (dev.read b.card current 1).2,
                 inQueue := b.inQueue ++ dataPackets ((window (image b.card) current 1).flatMap Block.bytes) }
        ⟨h.lawful, h.succeeds, h.backend, by rw [h.lawful.read_numBlocks, h.numBlocks]⟩ (by omega) (by omega)
      have hcount : fin - current = 1 + (fin - (current + 1)) := by omega
      refine ⟨card2, ?_, hnum, by rw [himage2, himage]⟩
      rw [hrun, hcount, window_add, dataPackets_blocks_append, himage, List.append_assoc, length_window, Nat.sub_sub,
        ← Nat.add_mul]
    · have h0 : fin - current = 0 := by omega
      exact ⟨b.card, by simp [hlt, h0, dataPackets], h.numBlocks, rfl⟩

/-- Without a cache, the loop of WRITE(10) stores the host's blocks. -/
theorem exec_uncached_writeLoop {n fin : ℕ} (hfin : fin ≤ n) (rest : List Packet) (fuel current residue : ℕ)
    (data : List UInt8) (b : Bus D) (h : Serves dev image n b) (hle : current ≤ fin) (hfuel : fin - current ≤ fuel)
    (hdata : data.length = (fin - current) * BLOCK_LEN) (hq : b.outQueue = dataPackets data ++ rest) :
    ∃ card', Bus.exec dev (Uncached.writeLoop fin fuel current residue) b =
        some ((residue - (fin - current) * BLOCK_LEN, .passed), { b with card := card', outQueue := rest }) ∧
      dev.numBlocks card' = some n ∧ image card' = patch (image b.card) current (blocksOf data) := by
  induction fuel generalizing current residue data b with
  | zero =>
    have h0 : fin - current = 0 := by omega
    obtain ⟨rfl, rfl⟩ := queue_of_no_blocks h0 hdata hq
    exact ⟨b.card, by simp [Uncached.writeLoop, h0], h.numBlocks, by simp [blocksOf]⟩
  | succ fuel ih =>
    rw [Uncached.writeLoop]
    by_cases hlt : current < fin
    · have hhead : (data.take BLOCK_LEN).length = 1 * BLOCK_LEN := by
        rw [List.length_take, hdata, Nat.one_mul]
        exact Nat.min_eq_left (Nat.le_mul_of_pos_left _ (by omega))
      have htail : (data.drop BLOCK_LEN).length = (fin - (current + 1)) * BLOCK_LEN := by
        rw [List.length_drop, hdata, ← Nat.sub_sub, Nat.sub_mul (fin - current) 1, Nat.one_mul]
      have hq' := hq
      rw [← List.take_append_drop BLOCK_LEN data, dataPackets_append _ (by rw [hhead]; decide), List.append_assoc] at hq'
      have hblocks := length_blocksOf hhead
      have hwrite := Serves.exec_blockWrite (b := { b with outQueue := dataPackets (data.drop BLOCK_LEN) ++ rest })
        ⟨h.lawful, h.succeeds, h.backend, h.numBlocks⟩ current (blocksOf (data.take BLOCK_LEN)) (by omega)
      have himage := h.lawful.write_true b.card current (blocksOf (data.take BLOCK_LEN))
        (h.succeeds.write _ n _ _ h.numBlocks (by omega))
      obtain ⟨card2, hrun, hnum, himage2⟩ := ih (current + 1) (residue - BLOCK_LEN) (data.drop BLOCK_LEN)
        { b with card := (dev.write b.card current (blocksOf (data.take BLOCK_LEN))).2,
                 outQueue := dataPackets (data.drop BLOCK_LEN) ++ rest }
        ⟨h.lawful, h.succeeds, h.backend, by rw [h.lawful.write_numBlocks, h.numBlocks]⟩ (by omega) (by omega) htail rfl
      have hcount : fin - current = 1 + (fin - (current + 1)) := by omega
      refine ⟨card2, ?_, hnum, ?_⟩
      · simp only at hwrite
        simp only [if_pos hlt, exec_bind, exec_readBlocks 1 hhead _ b hq', Option.bind_some, exec_borrow, hwrite, Bool.not_true,
          Bool.false_eq_true, if_false]
        rw [hrun, hcount, Nat.add_mul, Nat.one_mul, Nat.sub_sub]
      · have hsplit : blocksOf data = blocksOf (data.take BLOCK_LEN) ++ blocksOf (data.drop BLOCK_LEN) := by
          rw [← blocksOf_append hhead, List.take_append_drop]
        rw [himage2, himage, hsplit, ← patch_patch_append, hblocks]
    · have h0 : fin - current = 0 := by omega
      obtain ⟨rfl, rfl⟩ := queue_of_no_blocks h0 hdata hq
      exact ⟨b.card, by simp [hlt, h0], h.numBlocks, by simp [blocksOf]⟩

end MscAux

end Ratputer
