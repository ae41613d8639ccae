import Ratputer.Bot
import Ratputer.Lemmas.MscCache

/-!
# The phases of one command

What a command leaves on the endpoints: the packets of its IN data phase, read as the host reads them, and the OUT packets it
has not read.
-/

namespace Ratputer

open Chunks

namespace MscAux

variable {D : Type} {dev : BlockDevice D}

/-! ## Caches whose lines are as long as they say -/

/-- A good line keeps the cache good. -/
theorem wellFormed_setLine {c : BlockCache} (h : c.WellFormed) (index : LineIndex) {line : Line}
    (hl : line.valid = true → line.len ≤ line.data.length) : (c.setLine index line).WellFormed := by
  intro i
  rcases eq_or_ne i index with rfl | hne
  · rw [setLine_self]
    exact hl
  · rw [setLine_of_ne c line hne]
    exact h i

/-- Using a line keeps the cache good. -/
theorem wellFormed_touch {c : BlockCache} (h : c.WellFormed) (index : LineIndex) : (c.touch index).WellFormed :=
  wellFormed_setLine (c := { c with clock := _ }) h index (h index)

/-- Dropping a line keeps the cache good. -/
theorem wellFormed_drop {c : BlockCache} (h : c.WellFormed) (index : LineIndex) : (c.drop index).WellFormed :=
  wellFormed_setLine h index nofun

/-- A line that is filled has the blocks it was filled with. -/
theorem wellFormed_fill {c : BlockCache} (h : c.WellFormed) (index : LineIndex) (start : ℕ) (blocks : List Block) :
    (c.fill index start blocks.length blocks).WellFormed := by
  apply wellFormed_touch
  apply wellFormed_setLine h
  intro _
  simp only [List.length_append]
  omega

/-- A cache that was dropped has no bad line. -/
theorem wellFormed_invalidate (c : BlockCache) : c.invalidate.WellFormed := nofun

/-- A new medium drops the cache, an old one leaves it. -/
theorem wellFormed_refresh {cls : MscClass} (h : cls.cache.WellFormed) (generation : ℕ) :
    (cls.refresh generation).cache.WellFormed := by
  unfold MscClass.refresh
  split
  · exact wellFormed_invalidate _
  · exact h

/-- A line that is found has the block. -/
theorem find_wellFormed {c c' : BlockCache} (h : c.WellFormed) {lba : ℕ} {index : LineIndex}
    (hf : c.find lba = some (index, c')) : c'.WellFormed ∧ (c'.lines index).contains lba = true := by
  obtain ⟨i, hi, heq⟩ := Option.map_eq_some_iff.mp hf
  obtain ⟨rfl, rfl⟩ := Prod.mk.inj heq
  have hc := List.find?_some hi
  exact ⟨wellFormed_touch h i, by rw [touch_lines_contains]; exact hc⟩

/-- A write keeps which blocks a line has. -/
theorem updateLine_tag (line : Line) (lba : ℕ) (blocks : List Block) :
    (BlockCache.updateLine line lba blocks).valid = line.valid ∧ (BlockCache.updateLine line lba blocks).len = line.len ∧
      (BlockCache.updateLine line lba blocks).data.length = line.data.length := by
  induction blocks generalizing line lba with
  | nil => exact ⟨rfl, rfl, rfl⟩
  | cons block blocks ih =>
    rw [BlockCache.updateLine]
    split
    · obtain ⟨h1, h2, h3⟩ := ih { line with data := line.data.set (lba - line.start) block } (lba + 1)
      exact ⟨h1, h2, by rw [h3, List.length_set]⟩
    · exact ih line (lba + 1)

/-- A write keeps the cache good. -/
theorem wellFormed_updateFromStream {c : BlockCache} (h : c.WellFormed) (lba count : ℕ) :
    (c.updateFromStream lba count).WellFormed := by
  intro i
  rcases eq_or_ne i STREAM_LINE with rfl | hne
  · simp only [BlockCache.updateFromStream, if_true]
    exact h _
  · obtain ⟨h1, h2, h3⟩ := updateLine_tag (c.lines i) lba ((c.lines STREAM_LINE).data.take count)
    simp only [BlockCache.updateFromStream, if_neg hne, h1, h2, h3]
    exact h i

/-! ## The IN data phase of the host -/

/-- Full packets that make up the data phase are read, and what is behind them stays. -/
theorem dataPhase_full (packets rest : List Packet) (h : ∀ p ∈ packets, p.bytes.length = BULK_PACKET_SIZE) :
    dataPhase (packets.length * BULK_PACKET_SIZE) (packets ++ rest) = rest := by
  induction packets with
  | nil =>
    rcases rest with _ | ⟨p, rest⟩
    · rfl
    · simp [dataPhase]
  | cons p packets ih =>
    have hp := h p (List.mem_cons_self ..)
    have hn : (p :: packets).length * BULK_PACKET_SIZE ≠ 0 := by simp [BULK_PACKET_SIZE]
    rw [List.cons_append, dataPhase, if_neg hn, if_neg (by omega), hp, List.length_cons, Nat.succ_mul, Nat.add_sub_cancel]
    exact ih fun q hq => h q (List.mem_cons_of_mem _ hq)

/-- The packets of blocks are read in full by a host that asked for these blocks. -/
theorem dataPhase_blocks (blocks : List Block) (rest : List Packet) :
    dataPhase (blocks.length * BLOCK_LEN) (dataPackets (blocks.flatMap Block.bytes) ++ rest) = rest := by
  have hfull : ∀ p ∈ dataPackets (blocks.flatMap Block.bytes), p.bytes.length = BULK_PACKET_SIZE := by
    intro p hp
    obtain ⟨c, hc, rfl⟩ := List.mem_map.mp hp
    exact length_of_mem_chunks_of_dvd (by decide) (dvd_flatMap_bytes blocks) c hc
  have hlen : (dataPackets (blocks.flatMap Block.bytes)).length * BULK_PACKET_SIZE = blocks.length * BLOCK_LEN := by
    rw [dataPackets, List.length_map, chunks, List.length_map, List.length_range, length_flatMap_bytes]
    simp only [BLOCK_LEN, BULK_PACKET_SIZE]
    omega
  rw [← hlen]
  exact dataPhase_full _ rest hfull

/-- An answer of less than a packet is read by a host that asked for data, whatever the length it asked for. -/
theorem dataPhase_sentPackets {cbw : Cbw} {data : List UInt8} (hd : cbw.direction = .in_) (hpos : 0 < data.length)
    (hlt : data.length < BULK_PACKET_SIZE) (hn : cbw.transferLen ≠ 0) (rest : List Packet) :
    dataPhase cbw.transferLen (sentPackets cbw data ++ rest) = rest := by
  have hout : ¬ (cbw.direction ≠ .in_ ∧ cbw.transferLen ≠ 0) := by simp [hd]
  have hlen : (data.take (min data.length cbw.transferLen)).length = min data.length cbw.transferLen := by
    rw [List.length_take]
    omega
  have hne : data.take (min data.length cbw.transferLen) ≠ [] := by
    intro h0
    rw [h0, List.length_nil] at hlen
    omega
  have hone : dataPackets (data.take (min data.length cbw.transferLen)) =
      [⟨.data, data.take (min data.length cbw.transferLen)⟩] := by
    rw [dataPackets, chunks_of_ne_nil (by decide) hne, List.take_of_length_le (by omega),
      List.drop_of_length_le (by omega), chunks_nil]
    rfl
  have hzlp : ¬ (min data.length cbw.transferLen < cbw.transferLen ∧ min data.length cbw.transferLen % BULK_PACKET_SIZE = 0) := by
    simp only [BULK_PACKET_SIZE] at *
    omega
  simp only [sentPackets, if_neg hout, hone, if_neg hzlp, List.append_nil, List.singleton_append, dataPhase, if_neg hn,
    hlen, if_pos (show min data.length cbw.transferLen < BULK_PACKET_SIZE by omega)]

/-- A host that asked for no data gets none. -/
theorem sentPackets_of_zero {cbw : Cbw} (hn : cbw.transferLen = 0) (data : List UInt8) : sentPackets cbw data = [] := by
  simp [sentPackets, hn, dataPackets]

/-- An answer, if there is one, has data and less than a packet of it. -/
def Short (data : Option (List UInt8)) : Prop := ∀ d ∈ data, 0 < d.length ∧ d.length < BULK_PACKET_SIZE

/-- No data is a short answer. -/
theorem short_none : Short none := nofun

/-- Data below a packet's size is one. -/
theorem short_some {d : List UInt8} (h : 0 < d.length ∧ d.length < BULK_PACKET_SIZE) : Short (some d) := by
  rintro _ ⟨⟩
  exact h

/-- Both branches are short. -/
theorem short_ite {c : Prop} [Decidable c] {data data' : Option (List UInt8)} (h : Short data) (h' : Short data') :
    Short (if c then data else data') := by
  split
  · exact h
  · exact h'

/-- Whatever page INQUIRY asks for, the answer is short. -/
theorem short_inquiryData (evpd : Bool) (page : UInt8) : Short (inquiryData evpd page) := by
  unfold inquiryData
  exact short_ite (short_ite short_none (short_some (by decide))) (short_ite (short_some (by decide))
    (short_ite (short_some (by decide)) (short_ite (short_some (by decide)) short_none)))

/-- Every answer is short. -/
theorem short_answer (cbw : Cbw) (s : SharedState) : Short (answer cbw s) := by
  have hlen : ∀ {data : List UInt8}, 0 < data.length → data.length < 64 → Short (some data) :=
    fun h1 h2 => short_some ⟨h1, h2⟩
  unfold answer
  refine short_ite short_none (short_ite (hlen ?_ ?_) (short_ite (short_inquiryData _ _) (short_ite (hlen ?_ ?_)
    (short_ite (hlen ?_ ?_) (short_ite short_none (short_ite short_none (short_ite (hlen ?_ ?_)
    (short_ite (short_ite short_none (hlen ?_ ?_)) (short_ite (short_ite short_none (hlen ?_ ?_))
    (short_ite (hlen ?_ ?_) short_none))))))))))
  all_goals simp [Sense.bytes]

/-! ## READ(10) and WRITE(10) -/

/-- The loop of READ(10), while the backend delivers, sends as many blocks as it was asked for. -/
theorem exec_read10Loop_of_fetches (hf : FillsBuffer dev) {count fin : ℕ} (streaming : Bool) (hfin : fin ≤ count)
    (fuel : ℕ) (cache : BlockCache) (current residue : ℕ) (b : Bus D) (hcache : cache.WellFormed) (hle : current ≤ fin)
    (hfuel : fin - current ≤ fuel) (h : Fetches dev b.shared.backend count fin streaming fuel cache b.card current) :
    ∃ result cache' card' stats, ∃ blocks : List Block,
      Bus.exec dev (read10Loop count fin streaming fuel cache current residue) b =
        some ((result, cache'), { b with card := card', shared := { b.shared with stats },
                                         inQueue := b.inQueue ++ dataPackets (blocks.flatMap Block.bytes) }) ∧
      blocks.length = fin - current ∧ cache'.WellFormed := by
  induction fuel generalizing cache current residue b with
  | zero =>
    have h0 : fin - current = 0 := by omega
    exact ⟨_, cache, b.card, b.shared.stats, [], by simp [read10Loop, dataPackets]; rfl, h0.symm, hcache⟩
  | succ fuel ih =>
    by_cases hlt : current < fin
    · -- Either way the lookup gives a line that contains the block, and the rest of the loop fetches from there.
      have hlookup : ∃ index hit cache1 card1, Bus.exec dev (lookup cache count current streaming) b =
            some ((some (index, hit), cache1), { b with card := card1 }) ∧
          cache1.WellFormed ∧ (cache1.lines index).contains current = true ∧
          Fetches dev b.shared.backend count fin streaming fuel cache1 card1 ((cache1.lines index).next fin) := by
        have h := h hlt
        rw [lookup]
        rcases hfind : cache.find current with _ | ⟨index, cache1⟩
        · rw [hfind] at h
          obtain ⟨hback, blocks, hread, hrest⟩ := h
          have hblocks := hf _ _ _ _ hread
          have hexec : Bus.exec dev (blockRead b.shared.backend (current / LINE_BLOCKS * LINE_BLOCKS)
              (min LINE_BLOCKS (count - current / LINE_BLOCKS * LINE_BLOCKS))) b =
              some (some blocks, { b with card := (dev.read b.card (current / LINE_BLOCKS * LINE_BLOCKS)
                (min LINE_BLOCKS (count - current / LINE_BLOCKS * LINE_BLOCKS))).2 }) := by
            rcases hb : b.shared.backend with _ | context
            · exact absurd hb hback
            · rw [blockRead, exec_perform, Bus.handle, hread]
          simp only [exec_bind, exec_borrow, Option.bind_some, hexec, exec_pure]
          refine ⟨_, _, _, _, rfl, ?_, ?_, hrest⟩
          · have hfill := wellFormed_fill (wellFormed_drop hcache (cache.victim streaming)) (cache.victim streaming)
              (current / LINE_BLOCKS * LINE_BLOCKS) blocks
            rwa [hblocks] at hfill
          · exact fill_contains _ _ _ (by simp only [LINE_BLOCKS]; omega) (by simp only [LINE_BLOCKS]; omega)
        · rw [hfind] at h
          obtain ⟨h1, h2⟩ := find_wellFormed hcache hfind
          exact ⟨index, true, cache1, b.card, rfl, h1, h2, h⟩
      obtain ⟨index, hit, cache1, card1, hlook, hcache1, hcontains, hrest⟩ := hlookup
      obtain ⟨hnext, hpos, hend⟩ := line_bounds hcontains hlt
      have hslice : (((cache1.lines index).data.drop (current - (cache1.lines index).start)).take
          (min (fin - (cache1.lines index).start) (cache1.lines index).len - (current - (cache1.lines index).start))).length =
          min (fin - (cache1.lines index).start) (cache1.lines index).len - (current - (cache1.lines index).start) := by
        have hvalid : (cache1.lines index).valid = true := by
          simp only [Line.contains, Bool.and_eq_true] at hcontains
          exact hcontains.1.1
        have hlen := hcache1 index hvalid
        rw [List.length_take, List.length_drop]
        omega
      rw [Line.next, hnext] at hrest
      rw [read10Loop, if_pos hlt]
      simp only [exec_bind, hlook, Option.bind_some, exec_sendBlocks, exec_modifyShared, hnext]
      generalize ((cache1.lines index).data.drop (current - (cache1.lines index).start)).take
          (min (fin - (cache1.lines index).start) (cache1.lines index).len - (current - (cache1.lines index).start)) =
        sent at *
      generalize min (fin - (cache1.lines index).start) (cache1.lines index).len - (current - (cache1.lines index).start) =
        moved at *
      obtain ⟨result, cache2, card2, stats2, blocks, hrun, hblocks, hcache2⟩ := ih cache1 (current + moved)
        (residue - sent.length * BLOCK_LEN)
        { b with card := card1, shared := { b.shared with stats := b.shared.stats.countRead moved hit },
                 inQueue := b.inQueue ++ dataPackets (sent.flatMap Block.bytes) } hcache1 (by omega) (by omega) hrest
      refine ⟨result, cache2, card2, stats2, sent ++ blocks, ?_, ?_, hcache2⟩
      · rw [hrun, dataPackets_blocks_append, List.append_assoc]
      · rw [List.length_append, hslice, hblocks]
        omega
    · have h0 : fin - current = 0 := by omega
      exact ⟨_, cache, b.card, b.shared.stats, [], by simp [read10Loop, hlt, dataPackets]; rfl, h0.symm, hcache⟩

/-- A backend write answers, whether it stores or not. -/
theorem exec_blockWrite (dev : BlockDevice D) (backend : Backend) (lba : ℕ) (blocks : List Block) (b : Bus D) :
    ∃ written card', Bus.exec dev (blockWrite backend lba blocks) b = some (written, { b with card := card' }) := by
  rw [blockWrite, exec_perform]
  rcases backend with _ | context
  · exact ⟨false, b.card, rfl⟩
  · exact ⟨_, _, rfl⟩

/-- The loop of WRITE(10) reads all of its data phase, whatever the backend stores. -/
theorem exec_write10Loop_drains (fin fuel : ℕ) (cache : BlockCache) (current residue : ℕ) (data : List UInt8) (b : Bus D)
    (hcache : cache.WellFormed) (hle : current ≤ fin) (hfuel : fin - current ≤ fuel)
    (hdata : data.length = (fin - current) * BLOCK_LEN) (hres : residue = data.length)
    (hq : b.outQueue = dataPackets data ++ []) :
    ∃ result cache' shared card', Bus.exec dev (write10Loop fin fuel cache current residue) b =
        some ((result, cache'), { b with shared, card := card', outQueue := [] }) ∧ cache'.WellFormed := by
  induction fuel generalizing cache current residue data b with
  | zero =>
    obtain ⟨rfl, hnil⟩ := queue_of_no_blocks (by omega) hdata hq
    exact ⟨_, cache, b.shared, b.card, by rw [← hnil]; rfl, hcache⟩
  | succ fuel ih =>
    rw [write10Loop]
    by_cases hlt : current < fin
    · have hmin : min (fin - current) LINE_BLOCKS ≤ fin - current := Nat.min_le_left ..
      have hpos : 0 < min (fin - current) LINE_BLOCKS := by simp only [LINE_BLOCKS]; omega
      simp only [if_pos hlt]
      generalize min (fin - current) LINE_BLOCKS = count at *
      have hhead : (data.take (count * BLOCK_LEN)).length = count * BLOCK_LEN := by
        rw [List.length_take, hdata]
        exact Nat.min_eq_left (Nat.mul_le_mul_right _ hmin)
      have htail : (data.drop (count * BLOCK_LEN)).length = (fin - (current + count)) * BLOCK_LEN := by
        rw [List.length_drop, hdata, ← Nat.sub_mul, Nat.sub_sub]
      have hrest : residue - count * BLOCK_LEN = (data.drop (count * BLOCK_LEN)).length := by
        rw [hres, List.length_drop]
      rw [← List.take_append_drop (count * BLOCK_LEN) data, dataPackets_append _ (by
        rw [hhead]; exact Nat.dvd_mul_left_of_dvd (by decide) _), List.append_assoc] at hq
      have hstage : (cache.stage (blocksOf (data.take (count * BLOCK_LEN)))).WellFormed :=
        wellFormed_setLine hcache _ fun hvalid => absurd hvalid Bool.false_ne_true
      simp only [exec_bind, exec_readBlocks count hhead _ b hq, Option.bind_some, exec_borrow]
      obtain ⟨written, card1, hwrite⟩ := exec_blockWrite dev b.shared.backend current
        (((cache.stage (blocksOf (data.take (count * BLOCK_LEN)))).lines STREAM_LINE).data.take count)
        { b with outQueue := dataPackets (data.drop (count * BLOCK_LEN)) ++ [] }
      rw [hwrite, Option.bind_some]
      cases written with
      | false =>
        simp only [Bool.not_false, if_true, exec_bind, exec_modifyShared, Option.bind_some, hrest]
        rw [exec_discardOut _ [] _ rfl]
        exact ⟨_, _, _, card1, rfl, hstage⟩
      | true =>
        simp only [Bool.not_true, Bool.false_eq_true, if_false, exec_bind, exec_modifyShared, Option.bind_some]
        exact ih _ (current + count) (residue - count * BLOCK_LEN) (data.drop (count * BLOCK_LEN)) _
          (wellFormed_updateFromStream hstage _ _) (by omega) (by omega) htail hrest rfl
    · obtain ⟨rfl, hnil⟩ := queue_of_no_blocks (by omega) hdata hq
      exact ⟨_, cache, b.shared, b.card, by rw [if_neg hlt, ← hnil]; rfl, hcache⟩

end MscAux

end Ratputer
