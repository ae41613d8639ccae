import Ratputer.Lemmas.MscPhases

/-!
# READ(10) and WRITE(10) over a backend that fails

The loops of READ(10) and WRITE(10) when any call of the backend may fail: how far they come, what they report, and what the
card and the cache hold then.
-/

namespace Ratputer

open Chunks Patch

variable {D : Type} {dev : BlockDevice D} {image : D → ℕ → Block}

namespace MscAux

/-! ## READ(10) -/

/-- The backend does not deliver the blocks. -/
def Refuses (dev : BlockDevice D) (backend : Backend) (card : D) (start len : ℕ) : Prop :=
  backend = .none ∨ (dev.read card start len).1 = none

/-- What reads leave of a card and a cache in front of it. -/
structure Kept (dev : BlockDevice D) (image : D → ℕ → Block) (cache : BlockCache) (card : D) (cache' : BlockCache)
    (card' : D) : Prop where
  image_eq : image card' = image card
  numBlocks_eq : dev.numBlocks card' = dev.numBlocks card
  wellFormed : cache.WellFormed → cache'.WellFormed
  coherent : cache.Coherent (image card) → cache'.Coherent (image card)

theorem Kept.refl (cache : BlockCache) (card : D) : Kept dev image cache card cache card := ⟨rfl, rfl, id, id⟩

/-- Two steps that keep cached blocks true. -/
theorem Kept.trans {cache cache' cache'' : BlockCache} {card card' card'' : D}
    (h : Kept dev image cache card cache' card') (h' : Kept dev image cache' card' cache'' card'') :
    Kept dev image cache card cache'' card'' where
  image_eq := h'.image_eq.trans h.image_eq
  numBlocks_eq := h'.numBlocks_eq.trans h.numBlocks_eq
  wellFormed hw := h'.wellFormed (h.wellFormed hw)
  coherent hc := h.image_eq ▸ h'.coherent (h.image_eq.symm ▸ h.coherent hc)

/-- A backend read delivers the blocks of the card, or refuses. -/
theorem exec_blockRead_cases (law : dev.Lawful image) (b : Bus D) (start len : ℕ) :
    (∃ card', Bus.exec dev (blockRead b.shared.backend start len) b =
        some (some (window (image b.card) start len), { b with card := card' }) ∧
      image card' = image b.card ∧ dev.numBlocks card' = dev.numBlocks b.card) ∨
    ∃ card', Bus.exec dev (blockRead b.shared.backend start len) b = some (none, { b with card := card' }) ∧
      image card' = image b.card ∧ dev.numBlocks card' = dev.numBlocks b.card ∧
      Refuses dev b.shared.backend b.card start len := by
  rw [blockRead, exec_perform]
  rcases hb : b.shared.backend with _ | context
  · exact Or.inr ⟨b.card, rfl, rfl, rfl, Or.inl rfl⟩
  · rcases hr : (dev.read b.card start len).1 with _ | blocks
    · exact Or.inr ⟨_, by rw [Bus.handle, hr], law.read_image .., law.read_numBlocks .., Or.inr hr⟩
    · exact Or.inl ⟨_, by rw [Bus.handle, hr, law.read_some _ _ _ _ hr], law.read_image .., law.read_numBlocks ..⟩

/-- A lookup gives a line that contains the block, or fails because the backend refuses the block's line. -/
theorem exec_lookup_cases (law : dev.Lawful image) (cache : BlockCache) {count current : ℕ} (streaming : Bool) (b : Bus D)
    (hcur : current < count) :
    (∃ index hit cache' card', Bus.exec dev (lookup cache count current streaming) b =
        some ((some (index, hit), cache'), { b with card := card' }) ∧
      Kept dev image cache b.card cache' card' ∧ (cache'.lines index).contains current = true) ∨
    ∃ cache' card' sense, Bus.exec dev (lookup cache count current streaming) b =
        some ((none, cache'), { b with card := card', shared := { b.shared with sense } }) ∧
      Kept dev image cache b.card cache' card' ∧
      Refuses dev b.shared.backend b.card (current / LINE_BLOCKS * LINE_BLOCKS)
        (min LINE_BLOCKS (count - current / LINE_BLOCKS * LINE_BLOCKS)) := by
  rw [lookup]
  rcases hfind : cache.find current with _ | ⟨index, cache'⟩
  · simp only [exec_bind, exec_borrow, Option.bind_some]
    have hstart : current / LINE_BLOCKS * LINE_BLOCKS ≤ current ∧ current < current / LINE_BLOCKS * LINE_BLOCKS + 8 := by
      simp only [LINE_BLOCKS]
      omega
    generalize current / LINE_BLOCKS * LINE_BLOCKS = start at *
    generalize hlen : min LINE_BLOCKS (count - start) = len
    rcases exec_blockRead_cases law b start len with ⟨card', hread, himage, hnum⟩ | ⟨card', hread, himage, hnum, href⟩
    · simp only [hread, Option.bind_some, exec_pure]
      refine Or.inl ⟨_, _, _, card', rfl, ⟨himage, hnum, fun hw => ?_, fun hc => ?_⟩, ?_⟩
      · have hfill := wellFormed_fill (wellFormed_drop hw (cache.victim streaming)) (cache.victim streaming) start
          (window (image b.card) start len)
        rwa [length_window] at hfill
      · exact coherent_fill (coherent_drop hc _) _ _ _
      · exact fill_contains _ _ _ hstart.1 (by simp only [LINE_BLOCKS] at hlen; omega)
    · simp only [hread, Option.bind_some, exec_bind, exec_modifyShared, exec_pure]
      exact Or.inr ⟨_, card', _, rfl, ⟨himage, hnum, fun hw => wellFormed_drop hw _, fun hc => coherent_drop hc _⟩, href⟩
  · obtain ⟨i, hi, heq⟩ := Option.map_eq_some_iff.mp hfind
    obtain ⟨rfl, rfl⟩ := Prod.mk.inj heq
    refine Or.inl ⟨i, true, _, b.card, rfl, ⟨rfl, rfl, fun hw => wellFormed_touch hw i, fun hc => coherent_touch hc i⟩, ?_⟩
    have hcontains := List.find?_some hi
    rwa [touch_lines_contains]

/-- How far a READ(10) of the blocks from `current` to `fin` comes: to its end, or to a line that the backend refuses. -/
inductive ReadEnd (dev : BlockDevice D) (backend : Backend) (count current fin sent : ℕ) : CommandStatus → Prop
  | passed (h : sent = fin - current) : ReadEnd dev backend count current fin sent .passed
  | failed {start : ℕ} {card : D} (h : sent < fin - current) (hstart : start = (current + sent) / LINE_BLOCKS * LINE_BLOCKS)
      (href : Refuses dev backend card start (min LINE_BLOCKS (count - start))) :
      ReadEnd dev backend count current fin sent .failed

/-- The loop of READ(10) over a backend that may refuse its reads. -/
theorem exec_read10Loop_cases (law : dev.Lawful image) {count fin : ℕ} (streaming : Bool) (hfin : fin ≤ count) (fuel : ℕ)
    (cache : BlockCache) (current residue : ℕ) (b : Bus D) (hcache : cache.WellFormed) (hle : current ≤ fin)
    (hfuel : fin - current ≤ fuel) :
    ∃ status cache' card' stats sense, ∃ sent : List Block,
      Bus.exec dev (read10Loop count fin streaming fuel cache current residue) b =
        some (((residue - sent.length * BLOCK_LEN, status), cache'),
          { b with card := card', shared := { b.shared with stats, sense },
                   inQueue := b.inQueue ++ dataPackets (sent.flatMap Block.bytes) }) ∧
      ReadEnd dev b.shared.backend count current fin sent.length status ∧ Kept dev image cache b.card cache' card' ∧
      (cache.Coherent (image b.card) → sent = window (image b.card) current sent.length) := by
  induction fuel generalizing cache current residue b with
  | zero =>
    have h0 : fin - current = 0 := by omega
    refine ⟨.passed, cache, b.card, b.shared.stats, b.shared.sense, [], ?_, .passed h0.symm, .refl .., fun _ => rfl⟩
    simp [read10Loop, dataPackets]
  | succ fuel ih =>
    rw [read10Loop]
    by_cases hlt : current < fin
    · rcases exec_lookup_cases law cache streaming b (hlt.trans_le hfin) with
        ⟨index, hit, cache1, card1, hlook, hkept, hcontains⟩ | ⟨cache1, card1, sense, hlook, hkept, href⟩
      · obtain ⟨hnext, hpos, hend⟩ := line_bounds hcontains hlt
        have hslice := fun hc => line_slice (hkept.coherent hc index) fin hcontains
        have hlength : (((cache1.lines index).data.drop (current - (cache1.lines index).start)).take
            (min (fin - (cache1.lines index).start) (cache1.lines index).len - (current - (cache1.lines index).start))).length =
            min (fin - (cache1.lines index).start) (cache1.lines index).len - (current - (cache1.lines index).start) := by
          have hvalid : (cache1.lines index).valid = true := by
            simp only [Line.contains, Bool.and_eq_true] at hcontains
            exact hcontains.1.1
          have hlen := hkept.wellFormed hcache index hvalid
          rw [List.length_take, List.length_drop]
          omega
        simp only [if_pos hlt, exec_bind, hlook, Option.bind_some, exec_sendBlocks, exec_modifyShared, hnext]
        generalize ((cache1.lines index).data.drop (current - (cache1.lines index).start)).take
            (min (fin - (cache1.lines index).start) (cache1.lines index).len - (current - (cache1.lines index).start)) =
          head at *
        generalize min (fin - (cache1.lines index).start) (cache1.lines index).len - (current - (cache1.lines index).start) =
          moved at *
        subst hlength
        obtain ⟨status, cache2, card2, stats2, sense2, sent, hrun, hended, hkept2, hsent⟩ := ih cache1
          (current + head.length) (residue - head.length * BLOCK_LEN)
          { b with card := card1, shared := { b.shared with stats := b.shared.stats.countRead head.length hit },
                   inQueue := b.inQueue ++ dataPackets (head.flatMap Block.bytes) }
          (hkept.wellFormed hcache) (by omega) (by omega)
        refine ⟨status, cache2, card2, stats2, sense2, head ++ sent, ?_, ?_, hkept.trans hkept2, fun hc => ?_⟩
        · have hres : residue - head.length * BLOCK_LEN - sent.length * BLOCK_LEN =
              residue - (head ++ sent).length * BLOCK_LEN := by
            rw [Nat.sub_sub, ← Nat.add_mul, List.length_append]
          rw [hrun, dataPackets_blocks_append, List.append_assoc, hres]
        · rw [List.length_append]
          cases hended with
          | passed h => exact .passed (by omega)
          | failed h hstart href => exact .failed (by omega) (by rw [hstart, Nat.add_assoc]) href
        · have hhead := hslice hc
          have htail := hsent (hkept.image_eq.symm ▸ hkept.coherent hc)
          rw [List.length_append, window_add, ← hhead, ← hkept.image_eq, ← htail]
      · refine ⟨.failed, cache1, card1, b.shared.stats, sense, [], ?_, ?_, hkept, fun _ => rfl⟩
        · simp [hlt, hlook, dataPackets]
        · exact .failed (by simpa using hlt) rfl href
    · have h0 : fin - current = 0 := by omega
      refine ⟨.passed, cache, b.card, b.shared.stats, b.shared.sense, [], ?_, .passed h0.symm, .refl .., fun _ => rfl⟩
      simp [hlt, dataPackets]

/-! ## WRITE(10) -/

end MscAux

/-- A write to the installed backend. -/
def Backend.store (dev : BlockDevice D) (backend : Backend) (card : D) (lba : ℕ) (blocks : List Block) : Bool × D :=
  match backend with
  | .none => (false, card)
  | .device _ => dev.write card lba blocks

/-- What a sequence of writes leaves that ends behind the first that fails: how many blocks are stored by the others, the card
before and after the write that fails, and the blocks of that write. -/
structure Stored (D : Type) where
  count : ℕ
  before : D
  after : D
  failed : Option (List Block)

/-- The same behind `count` blocks stored before. -/
@[simps] def Stored.behind (stored : Stored D) (count : ℕ) : Stored D := { stored with count := count + stored.count }

/-- The writes of lists of blocks one behind the other, up to the first that fails. -/
def Backend.storeAll (dev : BlockDevice D) (backend : Backend) : List (List Block) → ℕ → D → Stored D
  | [], _, card => ⟨0, card, card, .none⟩
  | blocks :: rest, lba, card =>
    if (backend.store dev card lba blocks).1 then
      (backend.storeAll dev rest (lba + blocks.length) (backend.store dev card lba blocks).2).behind blocks.length
    else ⟨0, card, (backend.store dev card lba blocks).2, some blocks⟩

def Stored.status (stored : Stored D) : CommandStatus := if stored.failed.isSome then .failed else .passed

namespace MscAux

/-- A store that says so has stored its blocks. -/
theorem store_true (law : dev.Lawful image) {backend : Backend} {card : D} {lba : ℕ} {blocks : List Block}
    (h : (backend.store dev card lba blocks).1 = true) :
    image (backend.store dev card lba blocks).2 = patch (image card) lba blocks := by
  rcases backend with _ | context
  · cases h
  · exact law.write_true _ _ _ h

/-- A store keeps the size of the card. -/
theorem store_numBlocks (law : dev.Lawful image) (backend : Backend) (card : D) (lba : ℕ) (blocks : List Block) :
    dev.numBlocks (backend.store dev card lba blocks).2 = dev.numBlocks card := by
  rcases backend with _ | context
  · rfl
  · exact law.write_numBlocks _ _ _

/-- Outside its range a write changes nothing, whether it fails or not. -/
theorem store_of_not_mem (law : dev.Lawful image) (backend : Backend) (card : D) {lba a : ℕ} {blocks : List Block}
    (h : a < lba ∨ lba + blocks.length ≤ a) : image (backend.store dev card lba blocks).2 a = image card a := by
  rcases backend with _ | context
  · rfl
  · rcases law.write_any card lba blocks a with heq | heq
    · exact heq
    · exact heq.trans (patch_of_not_mem _ h)

/-- A block write stores on the backend. -/
theorem exec_blockWrite_store (backend : Backend) (lba : ℕ) (blocks : List Block) (b : Bus D) :
    Bus.exec dev (blockWrite backend lba blocks) b =
      some ((backend.store dev b.card lba blocks).1, { b with card := (backend.store dev b.card lba blocks).2 }) := by
  rw [blockWrite, exec_perform]
  rcases backend with _ | context
  · rfl
  · rfl

/-- The end of a sequence of writes of the lists `l` from `lba` on: all are stored, or the next one fails. -/
inductive StoreEnd (dev : BlockDevice D) (backend : Backend) (l : List (List Block)) (lba : ℕ) : Stored D → Prop
  | all {card : D} : StoreEnd dev backend l lba ⟨l.flatten.length, card, card, .none⟩
  | failed {count : ℕ} {before after : D} {blocks : List Block} (hmem : blocks ∈ l) (hfirst : blocks <+: l.flatten.drop count)
      (hcall : backend.store dev before (lba + count) blocks = (false, after)) :
      StoreEnd dev backend l lba ⟨count, before, after, some blocks⟩

/-- Where stores end, behind some that have been made. -/
theorem storeEnd_behind {backend : Backend} {blocks : List Block} {l : List (List Block)} {lba : ℕ} {stored : Stored D}
    (h : StoreEnd dev backend l (lba + blocks.length) stored) :
    StoreEnd dev backend (blocks :: l) lba (stored.behind blocks.length) := by
  cases h with
  | all =>
    have hlen : blocks.length + l.flatten.length = (blocks :: l).flatten.length := by simp
    rw [Stored.behind, hlen]
    exact .all
  | failed hmem hfirst hcall =>
    refine .failed (List.mem_cons_of_mem _ hmem) ?_ (by rwa [← Nat.add_assoc])
    rwa [List.flatten_cons, List.drop_length_add_append]

/-- The blocks before the write that fails are stored, and the others are not. -/
theorem storeAll_spec (law : dev.Lawful image) (backend : Backend) (l : List (List Block)) (lba : ℕ) (card : D) :
    let stored := backend.storeAll dev l lba card
    image stored.before = patch (image card) lba (l.flatten.take stored.count) ∧
      dev.numBlocks stored.after = dev.numBlocks card ∧ StoreEnd dev backend l lba stored := by
  induction l generalizing lba card with
  | nil => exact ⟨by simp [Backend.storeAll], rfl, .all⟩
  | cons blocks l ih =>
    rw [Backend.storeAll]
    split
    · rename_i htrue
      obtain ⟨himage, hnum, hend⟩ := ih (lba + blocks.length) (backend.store dev card lba blocks).2
      refine ⟨?_, hnum.trans (store_numBlocks law ..), storeEnd_behind hend⟩
      rw [List.flatten_cons, Stored.behind_before, Stored.behind_count, List.take_length_add_append, ← patch_patch_append,
        ← store_true law htrue]
      exact himage
    · rename_i hfalse
      have hcall : backend.store dev card lba blocks = (false, (backend.store dev card lba blocks).2) :=
        Prod.ext (by simpa using hfalse) rfl
      exact ⟨by simp, store_numBlocks law .., .failed List.mem_cons_self (List.prefix_append _ _) hcall⟩

/-- A line keeps the blocks that it contains when copies are refreshed. -/
theorem updateLine_contains (line : Line) (lba : ℕ) (blocks : List Block) (a : ℕ) :
    (BlockCache.updateLine line lba blocks).contains a = line.contains a := by
  induction blocks generalizing line lba with
  | nil => rfl
  | cons block blocks ih =>
    rw [BlockCache.updateLine, ih]
    split
    · rfl
    · rfl

/-- What a WRITE(10) leaves of the cache in front of a card: the LRU lines hold the blocks that they held, the stream line none,
and a cache that agreed with the card before agrees with it as it is before the write that fails. -/
structure Written (image : D → ℕ → Block) (cache : BlockCache) (card : D) (cache' : BlockCache) (before : D) : Prop where
  contains : ∀ i, i ≠ STREAM_LINE → ∀ a, (cache'.lines i).contains a = (cache.lines i).contains a
  wellFormed : cache.WellFormed → cache'.WellFormed
  coherent : cache.Coherent (image card) → cache'.Coherent (image before)

theorem Written.refl (cache : BlockCache) (card : D) : Written image cache card cache card := ⟨fun _ _ _ => rfl, id, id⟩

/-- Two writes, one after the other. -/
theorem Written.trans {cache cache' cache'' : BlockCache} {card card' card'' : D} (h : Written image cache card cache' card')
    (h' : Written image cache' card' cache'' card'') : Written image cache card cache'' card'' where
  contains i hi a := (h'.contains i hi a).trans (h.contains i hi a)
  wellFormed hw := h'.wellFormed (h.wellFormed hw)
  coherent hc := h'.coherent (h.coherent hc)

/-- Blocks collected from USB lie in the stream line, which is invalid then. -/
theorem written_stage (cache : BlockCache) (card : D) (blocks : List Block) :
    Written image cache card (cache.stage blocks) card where
  contains i hi a := by rw [BlockCache.stage, setLine_of_ne _ _ hi]
  wellFormed hw := wellFormed_setLine hw _ nofun
  coherent hc := coherent_stage hc blocks

/-- A write that went through the stream line is in the cached lines, too. -/
theorem written_updateFromStream {cache : BlockCache} (hs : (cache.lines STREAM_LINE).valid = false) {card card' : D}
    {lba count : ℕ} (himage : image card' = patch (image card) lba ((cache.lines STREAM_LINE).data.take count)) :
    Written image cache card (cache.updateFromStream lba count) card' where
  contains i hi a := by
    simp only [BlockCache.updateFromStream, if_neg hi]
    exact updateLine_contains ..
  wellFormed hw := wellFormed_updateFromStream hw lba count
  coherent hc := himage ▸ coherent_updateFromStream hc hs lba count

/-- The blocks of data that is not empty are those of its first line and those behind it. -/
theorem chunks_blocksOf {data : List UInt8} {n : ℕ} (hpos : 0 < n) (hdata : data.length = n * BLOCK_LEN) :
    chunks LINE_BLOCKS (blocksOf data) = blocksOf (data.take (min n LINE_BLOCKS * BLOCK_LEN)) ::
      chunks LINE_BLOCKS (blocksOf (data.drop (min n LINE_BLOCKS * BLOCK_LEN))) := by
  have hhead : (data.take (min n LINE_BLOCKS * BLOCK_LEN)).length = min n LINE_BLOCKS * BLOCK_LEN := by
    rw [List.length_take, hdata]
    exact Nat.min_eq_left (Nat.mul_le_mul_right _ (Nat.min_le_left ..))
  have hsplit : blocksOf data = blocksOf (data.take (min n LINE_BLOCKS * BLOCK_LEN)) ++
      blocksOf (data.drop (min n LINE_BLOCKS * BLOCK_LEN)) := by
    rw [← blocksOf_append hhead, List.take_append_drop]
  have hne : blocksOf data ≠ [] := by
    rw [← List.length_pos_iff, length_blocksOf hdata]
    exact hpos
  rw [chunks_of_ne_nil (by decide) hne]
  rcases Nat.le_total n LINE_BLOCKS with hle | hle
  · have htake : data.take (min n LINE_BLOCKS * BLOCK_LEN) = data := by
      rw [Nat.min_eq_left hle, ← hdata, List.take_length]
    have hdrop : data.drop (min n LINE_BLOCKS * BLOCK_LEN) = [] := by
      rw [Nat.min_eq_left hle, ← hdata, List.drop_length]
    have hlen : (blocksOf data).length ≤ LINE_BLOCKS := (length_blocksOf hdata).le.trans hle
    rw [htake, hdrop, List.take_of_length_le hlen, List.drop_of_length_le hlen]
    rfl
  · have hlen : (blocksOf (data.take (min n LINE_BLOCKS * BLOCK_LEN))).length = LINE_BLOCKS := by
      rw [length_blocksOf hhead, Nat.min_eq_right hle]
    rw [hsplit, List.take_left' hlen, List.drop_left' hlen]

/-- The loop of WRITE(10) over a backend that may fail: it reads all of its data, and stores what the backend's writes of a line
of blocks each store up to the first that fails. -/
theorem exec_write10Loop_cases (law : dev.Lawful image) (fin : ℕ) (rest : List Packet) (fuel : ℕ) (cache : BlockCache)
    (current residue : ℕ) (data : List UInt8) (b : Bus D) (hle : current ≤ fin) (hfuel : fin - current ≤ fuel)
    (hdata : data.length = (fin - current) * BLOCK_LEN) (hres : residue = data.length)
    (hq : b.outQueue = dataPackets data ++ rest) :
    let stored := b.shared.backend.storeAll dev (chunks LINE_BLOCKS (blocksOf data)) current b.card
    ∃ cache' stats sense, Bus.exec dev (write10Loop fin fuel cache current residue) b =
        some (((residue - stored.count * BLOCK_LEN, stored.status), cache'),
          { b with card := stored.after, shared := { b.shared with stats, sense }, outQueue := rest }) ∧
      Written image cache b.card cache' stored.before ∧
      ((cache.lines STREAM_LINE).valid = false ∨ current < fin → (cache'.lines STREAM_LINE).valid = false) := by
  induction fuel generalizing cache current residue data b with
  | zero =>
    obtain ⟨rfl, hnil⟩ := queue_of_no_blocks (by omega) hdata hq
    refine ⟨cache, b.shared.stats, b.shared.sense, ?_, .refl .., fun h => h.resolve_right (by omega)⟩
    rw [← hnil]
    simp [write10Loop, blocksOf, Backend.storeAll, Stored.status]
  | succ fuel ih =>
    rw [write10Loop]
    by_cases hlt : current < fin
    · have hmin : min (fin - current) LINE_BLOCKS ≤ fin - current := Nat.min_le_left ..
      have hpos : 0 < min (fin - current) LINE_BLOCKS := by simp only [LINE_BLOCKS]; omega
      have hchunks := chunks_blocksOf (Nat.sub_pos_of_lt hlt) hdata
      simp only [if_pos hlt]
      generalize min (fin - current) LINE_BLOCKS = count at *
      have hhead : (data.take (count * BLOCK_LEN)).length = count * BLOCK_LEN := by
        rw [List.length_take, hdata]
        exact Nat.min_eq_left (Nat.mul_le_mul_right _ hmin)
      have htail : (data.drop (count * BLOCK_LEN)).length = (fin - (current + count)) * BLOCK_LEN := by
        rw [List.length_drop, hdata, ← Nat.sub_mul, Nat.sub_sub]
      have hrest : residue - count * BLOCK_LEN = (data.drop (count * BLOCK_LEN)).length := by
        rw [hres, List.length_drop]
      have hblocks := length_blocksOf hhead
      rw [← List.take_append_drop (count * BLOCK_LEN) data, dataPackets_append _ (by
        rw [hhead]; exact Nat.dvd_mul_left_of_dvd (by decide) _), List.append_assoc] at hq
      have hread : Bus.exec dev _ b = _ := exec_readBlocks count hhead _ b hq
      generalize blocksOf (data.take (count * BLOCK_LEN)) = blocks at *
      have hstage : ((cache.stage blocks).lines STREAM_LINE).data.take count = blocks := by
        rw [BlockCache.stage, setLine_self]
        exact List.take_left' hblocks
      have hinvalid : ((cache.stage blocks).lines STREAM_LINE).valid = false := by
        rw [BlockCache.stage, setLine_self]
      simp only [exec_bind, hread, Option.bind_some, exec_borrow, hstage, exec_blockWrite_store, hchunks, Backend.storeAll,
        hblocks]
      by_cases htrue : (b.shared.backend.store dev b.card current blocks).1 = true
      · simp only [htrue, Bool.not_true, Bool.false_eq_true, if_false, if_true, exec_bind, exec_modifyShared, Option.bind_some]
        obtain ⟨cache2, stats2, sense2, hrun, hwritten, hvalid⟩ := ih ((cache.stage blocks).updateFromStream current count)
          (current + count) (residue - count * BLOCK_LEN) (data.drop (count * BLOCK_LEN))
          { b with card := (b.shared.backend.store dev b.card current blocks).2,
                   shared := { b.shared with
                     stats := { b.shared.stats with writeBlocks := (b.shared.stats.writeBlocks + count) % 2 ^ 32 } },
                   outQueue := dataPackets (data.drop (count * BLOCK_LEN)) ++ rest } (by omega) (by omega) htail hrest rfl
        have hupdated : Written image (cache.stage blocks) b.card _ (b.shared.backend.store dev b.card current blocks).2 :=
          written_updateFromStream hinvalid (by rw [hstage]; exact store_true law htrue)
        refine ⟨cache2, stats2, sense2, ?_, (written_stage cache b.card blocks).trans (hupdated.trans hwritten), fun _ => ?_⟩
        · rw [hrun, Stored.behind_count, Nat.add_mul, Nat.sub_sub]
          rfl
        · exact hvalid (Or.inl (by simpa [BlockCache.updateFromStream] using hinvalid))
      · simp only [htrue, Bool.not_false, if_true, if_false, exec_bind, exec_modifyShared, Option.bind_some, hrest,
          Bool.false_eq_true]
        rw [exec_discardOut _ rest _ rfl]
        exact ⟨_, _, _, by simp [Stored.status]; rfl, written_stage cache b.card blocks, fun _ => hinvalid⟩
    · obtain ⟨rfl, hnil⟩ := queue_of_no_blocks (by omega) hdata hq
      refine ⟨cache, b.shared.stats, b.shared.sense, ?_, .refl .., fun h => h.resolve_right hlt⟩
      rw [if_neg hlt, ← hnil]
      simp [blocksOf, Backend.storeAll, Stored.status]

/-! ## Commands that are refused -/

/-- A READ(10) that is not inside the card touches neither the card nor the cache. -/
theorem exec_read10_refused (dev : BlockDevice D) (cache : BlockCache) {cbw : Cbw} {b : Bus D}
    (hr : ¬cbw.InRange .in_ b.shared.blockCount) :
    ∃ result sense, Bus.exec dev (read10 cache cbw) b =
      some ((result, cache), { b with shared := { b.shared with sense } }) := by
  rw [read10]
  by_cases h1 : cbw.direction ≠ .in_ ∨ cbw.transferLen ≠ cbw.blocks * BLOCK_LEN
  · rw [if_pos h1]
    exact ⟨_, b.shared.sense, rfl⟩
  by_cases h2 : cbw.blocks = 0
  · rw [if_neg h1, if_pos h2]
    exact ⟨_, b.shared.sense, rfl⟩
  have h3 : 2 ^ 32 ≤ cbw.lba + cbw.blocks ∨ cbw.lba + cbw.blocks > b.shared.blockCount := by
    by_contra h3
    simp only [not_or, Decidable.not_not, not_le, not_lt] at h1 h3
    exact hr ⟨h1.1, h1.2, h2, h3.1, h3.2⟩
  simp only [if_neg h1, if_neg h2, exec_bind, exec_borrow, Option.bind_some, if_pos h3, exec_modifyShared, exec_pure]
  exact ⟨_, _, rfl⟩

/-- A WRITE(10) that is not inside the card touches neither the card nor the cache. -/
theorem exec_write10_refused (dev : BlockDevice D) (cache : BlockCache) {cbw : Cbw} {b : Bus D} {payload : List UInt8}
    (hp : cbw.direction = .out → payload.length = cbw.transferLen) (hq : b.outQueue = dataPackets payload)
    (hr : ¬cbw.InRange .out b.shared.blockCount) :
    ∃ result sense outQueue, Bus.exec dev (write10 cache cbw) b =
      some ((result, cache), { b with shared := { b.shared with sense }, outQueue }) := by
  rw [write10]
  by_cases h1 : cbw.direction ≠ .out ∨ cbw.transferLen ≠ cbw.blocks * BLOCK_LEN
  · rw [if_pos h1]
    exact ⟨_, b.shared.sense, b.outQueue, rfl⟩
  by_cases h2 : cbw.blocks = 0
  · rw [if_neg h1, if_pos h2]
    exact ⟨_, b.shared.sense, b.outQueue, rfl⟩
  have h3 : 2 ^ 32 ≤ cbw.lba + cbw.blocks ∨ cbw.lba + cbw.blocks > b.shared.blockCount := by
    by_contra h3
    simp only [not_or, Decidable.not_not, not_le, not_lt] at h1 h3
    exact hr ⟨h1.1, h1.2, h2, h3.1, h3.2⟩
  simp only [not_or, Decidable.not_not] at h1
  have hdrain : Bus.exec dev _ _ = _ := exec_discardOut payload []
    { b with shared := b.shared.setSense SENSE_ILLEGAL_REQUEST ASC_INVALID_FIELD 0 } (by rw [hq, List.append_nil])
  rw [hp h1.1] at hdrain
  simp only [h1, ne_eq, not_true_eq_false, or_self, if_false, if_neg h2, exec_bind, exec_borrow, Option.bind_some, if_pos h3,
    exec_modifyShared]
  rw [← h1.2, hdrain]
  exact ⟨_, _, _, rfl⟩

/-! ## What is read from a cache that agrees with an earlier card -/

/-- A READ(10) of one cached block sends the cached copy, whatever the card holds. -/
theorem exec_read10Loop_hit (dev : BlockDevice D) {f : ℕ → Block} {cache : BlockCache} (hc : cache.Coherent f) {a : ℕ}
    (hheld : ∃ i, (cache.lines i).contains a = true) (count residue : ℕ) (streaming : Bool) (b : Bus D) :
    ∃ cache' stats, Bus.exec dev (read10Loop count (a + 1) streaming 1 cache a residue) b =
      some (((residue - BLOCK_LEN, .passed), cache'),
        { b with shared := { b.shared with stats }, inQueue := b.inQueue ++ dataPackets (f a).bytes }) := by
  obtain ⟨i, hi⟩ := hheld
  obtain ⟨index, hindex⟩ := Option.isSome_iff_exists.mp
    (List.find?_isSome.mpr ⟨i, List.mem_finRange i, hi⟩ : ((List.finRange (CACHE_LINES + 1)).find?
      fun i => (cache.lines i).contains a).isSome)
  have hfind : cache.find a = some (index, cache.touch index) := by rw [BlockCache.find, hindex, Option.map_some]
  obtain ⟨hcoherent, hcontains⟩ := find_spec hc hfind
  obtain ⟨hnext, hpos, hend⟩ := line_bounds hcontains (Nat.lt_succ_self a)
  have hslice := line_slice (hcoherent index) (a + 1) hcontains
  have hone : min (a + 1 - ((cache.touch index).lines index).start) ((cache.touch index).lines index).len -
      (a - ((cache.touch index).lines index).start) = 1 := by omega
  rw [hone] at hslice hnext
  simp only [read10Loop, lookup, hfind, if_pos (Nat.lt_succ_self a), pure_bind, exec_bind, hone, hslice, exec_sendBlocks,
    Option.bind_some, exec_modifyShared, exec_pure]
  exact ⟨cache.touch index, b.shared.stats.countRead 1 true, by simp⟩

/-- The packets of an answer hold its bytes. -/
theorem flatMap_dataPackets (data : List UInt8) : (dataPackets data).flatMap Packet.bytes = data := by
  rw [dataPackets, List.flatMap_map, List.flatMap_id']
  exact flatten_chunks (by decide) data

/-- The bytes of blocks are cut into these blocks. -/
theorem blocksOf_flatMap_bytes (blocks : List Block) : blocksOf (blocks.flatMap Block.bytes) = blocks := by
  induction blocks with
  | nil => rfl
  | cons block blocks ih =>
    have hle : block.bytes.length ≤ BLOCK_LEN := block.length_bytes.le
    have hlen : block.bytes.length = 1 * BLOCK_LEN := block.length_bytes
    have hone : blocksOf block.bytes = [block] := by
      have hne : block.bytes ≠ [] := by
        rw [← List.length_pos_iff, block.length_bytes]
        decide
      rw [blocksOf, chunks_of_ne_nil (by decide) hne, List.take_of_length_le hle, List.drop_of_length_le hle, chunks_nil,
        List.map_singleton]
      exact congrArg (· :: []) (CardAux.ext_bytes (CardAux.bytes_ofBytes block.length_bytes))
    rw [List.flatMap_cons, blocksOf_append hlen, hone, ih, List.singleton_append]

end MscAux

end Ratputer
