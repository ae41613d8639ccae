import Ratputer.SdBlock

/-!
# The transfer loops of the partition adapter

What `read` and `write` do to the bytes of the card, one pass of their loops at a time: the unaligned head and tail go
through one block, the aligned middle through runs of whole blocks, and both come out as the same byte range.
-/

namespace Ratputer

open Patch Octets

namespace SdBlockAux

variable {D : Type} {dev : BlockDevice D} {image : D → ℕ → Block}

/-- On a card below `2 ^ 32` blocks the cast to `u32` keeps the block number of every byte of the card. -/
theorem cardBlockOf_eq {n a : ℕ} (hn : n < 2 ^ 32) (ha : a < n * BLOCK_LEN) : cardBlockOf a = a / BLOCK_LEN := by
  have hlt : a / BLOCK_LEN < n := Nat.div_lt_of_lt_mul (by rwa [Nat.mul_comm])
  exact Nat.mod_eq_of_lt (hlt.trans hn)

/-! ## Single blocks -/

/-- A read of one block returns it or reports the device, and leaves the card alone. -/
theorem readCardBlock_spec (law : dev.Lawful image) (card : D) (b : ℕ) :
    (readCardBlock dev card b).1 = .ok (image card b) ∨ (readCardBlock dev card b).1 = .error .device := by
  have hsome := law.read_some card b 1
  unfold readCardBlock
  generalize dev.read card b 1 = r at hsome
  obtain ⟨_ | blocks, card'⟩ := r
  · exact Or.inr rfl
  · obtain rfl := hsome blocks rfl
    exact Or.inl rfl

/-- The block a read returns is the card's. -/
theorem readCardBlock_ok (law : dev.Lawful image) {card card' : D} {b : ℕ} {block : Block}
    (h : readCardBlock dev card b = (.ok block, card')) : block = image card b := by
  rcases readCardBlock_spec law card b with h' | h' <;> rw [h] at h'
  · exact Except.ok.inj h'
  · cases h'

/-- The error a read reports is the device's. -/
theorem readCardBlock_error (law : dev.Lawful image) {card card' : D} {b : ℕ} {e : SdBlockError}
    (h : readCardBlock dev card b = (.error e, card')) : e = .device := by
  rcases readCardBlock_spec law card b with h' | h' <;> rw [h] at h'
  · cases h'
  · exact Except.error.inj h'

theorem readCardBlock_card (card : D) (b : ℕ) : (readCardBlock dev card b).2 = (dev.read card b 1).2 := by
  unfold readCardBlock
  split <;> simp_all

/-- With a device that succeeds inside the card, a block of the card is read. -/
theorem readCardBlock_succeeds (law : dev.Lawful image) (hs : dev.Succeeds) {card : D} {n b : ℕ}
    (hn : dev.numBlocks card = some n) (hb : b < n) : (readCardBlock dev card b).1 = .ok (image card b) := by
  have hread := hs.read card n b 1 hn (by omega)
  have hsome := law.read_some card b 1
  unfold readCardBlock
  generalize dev.read card b 1 = r at hread hsome
  obtain ⟨_ | blocks, card'⟩ := r
  · simp at hread
  · obtain rfl := hsome blocks rfl
    rfl

theorem writeCardBlock_eq (card : D) (b : ℕ) (block : Block) :
    writeCardBlock dev card b block =
      ((if (dev.write card b [block]).1 then .ok () else .error .device), (dev.write card b [block]).2) := by
  unfold writeCardBlock
  split <;> simp_all

/-- After a write, successful or not, each byte is the old one or the one written. -/
theorem byteAt_write_any (law : dev.Lawful image) (card : D) (start : ℕ) (blocks : List Block) (a : ℕ) :
    byteAt (image (dev.write card start blocks).2) a = byteAt (image card) a ∨
      byteAt (image (dev.write card start blocks).2) a = byteAt (patch (image card) start blocks) a := by
  rcases law.write_any card start blocks (a / 512) with h | h
  · exact Or.inl (by simp only [byteAt, h])
  · exact Or.inr (by simp only [byteAt, h])

/-- After a write of whole blocks, a byte outside them is the old one. -/
theorem byteAt_write_outside (law : dev.Lawful image) (card : D) (start : ℕ) (blocks : List Block) {a : ℕ}
    (h : a < start * 512 ∨ (start + blocks.length) * 512 ≤ a) :
    byteAt (image (dev.write card start blocks).2) a = byteAt (image card) a := by
  rcases byteAt_write_any law card start blocks a with h' | h'
  · exact h'
  · rw [h', byteAt, byteAt]
    simp only [patch_of_not_mem (image card) (show a / 512 < start ∨ start + blocks.length ≤ a / 512 by omega)]

/-! ## The read loop -/

/-- The part of a block that a partial read copies is the window of bytes it stands for. -/
theorem take_drop_bytes (f : ℕ → Block) {a take : ℕ} (h : a % 512 + take ≤ 512) :
    (((f (a / 512)).bytes.drop (a % 512)).take take) = window (byteAt f) a take := by
  have hlen : (((f (a / 512)).bytes.drop (a % 512)).take take).length = take := by simp; omega
  rw [show window (byteAt f) a take = window (byteAt f) a (((f (a / 512)).bytes.drop (a % 512)).take take).length by
    rw [hlen]]
  apply eq_window
  intro i hi
  rw [hlen] at hi
  have haddr : a / 512 * 512 + (a % 512 + i) = a + i := by omega
  have hb := CardAux.byteAt_block f (a / 512) (a % 512 + i) (by rw [Block.length_bytes]; omega)
  rw [haddr] at hb
  rw [List.getElem_take, List.getElem_drop, hb]

/-- What the read loop does, from a pass that has filled `done` bytes: the card keeps its contents, a result is the whole
range, an error is the device's, and a device that succeeds gives the result. -/
theorem readLoop_spec (law : dev.Lawful image) {n : ℕ} (start len done : ℕ) (out : List UInt8) (card : D)
    (hn : dev.numBlocks card = some n) (hin : start + len ≤ n * BLOCK_LEN) (hdone : done ≤ len)
    (hout : out = window (byteAt (image card)) start done) :
    image (readLoop dev start len done out card).2 = image card ∧
    dev.numBlocks (readLoop dev start len done out card).2 = some n ∧
    ((readLoop dev start len done out card).1 = .ok (window (byteAt (image card)) start len) ∨
      (readLoop dev start len done out card).1 = .error .device ∧ ¬ dev.Succeeds) := by
  have hn32 := law.numBlocks_lt card n hn
  fun_induction readLoop dev start len done out card with
  | case1 done out card hlt absolute cardBlock blockOffset remaining hb blocks card' hread =>
    have hcard : card' = (dev.read card cardBlock blocks).2 := by rw [hread]
    refine ⟨by rw [hcard, law.read_image], by rw [hcard, law.read_numBlocks, hn], Or.inr ⟨rfl, ?_⟩⟩
    intro hs
    have hsome := hs.read card n cardBlock blocks hn ?_
    · simp [hread] at hsome
    · have hcb : cardBlock = absolute / BLOCK_LEN :=
        cardBlockOf_eq hn32 (by simp only [absolute]; omega)
      simp only [hcb, absolute, blocks, remaining, blockOffset, BLOCK_LEN] at hb hin ⊢
      omega
  | case2 done out card hlt absolute cardBlock blockOffset remaining hb blocks scratch card' hread ih =>
    have hcard : card' = (dev.read card cardBlock blocks).2 := by rw [hread]
    have himage : image card' = image card := by rw [hcard, law.read_image]
    have hcb : cardBlock = absolute / BLOCK_LEN := cardBlockOf_eq hn32 (by simp only [absolute]; omega)
    have hscratch := law.read_some card cardBlock blocks scratch (by rw [hread])
    have hstart : cardBlock * 512 = start + done := by
      simp only [hcb, absolute, blockOffset, BLOCK_LEN] at hb ⊢
      omega
    have hle : blocks * 512 ≤ remaining := by
      simp only [blocks, BLOCK_LEN]
      omega
    simp only [remaining] at hle
    obtain ⟨h1, h2, h3⟩ := ih (by rw [hcard, law.read_numBlocks, hn]) (by simp only [BLOCK_LEN]; omega) (by
      rw [himage, hout, hscratch, CardAux.flatMap_bytes_window, hstart, BLOCK_LEN, window_add])
    exact ⟨by rw [h1, himage], h2, by rwa [himage] at h3⟩
  | case3 done out card hlt absolute cardBlock blockOffset remaining hb e card' hread =>
    have hcard : card' = (dev.read card cardBlock 1).2 := by rw [← readCardBlock_card, hread]
    have hcb : cardBlock = absolute / BLOCK_LEN := cardBlockOf_eq hn32 (by simp only [absolute]; omega)
    refine ⟨by rw [hcard, law.read_image], by rw [hcard, law.read_numBlocks, hn], Or.inr ⟨?_, ?_⟩⟩
    · rw [readCardBlock_error law hread]
    · intro hs
      have h := readCardBlock_succeeds law hs hn (b := cardBlock) (by
        simp only [hcb, absolute, BLOCK_LEN] at hin ⊢
        omega)
      rw [hread] at h
      cases h
  | case4 done out card hlt absolute cardBlock blockOffset remaining hb take block card' hread ih =>
    have hcard : card' = (dev.read card cardBlock 1).2 := by rw [← readCardBlock_card, hread]
    have himage : image card' = image card := by rw [hcard, law.read_image]
    have hcb : cardBlock = absolute / 512 := cardBlockOf_eq hn32 (by simp only [absolute]; omega)
    have hblock := readCardBlock_ok law hread
    have htake : absolute % 512 + take ≤ 512 ∧ done + take ≤ len := by
      simp only [take, blockOffset, remaining, BLOCK_LEN]
      omega
    obtain ⟨h1, h2, h3⟩ := ih (by rw [hcard, law.read_numBlocks, hn]) htake.2 (by
      rw [himage, hout, hblock, hcb, window_add]
      exact congrArg _ (take_drop_bytes (image card) htake.1))
    exact ⟨by rw [h1, himage], h2, by rwa [himage] at h3⟩
  | case5 done out card hge =>
    have hlen : done = len := by omega
    exact ⟨rfl, hn, Or.inl (by rw [hout, hlen])⟩

/-! ## The write loop -/

/-- The blocks of an aligned run are the bytes of the buffer there. -/
theorem flatMap_bytes_run (buf : List UInt8) (done blocks : ℕ) (h : done + blocks * 512 ≤ buf.length) :
    ((List.range blocks).map fun index => Block.ofBytes ((buf.drop (done + index * 512)).take 512)).flatMap Block.bytes =
      (buf.drop done).take (blocks * 512) := by
  induction blocks with
  | zero => simp
  | succ blocks ih =>
    rw [Nat.succ_mul] at h ⊢
    have hfirst := ih ((Nat.add_le_add_left (Nat.le_add_right _ 512) done).trans h)
    have hlast : ((buf.drop (done + blocks * 512)).take 512).length = 512 := by
      rw [List.length_take, List.length_drop]
      omega
    have hnext : (buf.drop done).take (blocks * 512 + 512) =
        (buf.drop done).take (blocks * 512) ++ ((buf.drop done).drop (blocks * 512)).take 512 := List.take_add
    rw [hnext, List.range_succ, List.map_append, List.flatMap_append, hfirst, List.drop_drop]
    simp only [List.map_cons, List.map_nil, List.flatMap_cons, List.flatMap_nil, List.append_nil]
    rw [CardAux.bytes_ofBytes hlast]

/-- What a call of the write loop with `done` bytes of `buf` on the card may answer: success overwrites the rest of the range
and nothing else; an error is the device's, and leaves every byte outside the rest of the range. -/
def WriteOutcome (dev : BlockDevice D) (image : D → ℕ → Block) (n start : ℕ) (buf : List UInt8) (done : ℕ) (card : D)
    (r : Except SdBlockError Unit × D) : Prop :=
  dev.numBlocks r.2 = some n ∧
    (r.1 = .ok () ∧ byteAt (image r.2) = patch (byteAt (image card)) (start + done) (buf.drop done) ∨
      r.1 = .error .device ∧ ¬ dev.Succeeds ∧
        ∀ a, a < start + done ∨ start + buf.length ≤ a → byteAt (image r.2) a = byteAt (image card) a)

/-- A pass that stores the next `k` bytes, followed by the rest of the loop, is the loop. -/
theorem WriteOutcome.after {n start done k : ℕ} {buf : List UInt8} {card card' : D} {r : Except SdBlockError Unit × D}
    (hk : done + k ≤ buf.length)
    (himage : byteAt (image card') = patch (byteAt (image card)) (start + done) ((buf.drop done).take k))
    (h : WriteOutcome dev image n start buf (done + k) card' r) : WriteOutcome dev image n start buf done card r := by
  have hlen : ((buf.drop done).take k).length = k := by simp; omega
  obtain ⟨h1, ⟨h2, h3⟩ | ⟨h2, h3, h4⟩⟩ := h
  · refine ⟨h1, Or.inl ⟨h2, ?_⟩⟩
    have hsplit : buf.drop done = (buf.drop done).take k ++ buf.drop (done + k) := by
      rw [← List.drop_drop, List.take_append_drop]
    have hstart : start + (done + k) = start + done + ((buf.drop done).take k).length := by rw [hlen, Nat.add_assoc]
    rw [h3, himage, hstart, patch_patch_append, ← hsplit]
  · refine ⟨h1, Or.inr ⟨h2, h3, ?_⟩⟩
    intro a ha
    rw [h4 a (by omega), himage, patch_of_not_mem _ (by omega)]

/-- What the write loop does, from a pass with `done` bytes on the card. -/
theorem writeLoop_spec (law : dev.Lawful image) {n : ℕ} (start : ℕ) (buf : List UInt8) (done : ℕ) (card : D)
    (hn : dev.numBlocks card = some n) (hin : start + buf.length ≤ n * BLOCK_LEN) (hdone : done ≤ buf.length) :
    WriteOutcome dev image n start buf done card (writeLoop dev start buf done card) := by
  have hn32 := law.numBlocks_lt card n hn
  fun_induction writeLoop dev start buf done card with
  | case1 done card hlt absolute cardBlock blockOffset remaining hb blocks scratch card' hwrite =>
    have hcard : card' = (dev.write card cardBlock scratch).2 := by rw [hwrite]
    have hcb : cardBlock = absolute / BLOCK_LEN := cardBlockOf_eq hn32 (by simp only [absolute]; omega)
    have hlen : scratch.length = blocks := by simp [scratch]
    have hbounds : cardBlock * 512 = start + done ∧ blocks * 512 ≤ buf.length - done := by
      simp only [hcb, absolute, blockOffset, blocks, remaining, BLOCK_LEN] at hb ⊢
      omega
    refine ⟨by rw [hcard, law.write_numBlocks, hn], Or.inr ⟨rfl, ?_, ?_⟩⟩
    · intro hs
      have h := hs.write card n cardBlock scratch hn (by simp only [hlen, BLOCK_LEN] at hin ⊢; omega)
      simp [hwrite] at h
    · intro a ha
      exact hcard ▸ byteAt_write_outside law card cardBlock scratch (by omega)
  | case2 done card hlt absolute cardBlock blockOffset remaining hb blocks scratch card' hwrite ih =>
    have hcard : card' = (dev.write card cardBlock scratch).2 := by rw [hwrite]
    have hcb : cardBlock = absolute / BLOCK_LEN := cardBlockOf_eq hn32 (by simp only [absolute]; omega)
    have hbounds : cardBlock * 512 = start + done ∧ blocks * 512 ≤ buf.length - done := by
      simp only [hcb, absolute, blockOffset, blocks, remaining, BLOCK_LEN] at hb ⊢
      omega
    have himage : byteAt (image card') = patch (byteAt (image card)) (start + done) ((buf.drop done).take (blocks * 512)) := by
      rw [hcard, law.write_true card cardBlock scratch (by rw [hwrite]), CardAux.byteAt_patch, hbounds.1]
      exact congrArg _ (flatMap_bytes_run buf done blocks (by omega))
    exact WriteOutcome.after (by omega) himage (ih (by rw [hcard, law.write_numBlocks, hn]) (by
      simp only [BLOCK_LEN]; omega))
  | case3 done card hlt absolute cardBlock blockOffset remaining hb e card' hread =>
    have hcard : card' = (dev.read card cardBlock 1).2 := by rw [← readCardBlock_card, hread]
    have hcb : cardBlock = absolute / BLOCK_LEN := cardBlockOf_eq hn32 (by simp only [absolute]; omega)
    refine ⟨by rw [hcard, law.read_numBlocks, hn], Or.inr ⟨?_, ?_, ?_⟩⟩
    · rw [readCardBlock_error law hread]
    · intro hs
      have h := readCardBlock_succeeds law hs hn (b := cardBlock) (by
        simp only [hcb, absolute, BLOCK_LEN] at hin ⊢
        omega)
      rw [hread] at h
      cases h
    · intro a _
      rw [hcard, law.read_image]
  | case4 done card hlt absolute cardBlock blockOffset remaining hb take block card' hread e card'' hwrite =>
    have hcard : card' = (dev.read card cardBlock 1).2 := by rw [← readCardBlock_card, hread]
    have himage : image card' = image card := by rw [hcard, law.read_image]
    have hn' : dev.numBlocks card' = some n := by rw [hcard, law.read_numBlocks, hn]
    have hcb : cardBlock = absolute / 512 := cardBlockOf_eq hn32 (by simp only [absolute]; omega)
    have hblock := readCardBlock_ok law hread
    have htake : blockOffset + take ≤ 512 ∧ done + take ≤ buf.length ∧ cardBlock * 512 + blockOffset = start + done := by
      simp only [hcb, absolute, take, blockOffset, remaining, BLOCK_LEN]
      omega
    rw [writeCardBlock_eq, Prod.mk.injEq] at hwrite
    obtain ⟨hfail, rfl⟩ := hwrite
    refine ⟨by rw [law.write_numBlocks, hn'], Or.inr ⟨?_, ?_, ?_⟩⟩
    · split at hfail
      · cases hfail
      · rw [← Except.error.inj hfail]
    · intro hs
      rw [hs.write card' n cardBlock _ hn' (by
        simp only [hcb, absolute, BLOCK_LEN, List.length_singleton] at hin ⊢
        omega)] at hfail
      cases hfail
    · intro a ha
      rcases byteAt_write_any law card' cardBlock [block.splice blockOffset ((buf.drop done).take take)] a with h | h
      · rw [h, himage]
      · rw [h, himage, hblock, CardAux.byteAt_patch_splice _ _ _ _ (by simp; omega),
          patch_of_not_mem _ (by simp; omega)]
  | case5 done card hlt absolute cardBlock blockOffset remaining hb take block card' hread card'' hwrite ih =>
    have hcard : card' = (dev.read card cardBlock 1).2 := by rw [← readCardBlock_card, hread]
    have himage : image card' = image card := by rw [hcard, law.read_image]
    have hn' : dev.numBlocks card' = some n := by rw [hcard, law.read_numBlocks, hn]
    have hcb : cardBlock = absolute / 512 := cardBlockOf_eq hn32 (by simp only [absolute]; omega)
    have hblock := readCardBlock_ok law hread
    have htake : blockOffset + take ≤ 512 ∧ done + take ≤ buf.length ∧ cardBlock * 512 + blockOffset = start + done := by
      simp only [hcb, absolute, take, blockOffset, remaining, BLOCK_LEN]
      omega
    rw [writeCardBlock_eq, Prod.mk.injEq] at hwrite
    obtain ⟨hok, rfl⟩ := hwrite
    have htrue : (dev.write card' cardBlock [block.splice blockOffset ((buf.drop done).take take)]).1 = true := by
      by_contra h
      rw [if_neg h] at hok
      cases hok
    refine WriteOutcome.after htake.2.1 ?_ (ih (by rw [law.write_numBlocks, hn']) htake.2.1)
    rw [law.write_true _ _ _ htrue, himage, hblock, CardAux.byteAt_patch_splice _ _ _ _ (by simp; omega), htake.2.2]
  | case6 done card hge =>
    have hrest : buf.drop done = [] := List.drop_of_length_le (by omega)
    exact ⟨hn, Or.inl ⟨rfl, by rw [hrest, patch_nil]⟩⟩

end SdBlockAux

end Ratputer
