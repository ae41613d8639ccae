import Ratputer.Lemmas.MscCache
import Ratputer.Lib.Mealy

/-!
# The block cache is invisible

Runs of the class between attaches and detaches, beside the same runs of a device without a cache. While the backend serves
its transfers, both answer every command with the same packets, residue and status and leave the same card; the invariant is
that a cache of the current generation holds what the card holds.
-/

namespace Ratputer

open Patch MscAux

variable {D : Type} (dev : BlockDevice D) (image : D → ℕ → Block)

/-! ## Runs -/

/-- What happens to the drive: a command with the data that the host sends behind it, an attach, a detach, or the firmware
writing to the card. -/
inductive DriveEvent (D : Type) where
  | command (cbw : Cbw) (payload : List UInt8)
  | attach (context : ℕ)
  | detach
  | rewrite (card : D)

/-- The class, the state it shares with the firmware, and the card. -/
structure Drive (D : Type) where
  cls : MscClass
  shared : SharedState
  card : D

/-- The same without a cache. -/
structure PlainDrive (D : Type) where
  shared : SharedState
  card : D

/-- What the host sees of a command: the packets of the data phase, and residue and status of the CSW. -/
abbrev Observation : Type := Option (List Packet × CommandResult)

def Drive.step (s : Drive D) : DriveEvent D → Drive D × Observation
  | .command cbw payload =>
    match Bus.exec dev (s.cls.execute cbw) ⟨s.shared, s.card, dataPackets payload, [], []⟩ with
    | none => (s, none)
    | some ((result, cls), b) => (⟨cls, b.shared, b.card⟩, some (b.inQueue, result))
  | .attach context => ({ s with shared := s.shared.attach context ((dev.numBlocks s.card).getD 0) }, none)
  | .detach => ({ s with shared := s.shared.detach }, none)
  | .rewrite card => ({ s with card }, none)

def PlainDrive.step (s : PlainDrive D) : DriveEvent D → PlainDrive D × Observation
  | .command cbw payload =>
    match Bus.exec dev (Uncached.execute cbw) ⟨s.shared, s.card, dataPackets payload, [], []⟩ with
    | none => (s, none)
    | some (result, b) => (⟨b.shared, b.card⟩, some (b.inQueue, result))
  | .attach context => ({ s with shared := s.shared.attach context ((dev.numBlocks s.card).getD 0) }, none)
  | .detach => ({ s with shared := s.shared.detach }, none)
  | .rewrite card => ({ s with card }, none)

/-- The class as built, on a card that is not attached. -/
def Drive.initial (card : D) : Drive D := ⟨.new, .default, card⟩

def PlainDrive.initial (card : D) : PlainDrive D := ⟨.default, card⟩

/-- The host sends the data that it announced, and the firmware writes to the card only while it is detached. -/
def Provided (s : Drive D) : DriveEvent D → Prop
  | .command cbw payload => cbw.direction = .out → payload.length = cbw.transferLen
  | .rewrite _ => s.shared.attached = false
  | _ => True

def DriveEvent.isAttach : DriveEvent D → Bool
  | .attach _ => true
  | _ => false

/-- The coherence invariant of a drive: what an attached class of the current generation caches is what the card holds. -/
structure Drive.Inv (s : Drive D) : Prop where
  cacheGeneration_le : s.cls.cacheGeneration ≤ s.shared.generation
  capacity : s.shared.attached = true → (∃ context, s.shared.backend = .device context) ∧
    (s.shared.blocks = 0 ∨ dev.numBlocks s.card = some s.shared.blocks)
  coherent : s.shared.attached = true → s.cls.cacheGeneration = s.shared.generation →
    s.cls.cache.Coherent (image s.card)

namespace MscAux

variable {dev image}

/-! ## One command on both devices -/

/-- A command on both devices, from the same shared state up to its counters and from cards with the same contents: they
answer alike, change the shared state alike and leave the same contents; a coherent cache stays coherent. -/
def Agree (dev : BlockDevice D) (image : D → ℕ → Block) (s : SharedState) (queue : List Packet) (card card' : D)
    (t : MscM (CommandResult × BlockCache)) (u : MscM CommandResult) : Prop :=
  ∀ stats stats', ∃ result packets ejected sense stats1 stats1' cache card1 card1' rest,
    Bus.exec dev t ⟨{ s with stats }, card, queue, [], []⟩ =
      some ((result, cache), ⟨{ s with ejected, sense, stats := stats1 }, card1, rest, packets, []⟩) ∧
    Bus.exec dev u ⟨{ s with stats := stats' }, card', queue, [], []⟩ =
      some (result, ⟨{ s with ejected, sense, stats := stats1' }, card1', rest, packets, []⟩) ∧
    dev.numBlocks card1 = dev.numBlocks card ∧ dev.numBlocks card1' = dev.numBlocks card' ∧ image card1 = image card1' ∧
    (s.attached = true → cache.Coherent (image card1))

section

variable {s : SharedState} {card card' : D} {cache : BlockCache} {cbw : Cbw} {queue : List Packet}

/-- The attached card serves what both devices ask for. -/
theorem serves_of_inRange (law : dev.Lawful image) (hs : dev.Succeeds) {direction : Direction}
    (hcap : s.attached = true → (∃ context, s.backend = .device context) ∧
      (s.blocks = 0 ∨ dev.numBlocks card = some s.blocks))
    (hr : cbw.InRange direction s.blockCount) (stats : Stats) :
    s.attached = true ∧ s.blockCount ≤ s.blocks ∧
      ∀ queue packets commands, Serves dev image s.blocks ⟨{ s with stats }, card, queue, packets, commands⟩ := by
  have hle := hr.le
  have hpos := hr.blocks
  rw [SharedState.blockCount] at hle ⊢
  split at hle
  · rename_i h
    obtain ⟨hb, h0 | hn⟩ := hcap (Bool.and_eq_true_iff.mp h).1
    · omega
    · exact ⟨(Bool.and_eq_true_iff.mp h).1, by rw [if_pos h], fun _ _ _ => ⟨law, hs, hb, hn⟩⟩
  · omega

/-- Commands without blocks are the same on both devices. -/
theorem agree_other (himage : image card = image card') (hcache : s.attached = true → cache.Coherent (image card)) :
    Agree dev image s queue card card' (do pure (← executeOther cbw, cache)) (executeOther cbw) := by
  intro stats stats'
  obtain ⟨result, ejected, sense, h⟩ := (replies_executeOther : Replies dev s cbw _ _)
  exact ⟨result, _, ejected, sense, stats, stats', cache, card, card', queue,
    by rw [exec_bind, h ⟨s, card, queue, [], []⟩ stats]; rfl, h ⟨s, card', queue, [], []⟩ stats', rfl, rfl, himage, hcache⟩

/-- READ(10) is the same on both devices. -/
theorem agree_read10 (law : dev.Lawful image) (hs : dev.Succeeds) (himage : image card = image card')
    (hnum : dev.numBlocks card' = dev.numBlocks card)
    (hcap : s.attached = true → (∃ context, s.backend = .device context) ∧
      (s.blocks = 0 ∨ dev.numBlocks card = some s.blocks))
    (hcache : s.attached = true → cache.Coherent (image card)) :
    Agree dev image s queue card card' (read10 cache cbw) (Uncached.read10 cbw) := by
  intro stats stats'
  by_cases h1 : cbw.direction ≠ .in_ ∨ cbw.transferLen ≠ cbw.blocks * BLOCK_LEN
  · simp only [read10, Uncached.read10, if_pos h1]
    exact ⟨_, [], s.ejected, s.sense, stats, stats', cache, card, card', queue, rfl, rfl, rfl, rfl, himage, hcache⟩
  by_cases h2 : cbw.blocks = 0
  · simp only [read10, Uncached.read10, if_neg h1, if_pos h2]
    exact ⟨_, [], s.ejected, s.sense, stats, stats', cache, card, card', queue, rfl, rfl, rfl, rfl, himage, hcache⟩
  have hcount : ∀ stats, SharedState.blockCount { s with stats } = s.blockCount := fun _ => rfl
  simp only [read10, Uncached.read10, if_neg h1, if_neg h2, exec_bind, exec_borrow, Option.bind_some, hcount]
  by_cases h3 : 2 ^ 32 ≤ cbw.lba + cbw.blocks ∨ cbw.lba + cbw.blocks > s.blockCount
  · simp only [if_pos h3, exec_bind, exec_modifyShared, Option.bind_some, exec_pure]
    exact ⟨_, [], s.ejected, ⟨SENSE_ILLEGAL_REQUEST, ASC_INVALID_FIELD, 0⟩, stats, stats', cache, card, card', queue, rfl,
      rfl, rfl, rfl, himage, hcache⟩
  · have hr : cbw.InRange .in_ s.blockCount := by
      simp only [not_or, Decidable.not_not, not_le, not_lt] at h1 h3
      exact ⟨h1.1, h1.2, h2, h3.1, h3.2⟩
    simp only [if_neg h3]
    obtain ⟨hatt, hle, hserves⟩ := serves_of_inRange law hs hcap hr stats
    have hserves' := (serves_of_inRange law hs (by rwa [← hnum] at hcap) hr stats').2.2
    have hmoved : cbw.lba + cbw.blocks - cbw.lba = cbw.blocks := Nat.add_sub_cancel_left ..
    obtain ⟨cache1, card1, stats1, hrun, hn1, himage1, hcache1⟩ := exec_read10Loop (decide (cbw.blocks > LINE_BLOCKS)) hr.le hle
      cbw.blocks cache cbw.lba cbw.transferLen _ (hserves queue [] []) (hcache hatt) (Nat.le_add_right ..) hmoved.le
    obtain ⟨card2, hrun', hn2, himage2⟩ := exec_uncached_readLoop (hr.le.trans hle) cbw.blocks cbw.lba cbw.transferLen _
      (hserves' queue [] []) (Nat.le_add_right ..) hmoved.le
    refine ⟨_, _, s.ejected, s.sense, stats1, stats', cache1, card1, card2, queue, hrun, ?_, ?_, ?_, ?_, ?_⟩
    · rw [hrun', himage]
    · rw [hn1, (hserves queue [] []).numBlocks]
    · rw [hn2, (hserves' queue [] []).numBlocks]
    · rw [himage1, himage2, himage]
    · rw [himage1]
      exact fun _ => hcache1

/-- WRITE(10) is the same on both devices, when the host sends the data it announced. -/
theorem agree_write10 (law : dev.Lawful image) (hs : dev.Succeeds) (himage : image card = image card')
    (hnum : dev.numBlocks card' = dev.numBlocks card)
    (hcap : s.attached = true → (∃ context, s.backend = .device context) ∧
      (s.blocks = 0 ∨ dev.numBlocks card = some s.blocks))
    (hcache : s.attached = true → cache.Coherent (image card)) {payload : List UInt8}
    (hp : cbw.direction = .out → payload.length = cbw.transferLen) :
    Agree dev image s (dataPackets payload) card card' (write10 cache cbw) (Uncached.write10 cbw) := by
  intro stats stats'
  have hq : dataPackets payload = dataPackets payload ++ [] := (List.append_nil _).symm
  by_cases h1 : cbw.direction ≠ .out ∨ cbw.transferLen ≠ cbw.blocks * BLOCK_LEN
  · simp only [write10, Uncached.write10, if_pos h1]
    exact ⟨_, [], s.ejected, s.sense, stats, stats', cache, card, card', _, rfl, rfl, rfl, rfl, himage, hcache⟩
  by_cases h2 : cbw.blocks = 0
  · simp only [write10, Uncached.write10, if_neg h1, if_pos h2]
    exact ⟨_, [], s.ejected, s.sense, stats, stats', cache, card, card', _, rfl, rfl, rfl, rfl, himage, hcache⟩
  have hcount : ∀ stats, SharedState.blockCount { s with stats } = s.blockCount := fun _ => rfl
  have hlen : payload.length = cbw.transferLen := hp (by simp only [not_or, Decidable.not_not] at h1; exact h1.1)
  simp only [write10, Uncached.write10, if_neg h1, if_neg h2, exec_bind, exec_borrow, Option.bind_some, hcount]
  by_cases h3 : 2 ^ 32 ≤ cbw.lba + cbw.blocks ∨ cbw.lba + cbw.blocks > s.blockCount
  · have hdrain : ∀ (shared : SharedState) (card : D), Bus.exec dev (discardOut payload.length)
        ⟨shared, card, dataPackets payload, [], []⟩ = some (.ok (), ⟨shared, card, [], [], []⟩) :=
      fun shared card => exec_discardOut payload [] _ hq
    simp only [if_pos h3, exec_bind, exec_modifyShared, Option.bind_some, ← hlen, hdrain]
    exact ⟨_, [], s.ejected, ⟨SENSE_ILLEGAL_REQUEST, ASC_INVALID_FIELD, 0⟩, stats, stats', cache, card, card', [], rfl,
      rfl, rfl, rfl, himage, hcache⟩
  · have hr : cbw.InRange .out s.blockCount := by
      simp only [not_or, Decidable.not_not, not_le, not_lt] at h1 h3
      exact ⟨h1.1, h1.2, h2, h3.1, h3.2⟩
    simp only [if_neg h3]
    obtain ⟨hatt, hle, hserves⟩ := serves_of_inRange law hs hcap hr stats
    have hserves' := (serves_of_inRange law hs (by rwa [← hnum] at hcap) hr stats').2.2
    have hmoved : cbw.lba + cbw.blocks - cbw.lba = cbw.blocks := Nat.add_sub_cancel_left ..
    have hdata : payload.length = (cbw.lba + cbw.blocks - cbw.lba) * BLOCK_LEN := by rw [hmoved, hlen, hr.transferLen]
    obtain ⟨cache1, card1, stats1, hrun, hn1, himage1, hcache1⟩ := exec_write10Loop (hr.le.trans hle) [] cbw.blocks cache
      cbw.lba cbw.transferLen payload _ (hserves _ [] []) (hcache hatt) (Nat.le_add_right ..) hmoved.le hdata hq
    obtain ⟨card2, hrun', hn2, himage2⟩ := exec_uncached_writeLoop (hr.le.trans hle) [] cbw.blocks cbw.lba cbw.transferLen
      payload _ (hserves' _ [] []) (Nat.le_add_right ..) hmoved.le hdata hq
    refine ⟨_, _, s.ejected, s.sense, stats1, stats', cache1, card1, card2, [], hrun, hrun', ?_, ?_, ?_, fun _ => hcache1⟩
    · rw [hn1, (hserves [] [] []).numBlocks]
    · rw [hn2, (hserves' [] [] []).numBlocks]
    · rw [himage1, himage2, himage]

end

end MscAux

variable {dev image}

/-- The drive and the drive without a cache: the same shared state up to its counters, and the same contents. -/
structure Related (dev : BlockDevice D) (image : D → ℕ → Block) (s : Drive D) (t : PlainDrive D) : Prop where
  inv : s.Inv dev image
  shared : ∃ stats, t.shared = { s.shared with stats }
  image_eq : image t.card = image s.card
  numBlocks_eq : dev.numBlocks t.card = dev.numBlocks s.card

/-- The class after the generation check: a cache of the current generation, coherent if the class is attached. -/
theorem refresh_coherent {s : Drive D} (h : s.Inv dev image) :
    (s.cls.refresh s.shared.generation).cacheGeneration = s.shared.generation ∧
    (s.shared.attached = true → (s.cls.refresh s.shared.generation).cache.Coherent (image s.card)) := by
  unfold MscClass.refresh
  split
  · exact ⟨rfl, fun _ => coherent_invalidate _ _⟩
  · rename_i heq
    simp only [ne_eq, Decidable.not_not] at heq
    exact ⟨heq.symm, fun hatt => h.coherent hatt heq.symm⟩

/-- A command runs to its end on both devices and agrees on them. -/
theorem execute_agree (law : dev.Lawful image) (hs : dev.Succeeds) {s : Drive D} {t : PlainDrive D}
    (h : Related dev image s t) {cbw : Cbw} {payload : List UInt8}
    (hp : cbw.direction = .out → payload.length = cbw.transferLen) :
    Related dev image (s.step dev (.command cbw payload)).1 (t.step dev (.command cbw payload)).1 ∧
      (s.step dev (.command cbw payload)).2 = (t.step dev (.command cbw payload)).2 ∧
      (s.step dev (.command cbw payload)).1.shared.generation = s.shared.generation := by
  obtain ⟨stats', hshared⟩ := h.shared
  obtain ⟨hgen, hcache⟩ := refresh_coherent h.inv
  have himage := h.image_eq.symm
  have hcap := h.inv.capacity
  -- Each of the three kinds of command agrees from the refreshed class.
  have hagree : ∃ f : MscM (CommandResult × BlockCache),
      Agree dev image s.shared (dataPackets payload) s.card t.card f (Uncached.execute cbw) ∧
      Bus.exec dev (s.cls.execute cbw) ⟨s.shared, s.card, dataPackets payload, [], []⟩ =
        (Bus.exec dev f ⟨s.shared, s.card, dataPackets payload, [], []⟩).map
          fun r => ((r.1.1, { s.cls.refresh s.shared.generation with cache := r.1.2 }), r.2) := by
    unfold Uncached.execute
    split_ifs with h1 h2
    · exact ⟨_, agree_read10 law hs himage h.numBlocks_eq hcap hcache, exec_execute_read h1⟩
    · exact ⟨_, agree_write10 law hs himage h.numBlocks_eq hcap hcache hp, exec_execute_write h2⟩
    · refine ⟨_, agree_other himage hcache, ?_⟩
      rw [exec_execute_other h1 h2, exec_bind, Option.map_bind]
      exact Option.map_eq_bind
  obtain ⟨f, hf, hexec⟩ := hagree
  obtain ⟨result, packets, ejected, sense, stats1, stats1', cache, card1, card1', rest, h1, h2, h3, h4, h5, h6⟩ :=
    hf s.shared.stats stats'
  rw [h1] at hexec
  simp only [Drive.step, PlainDrive.step, hshared, hexec, h2, Option.map_some]
  refine ⟨⟨⟨hgen.le, ?_, fun hatt _ => h6 hatt⟩, ⟨stats1', rfl⟩, h5.symm, ?_⟩, trivial, trivial⟩
  · intro hatt
    simp only [h3]
    exact hcap hatt
  · simp only [h3, h4, h.numBlocks_eq]

/-- One step of a run keeps the drives related and the host none the wiser. -/
theorem step_agree (law : dev.Lawful image) (hs : dev.Succeeds) {s : Drive D} {t : PlainDrive D}
    (h : Related dev image s t) {e : DriveEvent D} (hp : Provided s e)
    (hgen : e.isAttach = true → s.shared.generation + 1 < 2 ^ 32) :
    Related dev image (s.step dev e).1 (t.step dev e).1 ∧ (s.step dev e).2 = (t.step dev e).2 ∧
      (s.step dev e).1.shared.generation = s.shared.generation + if e.isAttach then 1 else 0 := by
  obtain ⟨stats', hshared⟩ := h.shared
  have hinv := h.inv
  cases e with
  | command cbw payload => exact execute_agree law hs h hp
  | attach context =>
    have hnext : (s.shared.generation + 1) % 2 ^ 32 = s.shared.generation + 1 := Nat.mod_eq_of_lt (hgen rfl)
    refine ⟨⟨⟨?_, ?_, ?_⟩, ⟨.default, ?_⟩, h.image_eq, h.numBlocks_eq⟩, rfl, hnext⟩
    · exact hinv.cacheGeneration_le.trans ((Nat.le_succ _).trans hnext.ge)
    · intro _
      refine ⟨⟨context, rfl⟩, ?_⟩
      simp only [Drive.step, SharedState.attach]
      rcases dev.numBlocks s.card with _ | n
      · exact Or.inl rfl
      · exact Or.inr rfl
    · -- The new generation is above every cached one.
      intro _ heq
      simp only [Drive.step, SharedState.attach, hnext] at heq
      have hle := hinv.cacheGeneration_le
      omega
    · simp only [Drive.step, PlainDrive.step, hshared, h.numBlocks_eq, SharedState.attach]
  | detach =>
    exact ⟨⟨⟨hinv.cacheGeneration_le, nofun, nofun⟩, ⟨stats', by simp only [Drive.step, PlainDrive.step, hshared]; rfl⟩,
      h.image_eq, h.numBlocks_eq⟩, rfl, rfl⟩
  | rewrite card =>
    have hdetached : s.shared.attached = false := hp
    refine ⟨⟨⟨hinv.cacheGeneration_le, ?_, ?_⟩, ⟨stats', hshared⟩, rfl, rfl⟩, rfl, rfl⟩
    · intro hatt
      simp [Drive.step, hdetached] at hatt
    · intro hatt
      simp [Drive.step, hdetached] at hatt

/-- A run keeps the drives related and answers alike, while the generation does not wrap. -/
theorem run_agree (law : dev.Lawful image) (hs : dev.Succeeds) (es : List (DriveEvent D)) {s : Drive D} {t : PlainDrive D}
    (h : Related dev image s t) (hp : Mealy.Along (Drive.step dev) Provided s es)
    (hgen : s.shared.generation + es.countP DriveEvent.isAttach < 2 ^ 32) :
    Related dev image (Mealy.final (Drive.step dev) s es) (Mealy.final (PlainDrive.step dev) t es) ∧
      Mealy.outputs (Drive.step dev) s es = Mealy.outputs (PlainDrive.step dev) t es := by
  induction es generalizing s t with
  | nil => exact ⟨h, rfl⟩
  | cons e es ih =>
    rw [List.countP_cons] at hgen
    obtain ⟨h1, h2, h3⟩ := step_agree law hs h hp.1 (by intro ha; rw [if_pos ha] at hgen; omega)
    obtain ⟨h4, h5⟩ := ih h1 hp.2 (by rw [h3]; omega)
    exact ⟨h4, by rw [Mealy.outputs_cons, Mealy.outputs_cons, h2, h5]⟩

/-- On a drive whose cache is coherent, a READ(10) inside the card sends the blocks that the card holds. -/
theorem read_sends_card (law : dev.Lawful image) (hs : dev.Succeeds) {s : Drive D} (h : s.Inv dev image) {cbw : Cbw}
    (hop : cbw.byte 0 = SCSI_READ_10) (hr : cbw.InRange .in_ s.shared.blockCount) (payload : List UInt8) :
    (s.step dev (.command cbw payload)).2 =
      some (dataPackets ((window (image s.card) cbw.lba cbw.blocks).flatMap Block.bytes), (0, .passed)) := by
  obtain ⟨hatt, hle, hserves⟩ := serves_of_inRange law hs h.capacity hr s.shared.stats
  have h1 : ¬ (cbw.direction ≠ .in_ ∨ cbw.transferLen ≠ cbw.blocks * BLOCK_LEN) := by
    simp only [hr.direction, hr.transferLen, ne_eq, not_true_eq_false, or_self, not_false_eq_true]
  have h3 : ¬ (2 ^ 32 ≤ cbw.lba + cbw.blocks ∨ cbw.lba + cbw.blocks > s.shared.blockCount) := by
    have := hr.lt
    have := hr.le
    omega
  have hmoved : cbw.lba + cbw.blocks - cbw.lba = cbw.blocks := Nat.add_sub_cancel_left ..
  have hserves' : Serves dev image s.shared.blocks ⟨s.shared, s.card, dataPackets payload, [], []⟩ := hserves ..
  obtain ⟨cache1, card1, stats1, hrun, -, -, -⟩ := exec_read10Loop (decide (cbw.blocks > LINE_BLOCKS)) hr.le hle cbw.blocks _
    cbw.lba cbw.transferLen _ hserves' ((refresh_coherent h).2 hatt) (Nat.le_add_right ..) hmoved.le
  simp only [hmoved, hr.transferLen, Nat.sub_self, List.nil_append] at hrun
  simp only [Drive.step, MscClass.execute, exec_bind, exec_borrow, Option.bind_some, hop, if_true, read10, if_neg h1,
    if_neg hr.blocks, if_neg h3]
  simp only [hr.transferLen, hrun, Option.bind_some, exec_pure]

/-- In every run with fewer than `2 ^ 32` attaches, over a backend that serves its transfers, the class answers every command
as a device without a cache does and leaves the card with the same contents; its cache is coherent in every state reached, and
every READ(10) inside the card sends the blocks that the card holds. -/
theorem cache_invisible (law : dev.Lawful image) (hs : dev.Succeeds) (card : D) (es : List (DriveEvent D))
    (hp : Mealy.Along (Drive.step dev) Provided (Drive.initial card) es)
    (hattach : es.countP DriveEvent.isAttach < 2 ^ 32) :
    Mealy.outputs (Drive.step dev) (Drive.initial card) es =
        Mealy.outputs (PlainDrive.step dev) (PlainDrive.initial card) es ∧
    image (Mealy.final (Drive.step dev) (Drive.initial card) es).card =
        image (Mealy.final (PlainDrive.step dev) (PlainDrive.initial card) es).card ∧
    (Mealy.final (Drive.step dev) (Drive.initial card) es).Inv dev image ∧
    ∀ cbw payload, cbw.byte 0 = SCSI_READ_10 →
      cbw.InRange .in_ (Mealy.final (Drive.step dev) (Drive.initial card) es).shared.blockCount →
      ((Mealy.final (Drive.step dev) (Drive.initial card) es).step dev (.command cbw payload)).2 =
        some (dataPackets ((window (image (Mealy.final (Drive.step dev) (Drive.initial card) es).card) cbw.lba
          cbw.blocks).flatMap Block.bytes), (0, .passed)) := by
  have hinit : Related dev image (Drive.initial card) (PlainDrive.initial card) :=
    ⟨⟨le_rfl, nofun, nofun⟩, ⟨.default, rfl⟩, rfl, rfl⟩
  have hzero : (Drive.initial card).shared.generation + es.countP DriveEvent.isAttach < 2 ^ 32 := by
    rwa [show (Drive.initial card).shared.generation = 0 from rfl, Nat.zero_add]
  obtain ⟨h1, h2⟩ := run_agree law hs es hinit hp hzero
  exact ⟨h2, h1.image_eq.symm, h1.inv, fun cbw payload hop hr => read_sends_card law hs h1.inv hop hr payload⟩

/-- A READ(10) or WRITE(10) of one block. -/
def oneBlock (opcode : UInt8) (direction : Direction) (lba : UInt8) : Cbw :=
  ⟨1, 512, direction, 0, 10, [opcode, 0, 0, 0, 0, lba, 0, 0, 1, 0, 0, 0, 0, 0, 0, 0]⟩

/-- A read, a write and a read of the second of two blocks. -/
def readWriteRead : List (DriveEvent (List Block)) :=
  [.attach 0, .command (oneBlock SCSI_READ_10 .in_ 1) [], .command (oneBlock SCSI_WRITE_10 .out 1) (List.replicate 512 7),
    .command (oneBlock SCSI_READ_10 .in_ 1) []]

/-- Attached to a card of two empty blocks, the class reads back the block written behind a cached read of it. -/
theorem cache_invisible_ramCard :
    Mealy.outputs (Drive.step ramCard) (Drive.initial [Block.new, Block.new]) readWriteRead =
      [none, some (dataPackets (List.replicate 512 0), (0, .passed)), some ([], (0, .passed)),
        some (dataPackets (List.replicate 512 7), (0, .passed))] := by
  have hprovided : Mealy.Along (Drive.step ramCard) Provided (Drive.initial [Block.new, Block.new]) readWriteRead :=
    ⟨trivial, nofun, fun _ => List.length_replicate, nofun, trivial⟩
  refine (cache_invisible ramCard_lawful ramCard_succeeds _ _ hprovided (by decide)).1.trans ?_
  decide +kernel

end Ratputer
