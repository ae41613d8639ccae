import Ratputer.Bus

/-!
# What the parts of the mass-storage class do on the bus

One statement for each helper of the class, on a bus whose packets have the sizes the helper reads.
-/

namespace Ratputer

open Chunks Octets

namespace MscAux

variable {D : Type} {dev : BlockDevice D} {α β : Type}

/-- A value leaves the bus alone. -/
@[simp] theorem exec_pure (a : α) (b : Bus D) : Bus.exec dev (pure a) b = some (a, b) := rfl

/-- Parts of a command run one after the other. -/
@[simp] theorem exec_bind (t : MscM α) (f : α → MscM β) (b : Bus D) :
    Bus.exec dev (t >>= f) b = (Bus.exec dev t b).bind fun r => Bus.exec dev (f r.1) r.2 :=
  Coroutine.exec_bind _ t f b

/-- An operation runs its handler. -/
theorem exec_perform (o : MscOp) (b : Bus D) : Bus.exec dev (perform o) b = b.handle dev o :=
  Coroutine.exec_perform _ o b

/-- A function of the value. -/
@[simp] theorem exec_map (f : α → β) (t : MscM α) (b : Bus D) :
    Bus.exec dev (f <$> t) b = (Bus.exec dev t b).map fun r => (f r.1, r.2) :=
  Coroutine.exec_map _ t f b

/-- A conditional runs one of its branches. -/
@[simp] theorem exec_ite {c : Prop} [Decidable c] (t u : MscM α) (b : Bus D) :
    Bus.exec dev (if c then t else u) b = if c then Bus.exec dev t b else Bus.exec dev u b := by
  split <;> rfl

/-- A look at the shared state. -/
@[simp] theorem exec_borrow (b : Bus D) : Bus.exec dev borrow b = some (b.shared, b) :=
  exec_perform _ b

/-- A change of the shared state. -/
@[simp] theorem exec_modifyShared (f : SharedState → SharedState) (b : Bus D) :
    Bus.exec dev (modifyShared f) b = some ((), { b with shared := f b.shared }) := by
  rw [modifyShared, exec_bind, exec_perform]
  rfl

/-- Data is queued for the host. -/
@[simp] theorem exec_endpointWrite (phase : Phase) (data : List UInt8) (b : Bus D) :
    Bus.exec dev (endpointWrite phase data) b = some (.ok (), { b with inQueue := b.inQueue ++ [⟨phase, data⟩] }) :=
  exec_perform _ b

/-- A read takes the oldest packet, when that fits the buffer. -/
theorem exec_endpointRead (phase : Phase) (len : ℕ) (b : Bus D) {packet : Packet} {rest : List Packet}
    (hq : b.outQueue = packet :: rest) (hlen : packet.bytes.length ≤ len) :
    Bus.exec dev (endpointRead phase len) b = some (.ok packet.bytes,
      { b with outQueue := rest, commands := if phase = .command then b.commands ++ [packet] else b.commands }) := by
  rw [endpointRead, exec_perform, Bus.handle, hq]
  exact if_pos hlen

/-! ## Packets -/

/-- Chunks go out as data packets, in order. -/
theorem exec_writeChunks (l : List (List UInt8)) (b : Bus D) :
    Bus.exec dev (writeChunks l) b = some (.ok (), { b with inQueue := b.inQueue ++ l.map (Packet.mk .data) }) := by
  induction l generalizing b with
  | nil => simp [writeChunks]
  | cons chunk l ih =>
    rw [writeChunks, exec_bind, exec_endpointWrite, Option.bind_some, ih]
    simp

/-- Data goes out as its data packets. -/
@[simp] theorem exec_writePackets (data : List UInt8) (b : Bus D) :
    Bus.exec dev (writePackets data) b = some (.ok (), { b with inQueue := b.inQueue ++ dataPackets data }) :=
  exec_writeChunks _ b

/-- Packets of the expected sizes are read off the queue. -/
theorem exec_readChunks (l : List (List UInt8)) (rest : List Packet) (b : Bus D)
    (hq : b.outQueue = l.map (Packet.mk .data) ++ rest) :
    Bus.exec dev (readChunks (l.map List.length)) b = some (.ok l.flatten, { b with outQueue := rest }) := by
  induction l generalizing b with
  | nil =>
    obtain rfl : b.outQueue = rest := hq
    rfl
  | cons chunk l ih =>
    rw [List.map_cons, List.cons_append] at hq
    rw [List.map_cons, readChunks, exec_bind, exec_endpointRead _ _ b hq le_rfl]
    simp only [Option.bind_some, ne_eq, not_true_eq_false, if_false, exec_bind, reduceCtorEq]
    rw [ih _ rfl]
    rfl

/-- A block is read from its eight packets. -/
theorem exec_readBlock {data : List UInt8} (hd : data.length = BLOCK_LEN) (rest : List Packet) (b : Bus D)
    (hq : b.outQueue = dataPackets data ++ rest) :
    Bus.exec dev readBlock b = some (.ok (Block.ofBytes data), { b with outQueue := rest }) := by
  have hsizes : (chunks BULK_PACKET_SIZE data).map List.length =
      List.replicate (BLOCK_LEN / BULK_PACKET_SIZE) BULK_PACKET_SIZE := by
    rw [List.eq_replicate_iff]
    refine ⟨?_, ?_⟩
    · simp [chunks, hd, BLOCK_LEN, BULK_PACKET_SIZE]
    · intro n hn
      obtain ⟨c, hc, rfl⟩ := List.mem_map.mp hn
      exact length_of_mem_chunks_of_dvd (by decide) (by rw [hd]; decide) c hc
  rw [readBlock, exec_bind, ← hsizes, exec_readChunks _ rest b hq, flatten_chunks (by decide)]
  rfl

/-- The blocks that the host's data holds. -/
def blocksOf (data : List UInt8) : List Block := (chunks BLOCK_LEN data).map Block.ofBytes

/-- A payload of whole blocks has so many. -/
theorem length_blocksOf {data : List UInt8} {count : ℕ} (h : data.length = count * BLOCK_LEN) :
    (blocksOf data).length = count := by
  have hdiv : (count * BLOCK_LEN + (BLOCK_LEN - 1)) / BLOCK_LEN = count := by
    simp only [BLOCK_LEN]
    omega
  rw [blocksOf, List.length_map, chunks, List.length_map, List.length_range, h, hdiv]

/-- Whole blocks in front are blocks of the whole. -/
theorem blocksOf_append {data : List UInt8} {count : ℕ} (h : data.length = count * BLOCK_LEN) (rest : List UInt8) :
    blocksOf (data ++ rest) = blocksOf data ++ blocksOf rest := by
  rw [blocksOf, chunks_append (by decide) _ (Dvd.intro_left count h.symm), List.map_append]
  rfl

/-- `count` blocks are read from their packets. -/
theorem exec_readBlocks (count : ℕ) {data : List UInt8} (hd : data.length = count * BLOCK_LEN) (rest : List Packet) (b : Bus D)
    (hq : b.outQueue = dataPackets data ++ rest) :
    Bus.exec dev (readBlocks count) b =
      some (.ok (blocksOf data), { b with outQueue := rest }) := by
  induction count generalizing data b with
  | zero =>
    obtain rfl : data = [] := List.length_eq_zero_iff.mp (by simpa using hd)
    obtain rfl : b.outQueue = rest := by simpa [dataPackets] using hq
    simp [readBlocks, blocksOf]
  | succ count ih =>
    have hhead : (data.take BLOCK_LEN).length = BLOCK_LEN := by
      rw [List.length_take, hd, Nat.succ_mul]
      omega
    have htail : (data.drop BLOCK_LEN).length = count * BLOCK_LEN := by
      rw [List.length_drop, hd, Nat.succ_mul]
      omega
    have hne : data ≠ [] := by
      rintro rfl
      simp [BLOCK_LEN] at hhead
    have hsplit : dataPackets data = dataPackets (data.take BLOCK_LEN) ++ dataPackets (data.drop BLOCK_LEN) := by
      rw [dataPackets, dataPackets, dataPackets, ← List.map_append,
        ← chunks_append (by decide) _ (by rw [hhead]; decide), List.take_append_drop]
    rw [hsplit, List.append_assoc] at hq
    rw [readBlocks, exec_bind, exec_readBlock hhead _ b hq, Option.bind_some]
    simp only [exec_bind]
    rw [ih htail _ rfl, blocksOf, blocksOf, chunks_of_ne_nil (by decide) hne]
    rfl

/-- What is left of a data phase is drained packet by packet. -/
theorem exec_discardOut (data : List UInt8) (rest : List Packet) (b : Bus D) (hq : b.outQueue = dataPackets data ++ rest) :
    Bus.exec dev (discardOut data.length) b = some (.ok (), { b with outQueue := rest }) := by
  have hpos : 0 < BULK_PACKET_SIZE := by decide
  revert b
  refine Chunks.induction (P := fun data => ∀ b : Bus D, b.outQueue = dataPackets data ++ rest →
    Bus.exec dev (discardOut data.length) b = some (.ok (), { b with outQueue := rest })) hpos ?_ ?_ data
  · intro b hq
    obtain rfl : b.outQueue = rest := by simpa [dataPackets] using hq
    rw [discardOut, dif_pos (by simp)]
    rfl
  · intro data hne ih b hq
    have hlen : data.length ≠ 0 := by simpa using hne
    have hhead : (data.take BULK_PACKET_SIZE).length = min data.length BULK_PACKET_SIZE := by
      rw [List.length_take, Nat.min_comm]
    have htail : data.length - min data.length BULK_PACKET_SIZE = (data.drop BULK_PACKET_SIZE).length := by
      rw [List.length_drop]
      omega
    rw [dataPackets, chunks_of_ne_nil hpos hne, List.map_cons, List.cons_append] at hq
    rw [discardOut, dif_neg hlen, exec_bind, exec_endpointRead _ _ b hq hhead.le]
    simp only [hhead, Option.bind_some, ne_eq, not_true_eq_false, if_false, reduceCtorEq, htail]
    exact ih _ rfl

/-! ## Data to the host -/

/-- What `send_data` sends: to a host that reads, what it asked for of the data, and an empty packet when that ends on a packet
boundary before the host has all it asked for; nothing to a host that writes. -/
def sentPackets (cbw : Cbw) (data : List UInt8) : List Packet :=
  if cbw.direction ≠ .in_ ∧ cbw.transferLen ≠ 0 then []
  else
    let count := min data.length cbw.transferLen
    dataPackets (data.take count) ++
      if count < cbw.transferLen ∧ count % BULK_PACKET_SIZE = 0 then [⟨.data, []⟩] else []

/-- What `send_data` reports. -/
def sentResult (cbw : Cbw) (data : List UInt8) : CommandResult :=
  if cbw.direction ≠ .in_ ∧ cbw.transferLen ≠ 0 then (cbw.transferLen, .phaseError)
  else (cbw.transferLen - min data.length cbw.transferLen, .passed)

/-- Data is queued in packets, cut to what the host asked for. -/
@[simp] theorem exec_sendData (cbw : Cbw) (data : List UInt8) (b : Bus D) :
    Bus.exec dev (sendData cbw data) b =
      some (sentResult cbw data, { b with inQueue := b.inQueue ++ sentPackets cbw data }) := by
  rw [sendData, sentResult, sentPackets]
  by_cases hd : cbw.direction ≠ .in_ ∧ cbw.transferLen ≠ 0
  · simp only [if_pos hd, exec_pure, List.append_nil]
  · simp only [if_neg hd, exec_bind, exec_writePackets, Option.bind_some]
    split
    · simp
    · simp

/-- Blocks have their length each. -/
theorem length_flatMap_bytes (blocks : List Block) : (blocks.flatMap Block.bytes).length = blocks.length * BLOCK_LEN := by
  simp [List.length_flatMap, BLOCK_LEN]

/-- Blocks are a whole number of packets. -/
theorem dvd_flatMap_bytes (blocks : List Block) : BULK_PACKET_SIZE ∣ (blocks.flatMap Block.bytes).length := by
  rw [length_flatMap_bytes]
  exact Nat.dvd_mul_left_of_dvd (by decide) _

/-- Data behind a whole number of packets goes out in packets of its own. -/
theorem dataPackets_append {data : List UInt8} (rest : List UInt8) (h : BULK_PACKET_SIZE ∣ data.length) :
    dataPackets (data ++ rest) = dataPackets data ++ dataPackets rest := by
  rw [dataPackets, chunks_append (by decide) _ h, List.map_append]
  rfl

/-- The packets of blocks are the packets of the first blocks and of the rest. -/
theorem dataPackets_blocks_append (blocks rest : List Block) :
    dataPackets ((blocks ++ rest).flatMap Block.bytes) =
      dataPackets (blocks.flatMap Block.bytes) ++ dataPackets (rest.flatMap Block.bytes) := by
  rw [List.flatMap_append, dataPackets_append _ (dvd_flatMap_bytes blocks)]

/-- The blocks of a line go out in order, and the residue falls by their bytes. -/
theorem exec_sendBlocks (blocks : List Block) (residue : ℕ) (b : Bus D) :
    Bus.exec dev (sendBlocks residue blocks) b = some (.ok (residue - blocks.length * BLOCK_LEN),
      { b with inQueue := b.inQueue ++ dataPackets (blocks.flatMap Block.bytes) }) := by
  induction blocks generalizing residue b with
  | nil => simp [sendBlocks, dataPackets]
  | cons block blocks ih =>
    have hdvd : BULK_PACKET_SIZE ∣ block.bytes.length := by
      rw [block.length_bytes]
      decide
    have hres : residue - BLOCK_LEN - blocks.length * BLOCK_LEN = residue - (blocks.length + 1) * BLOCK_LEN := by
      rw [Nat.succ_mul]
      omega
    rw [sendBlocks, exec_bind, exec_writePackets, Option.bind_some]
    simp only
    rw [ih, List.flatMap_cons, dataPackets_append _ hdvd, List.length_cons, hres, List.append_assoc]

end MscAux

/-! ## The commands that do not touch the card -/

namespace MscAux

variable {D : Type} {dev : BlockDevice D}

/-- A command that answers the shared state `s`, whatever its counters, with the packets of `data`, and changes nothing of it
but the ejected flag and the sense. -/
def Replies (dev : BlockDevice D) (s : SharedState) (cbw : Cbw) (data : Option (List UInt8)) (t : MscM CommandResult) : Prop :=
  ∃ result ejected sense, ∀ (b : Bus D) (stats : Stats), Bus.exec dev t { b with shared := { s with stats } } =
    some (result, { b with shared := { s with stats, ejected, sense },
                           inQueue := b.inQueue ++ (data.map (sentPackets cbw)).getD [] })

section

variable {s : SharedState} {cbw : Cbw}

/-- A result without data. -/
theorem replies_pure (result : CommandResult) : Replies dev s cbw none (pure result) :=
  ⟨result, s.ejected, s.sense, fun b stats => by simp⟩

/-- Data is what the answer holds. -/
theorem replies_sendData (data : List UInt8) : Replies dev s cbw (some data) (sendData cbw data) :=
  ⟨sentResult cbw data, s.ejected, s.sense, fun b stats => by simp⟩

/-- A command that fails with a sense of its own. -/
theorem replies_setSense (key asc ascq : UInt8) (result : CommandResult) :
    Replies dev s cbw none (do modifyShared (·.setSense key asc ascq); pure result) :=
  ⟨result, s.ejected, ⟨key, asc, ascq⟩, fun b stats => by simp [SharedState.setSense]⟩

/-- A command that looks at the shared state first, and not at its counters. -/
theorem replies_borrow {data : Option (List UInt8)} {t : SharedState → MscM CommandResult}
    (ht : ∀ stats, t { s with stats } = t s) (h : Replies dev s cbw data (t s)) :
    Replies dev s cbw data (borrow >>= t) := by
  obtain ⟨result, ejected, sense, h⟩ := h
  refine ⟨result, ejected, sense, fun b stats => ?_⟩
  rw [exec_bind, exec_borrow, Option.bind_some, ht]
  exact h b stats

/-- A command without data answers nothing. -/
theorem replies_noData : Replies dev s cbw none (noData cbw) := by
  unfold noData
  split
  · exact replies_pure _
  · exact replies_setSense ..

/-- TEST UNIT READY answers nothing. -/
theorem replies_testUnitReady : Replies dev s cbw none (testUnitReady cbw) := by
  unfold testUnitReady
  split
  · exact replies_pure _
  · refine replies_borrow (fun _ => rfl) ?_
    split
    · exact replies_pure _
    · exact replies_setSense ..

/-- START STOP UNIT answers nothing. -/
theorem replies_startStop : Replies dev s cbw none (startStop cbw) := by
  unfold startStop
  split
  · exact replies_pure _
  · by_cases h : (cbw.byte 4).toNat / 2 % 2 = 1
    · exact ⟨(0, .passed), !decide ((cbw.byte 4).toNat % 2 = 1), s.sense, fun b stats => by simp [h]⟩
    · exact ⟨(0, .passed), s.ejected, s.sense, fun b stats => by simp [h]⟩

/-- REQUEST SENSE answers the sense data. -/
theorem replies_requestSense : Replies dev s cbw (some s.sense.bytes) (requestSense cbw) := by
  by_cases h : (sentResult cbw s.sense.bytes).2 = .passed
  · exact ⟨sentResult cbw s.sense.bytes, s.ejected, .default, fun b stats => by simp [requestSense, h]⟩
  · exact ⟨sentResult cbw s.sense.bytes, s.ejected, s.sense, fun b stats => by simp [requestSense, h]⟩

/-- INQUIRY answers the page that is asked for. -/
theorem replies_inquiry :
    Replies dev s cbw (inquiryData ((cbw.byte 1).toNat % 2 = 1) (cbw.byte 2)) (inquiry cbw) := by
  unfold inquiry
  split
  · rename_i heq
    rw [heq]
    exact replies_sendData _
  · rename_i heq
    rw [heq]
    exact replies_setSense ..

/-- Both branches answer their data. -/
theorem replies_ite {c : Prop} [Decidable c] {data data' : Option (List UInt8)} {t t' : MscM CommandResult}
    (h : Replies dev s cbw data t) (h' : Replies dev s cbw data' t') :
    Replies dev s cbw (if c then data else data') (if c then t else t') := by
  split
  · exact h
  · exact h'

/-- Every command other than READ(10) and WRITE(10) replies with its answer. -/
theorem replies_executeOther : Replies dev s cbw (answer cbw s) (executeOther cbw) := by
  unfold executeOther answer
  refine replies_ite replies_testUnitReady (replies_ite replies_requestSense (replies_ite replies_inquiry
    (replies_ite (replies_sendData _) (replies_ite (replies_sendData _) (replies_ite replies_startStop
    (replies_ite replies_noData (replies_ite ?_ (replies_ite ?_ (replies_ite ?_ (replies_ite (replies_sendData _) ?_))))))))))
  · exact replies_borrow (fun _ => rfl) (replies_sendData _)
  · exact replies_borrow (fun _ => rfl) (replies_ite (replies_setSense ..) (replies_sendData _))
  · exact replies_borrow (fun _ => rfl) (replies_ite (replies_pure _) (replies_sendData _))
  · split
    · exact replies_noData
    · exact replies_setSense ..

/-! ## `execute` by kind of command -/

variable {cls : MscClass} {b : Bus D}

/-- READ(10) runs on the cache of the present medium. -/
theorem exec_execute_read (h : cbw.byte 0 = SCSI_READ_10) : Bus.exec dev (cls.execute cbw) b =
    (Bus.exec dev (read10 (cls.refresh b.shared.generation).cache cbw) b).map
      fun r => ((r.1.1, { cls.refresh b.shared.generation with cache := r.1.2 }), r.2) := by
  simp only [MscClass.execute, exec_bind, exec_borrow, Option.bind_some, if_pos h]
  exact Option.map_eq_bind.symm

/-- WRITE(10) does too. -/
theorem exec_execute_write (h : cbw.byte 0 = SCSI_WRITE_10) : Bus.exec dev (cls.execute cbw) b =
    (Bus.exec dev (write10 (cls.refresh b.shared.generation).cache cbw) b).map
      fun r => ((r.1.1, { cls.refresh b.shared.generation with cache := r.1.2 }), r.2) := by
  have h' : cbw.byte 0 ≠ SCSI_READ_10 := by rw [h]; decide
  simp only [MscClass.execute, exec_bind, exec_borrow, Option.bind_some, if_neg h', if_pos h]
  exact Option.map_eq_bind.symm

/-- A READ(10) inside the card runs its loop. -/
theorem exec_execute_read_inRange (h : cbw.byte 0 = SCSI_READ_10) (hr : cbw.InRange .in_ b.shared.blockCount) :
    Bus.exec dev (cls.execute cbw) b =
      (Bus.exec dev (read10Loop b.shared.blockCount (cbw.lba + cbw.blocks) (cbw.blocks > LINE_BLOCKS) cbw.blocks
        (cls.refresh b.shared.generation).cache cbw.lba cbw.transferLen) b).map
        fun r => ((r.1.1, { cls.refresh b.shared.generation with cache := r.1.2 }), r.2) := by
  have h1 : ¬(cbw.direction ≠ .in_ ∨ cbw.transferLen ≠ cbw.blocks * BLOCK_LEN) := by simp [hr.direction, hr.transferLen]
  have h3 : ¬(2 ^ 32 ≤ cbw.lba + cbw.blocks ∨ cbw.lba + cbw.blocks > b.shared.blockCount) := by
    have := hr.lt
    have := hr.le
    omega
  rw [exec_execute_read h, read10, if_neg h1, if_neg hr.blocks]
  simp only [exec_bind, exec_borrow, Option.bind_some, if_neg h3]

/-- A WRITE(10) inside the card runs its loop. -/
theorem exec_execute_write_inRange (h : cbw.byte 0 = SCSI_WRITE_10) (hr : cbw.InRange .out b.shared.blockCount) :
    Bus.exec dev (cls.execute cbw) b =
      (Bus.exec dev (write10Loop (cbw.lba + cbw.blocks) cbw.blocks (cls.refresh b.shared.generation).cache cbw.lba
        cbw.transferLen) b).map
        fun r => ((r.1.1, { cls.refresh b.shared.generation with cache := r.1.2 }), r.2) := by
  have h1 : ¬(cbw.direction ≠ .out ∨ cbw.transferLen ≠ cbw.blocks * BLOCK_LEN) := by simp [hr.direction, hr.transferLen]
  have h3 : ¬(2 ^ 32 ≤ cbw.lba + cbw.blocks ∨ cbw.lba + cbw.blocks > b.shared.blockCount) := by
    have := hr.lt
    have := hr.le
    omega
  rw [exec_execute_write h, write10, if_neg h1, if_neg hr.blocks]
  simp only [exec_bind, exec_borrow, Option.bind_some, if_neg h3]

/-- The other commands leave the cache as the medium left it. -/
theorem exec_execute_other (h : cbw.byte 0 ≠ SCSI_READ_10) (h' : cbw.byte 0 ≠ SCSI_WRITE_10) :
    Bus.exec dev (cls.execute cbw) b =
      (Bus.exec dev (executeOther cbw) b).map fun r => ((r.1, cls.refresh b.shared.generation), r.2) := by
  simp only [MscClass.execute, exec_bind, exec_borrow, Option.bind_some, if_neg h, if_neg h']
  exact Option.map_eq_bind.symm

/-- A command other than READ(10) and WRITE(10) replies with its answer, and refreshes the class. -/
theorem exec_execute_reply (dev : BlockDevice D) (cls : MscClass) (b : Bus D) (h : cbw.byte 0 ≠ SCSI_READ_10)
    (h' : cbw.byte 0 ≠ SCSI_WRITE_10) :
    ∃ result ejected sense, Bus.exec dev (cls.execute cbw) b = some ((result, cls.refresh b.shared.generation),
      { b with shared := { b.shared with ejected, sense },
               inQueue := b.inQueue ++ ((answer cbw b.shared).map (sentPackets cbw)).getD [] }) := by
  obtain ⟨result, ejected, sense, hreply⟩ := (replies_executeOther : Replies dev b.shared cbw _ _)
  have hb : Bus.exec dev (executeOther cbw) b = _ := hreply b b.shared.stats
  exact ⟨result, ejected, sense, by rw [exec_execute_other h h', hb]; rfl⟩

end

end MscAux

end Ratputer
