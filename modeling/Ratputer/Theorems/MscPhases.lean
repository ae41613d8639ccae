import Ratputer.Lemmas.MscPhases

/-!
# The transport stays in phase

A host and the class in its loop, over every sequence of valid command blocks. A command that the class brings to the end of
its data phase (`Terminates`) leaves both idle again, with the CSW taken as the CSW; so does every run of such commands. The
commands left out are those that fail or are rejected before their data phase: the class answers them with the CSW alone.
-/

namespace Ratputer

open Chunks MscAux

variable {D : Type} {dev : BlockDevice D}

namespace MscAux

/-- A command that reads what the host sends for it and sends what the host reads before the CSW. -/
def Ends (dev : BlockDevice D) (cls : MscClass) (cbw : Cbw) (b : Bus D) : Prop :=
  ∃ result cls' b', Bus.exec dev (cls.execute cbw) b = some ((result, cls'), b') ∧ cls'.cache.WellFormed ∧
    b'.outQueue = [] ∧ b'.commands = b.commands ∧ ∀ csw, hostDataPhase cbw (b'.inQueue ++ [csw]) = [csw]

section

variable {cls : MscClass} {cbw : Cbw} {b : Bus D}

/-- A host that announced no data reads the CSW first. -/
theorem hostDataPhase_of_zero (hn : cbw.transferLen = 0) (csw : Packet) : hostDataPhase cbw [csw] = [csw] := by
  unfold hostDataPhase
  split
  · rw [hn]
    rfl
  · rfl

/-- A host that announced no data sends none. -/
theorem payload_of_zero (hn : cbw.transferLen = 0) {payload : List UInt8}
    (hp : cbw.direction = .out → payload.length = cbw.transferLen) :
    (if cbw.direction = .out then dataPackets payload else []) = [] := by
  split
  · rename_i hd
    rw [List.length_eq_zero_iff.mp ((hp hd).trans hn)]
    rfl
  · rfl

/-- A command without a data phase sends nothing and reads nothing. -/
theorem ends_of_no_data (hc : cls.cache.WellFormed) (hn : cbw.transferLen = 0) (hout : b.outQueue = [])
    (hin : b.inQueue = []) : Ends dev cls cbw b := by
  have hcsw := hostDataPhase_of_zero hn
  have hc' := wellFormed_refresh hc b.shared.generation
  by_cases h1 : cbw.byte 0 = SCSI_READ_10
  · have hread : ∃ result, Bus.exec dev (read10 (cls.refresh b.shared.generation).cache cbw) b =
        some ((result, (cls.refresh b.shared.generation).cache), b) := by
      unfold read10
      split_ifs with h2 h3
      · exact ⟨_, rfl⟩
      · exact ⟨_, rfl⟩
      · simp only [not_or, Decidable.not_not, hn, BLOCK_LEN] at h2
        omega
    obtain ⟨result, hread⟩ := hread
    refine ⟨result, _, b, by rw [exec_execute_read h1, hread]; rfl, hc', hout, rfl, ?_⟩
    rwa [hin]
  · by_cases h2 : cbw.byte 0 = SCSI_WRITE_10
    · have hwrite : ∃ result, Bus.exec dev (write10 (cls.refresh b.shared.generation).cache cbw) b =
          some ((result, (cls.refresh b.shared.generation).cache), b) := by
        unfold write10
        split_ifs with h3 h4
        · exact ⟨_, rfl⟩
        · exact ⟨_, rfl⟩
        · simp only [not_or, Decidable.not_not, hn, BLOCK_LEN] at h3
          omega
      obtain ⟨result, hwrite⟩ := hwrite
      refine ⟨result, _, b, by rw [exec_execute_write h2, hwrite]; rfl, hc', hout, rfl, ?_⟩
      rwa [hin]
    · obtain ⟨result, ejected, sense, hexec⟩ := exec_execute_reply dev cls b h1 h2
      refine ⟨result, _, _, hexec, hc', hout, rfl, ?_⟩
      have hnone : ((answer cbw b.shared).map (sentPackets cbw)).getD [] = [] := by
        rcases answer cbw b.shared with _ | data
        · rfl
        · exact sentPackets_of_zero hn data
      simp only [hin, hnone]
      exact hcsw

/-- A READ(10) that transfers, while the backend delivers, sends all of its data phase. -/
theorem ends_of_read (hf : FillsBuffer dev) (hc : cls.cache.WellFormed) (hop : cbw.byte 0 = SCSI_READ_10)
    (hr : cbw.InRange .in_ b.shared.blockCount)
    (hfetch : Fetches dev b.shared.backend b.shared.blockCount (cbw.lba + cbw.blocks) (cbw.blocks > LINE_BLOCKS) cbw.blocks
      (cls.refresh b.shared.generation).cache b.card cbw.lba) (hout : b.outQueue = []) (hin : b.inQueue = []) :
    Ends dev cls cbw b := by
  have hmoved : cbw.lba + cbw.blocks - cbw.lba = cbw.blocks := Nat.add_sub_cancel_left ..
  obtain ⟨result, cache', card', stats, blocks, hrun, hblocks, hcache'⟩ := exec_read10Loop_of_fetches hf _ hr.le cbw.blocks _
    cbw.lba cbw.transferLen b (wellFormed_refresh hc _) (Nat.le_add_right ..) hmoved.le hfetch
  have h1 : ¬ (cbw.direction ≠ .in_ ∨ cbw.transferLen ≠ cbw.blocks * BLOCK_LEN) := by
    simp [hr.direction, hr.transferLen]
  have h2 : ¬ (2 ^ 32 ≤ cbw.lba + cbw.blocks ∨ cbw.lba + cbw.blocks > b.shared.blockCount) := by
    have := hr.lt
    have := hr.le
    omega
  have hread : Bus.exec dev (read10 (cls.refresh b.shared.generation).cache cbw) b = Bus.exec dev
      (read10Loop b.shared.blockCount (cbw.lba + cbw.blocks) (cbw.blocks > LINE_BLOCKS) cbw.blocks
        (cls.refresh b.shared.generation).cache cbw.lba cbw.transferLen) b := by
    rw [read10, if_neg h1, if_neg hr.blocks, exec_bind, exec_borrow, Option.bind_some]
    simp only [if_neg h2]
  have hexec := (exec_execute_read hop).trans (congrArg (Option.map _) (hread.trans hrun))
  refine ⟨result, _, _, hexec, hcache', hout, rfl, fun csw => ?_⟩
  rw [hmoved] at hblocks
  simp only [hostDataPhase, hr.direction, if_true, hin, List.nil_append, hr.transferLen, ← hblocks]
  exact dataPhase_blocks blocks [csw]

/-- Any other IN command that answers with data sends its data phase. -/
theorem ends_of_answer (hc : cls.cache.WellFormed) (h1 : cbw.byte 0 ≠ SCSI_READ_10) (h2 : cbw.byte 0 ≠ SCSI_WRITE_10)
    (hd : cbw.direction = .in_) (hn : cbw.transferLen ≠ 0) (ha : (answer cbw b.shared).isSome = true)
    (hout : b.outQueue = []) (hin : b.inQueue = []) : Ends dev cls cbw b := by
  obtain ⟨data, hdata⟩ := Option.isSome_iff_exists.mp ha
  obtain ⟨hpos, hlt⟩ := short_answer cbw b.shared data hdata
  obtain ⟨result, ejected, sense, hexec⟩ := exec_execute_reply dev cls b h1 h2
  refine ⟨result, _, _, hexec, wellFormed_refresh hc _, hout, rfl, fun csw => ?_⟩
  simp only [hin, hdata, Option.map_some, Option.getD_some, List.nil_append, hostDataPhase, hd, if_true]
  exact dataPhase_sentPackets hd hpos hlt hn [csw]

/-- A WRITE(10) whose length is that of its blocks reads all of its data phase, also when it refuses it or fails. -/
theorem ends_of_write (hc : cls.cache.WellFormed) (hop : cbw.byte 0 = SCSI_WRITE_10) (hd : cbw.direction = .out)
    (hn : cbw.transferLen ≠ 0) (hlen : cbw.transferLen = cbw.blocks * BLOCK_LEN) {payload : List UInt8}
    (hp : payload.length = cbw.transferLen) (hout : b.outQueue = dataPackets payload) (hin : b.inQueue = []) :
    Ends dev cls cbw b := by
  have hq : b.outQueue = dataPackets payload ++ [] := by rw [hout, List.append_nil]
  have hcsw : ∀ csw, hostDataPhase cbw ([] ++ [csw]) = [csw] := fun csw => by simp [hostDataPhase, hd]
  have h1 : ¬ (cbw.direction ≠ .out ∨ cbw.transferLen ≠ cbw.blocks * BLOCK_LEN) := by simp [hd, hlen]
  have h2 : cbw.blocks ≠ 0 := by
    rintro h0
    exact hn (by rw [hlen, h0, Nat.zero_mul])
  have hwrite : ∃ result cache' shared card', Bus.exec dev (write10 (cls.refresh b.shared.generation).cache cbw) b =
      some ((result, cache'), { b with shared, card := card', outQueue := [] }) ∧ cache'.WellFormed := by
    have hdrain : ∀ shared, Bus.exec dev (discardOut payload.length) { b with shared } =
        some (.ok (), { b with shared, outQueue := [] }) := fun shared => exec_discardOut payload [] _ hq
    rw [write10, if_neg h1, if_neg h2, exec_bind, exec_borrow, Option.bind_some]
    simp only
    split
    · simp only [exec_bind, exec_modifyShared, Option.bind_some, ← hp, hdrain]
      exact ⟨_, _, _, _, rfl, wellFormed_refresh hc _⟩
    · have hmoved : cbw.lba + cbw.blocks - cbw.lba = cbw.blocks := Nat.add_sub_cancel_left ..
      exact exec_write10Loop_drains _ _ _ _ _ payload b (wellFormed_refresh hc _) (Nat.le_add_right ..) hmoved.le
        (by rw [hmoved, hp, hlen]) hp.symm hq
  obtain ⟨result, cache', shared, card', hwrite, hcache'⟩ := hwrite
  have hexec := (exec_execute_write hop).trans (congrArg (Option.map _) hwrite)
  refine ⟨result, _, _, hexec, hcache', rfl, rfl, ?_⟩
  simp only [hin]
  exact hcsw

/-- Every command that terminates its data phase ends. -/
theorem ends_of_terminates (hf : FillsBuffer dev) (hc : cls.cache.WellFormed) {payload : List UInt8}
    (ht : Terminates dev cls b.shared b.card cbw)
    (hp : cbw.direction = .out → payload.length = cbw.transferLen)
    (hout : b.outQueue = if cbw.direction = .out then dataPackets payload else []) (hin : b.inQueue = []) :
    Ends dev cls cbw b := by
  by_cases hn : cbw.transferLen = 0
  · exact ends_of_no_data hc hn (hout.trans (payload_of_zero hn hp)) hin
  · obtain ⟨-, ht⟩ := ht.resolve_left hn
    cases hd : cbw.direction with
    | in_ =>
      rw [hd] at ht hout
      simp only at ht
      split at ht
      · rename_i hop
        exact ends_of_read hf hc hop ht.1 ht.2 hout hin
      · rename_i hop
        exact ends_of_answer hc hop ht.1 hd hn ht.2 hout hin
    | out =>
      rw [hd] at ht hout
      exact ends_of_write hc ht.1 hd hn ht.2 (hp hd) hout hin

end

/-! ## Passes of the loop -/

theorem length_of_parse {bytes : List UInt8} {cbw : Cbw} (h : Cbw.parse bytes = some cbw) : bytes.length = CBW_LEN := by
  unfold Cbw.parse at h
  split at h
  · cases h
  · rename_i hlen
    simp only [not_or, Decidable.not_not] at hlen
    exact hlen.1

@[simp] theorem exec_sendCsw (tag residue : ℕ) (status : CommandStatus) (b : Bus D) :
    Bus.exec dev (MscClass.sendCsw tag residue status) b =
      some ((), { b with inQueue := b.inQueue ++ [⟨.status, cswBytes tag residue status⟩] }) := by
  rw [MscClass.sendCsw, exec_bind, exec_endpointWrite]
  rfl

/-- A device that waits for a command block on an empty queue goes on waiting. -/
theorem pump_waiting (fuel : ℕ) (cls : MscClass) (b : Bus D) (hq : b.outQueue = []) :
    Transport.pump dev fuel ⟨cls, cls.pass, b⟩ = ⟨cls, cls.pass, b⟩ := by
  cases fuel with
  | zero => rfl
  | succ fuel =>
    have hwait : Coroutine.advance (Bus.handle dev) cls.pass b = (cls.pass, b) :=
      Coroutine.advance_of_none _ (by rw [Bus.handle, hq])
    rw [Transport.pump, hwait]
    rfl

/-- One pass over a command that terminates its data phase: the packets before the CSW are those of the data phase. -/
theorem exec_pass (hf : FillsBuffer dev) {cls : MscClass} (hc : cls.cache.WellFormed) {cbw : Cbw}
    {packet payload : List UInt8} (hparse : Cbw.parse packet = some cbw)
    (hp : cbw.direction = .out → payload.length = cbw.transferLen) {b : Bus D}
    (ht : Terminates dev cls b.shared b.card cbw) (hout : b.outQueue = hostPackets cbw packet payload)
    (hin : b.inQueue = []) (hcommands : b.commands = []) :
    ∃ cls' b' residue status, Bus.exec dev cls.pass b = some (cls', b') ∧ cls'.cache.WellFormed ∧ b'.outQueue = [] ∧
      b'.commands = [⟨.command, packet⟩] ∧
      hostDataPhase cbw b'.inQueue = [⟨.status, cswBytes cbw.tag residue status⟩] := by
  have hlen : packet.length ≤ BULK_PACKET_SIZE := by
    rw [length_of_parse hparse]
    decide
  rw [MscClass.pass, exec_bind, exec_endpointRead .command BULK_PACKET_SIZE b hout hlen, Option.bind_some]
  simp only [hparse, if_true, hcommands, List.nil_append]
  by_cases hlun : cbw.lun ≠ 0
  · -- A command for another unit has no data phase here, and the CSW follows at once.
    have hn : cbw.transferLen = 0 := ht.resolve_right fun h => hlun h.1
    simp only [if_pos hlun, exec_bind, exec_sendCsw, Option.bind_some, exec_pure, hin, List.nil_append]
    exact ⟨cls, _, _, _, rfl, hc, payload_of_zero hn hp, rfl, hostDataPhase_of_zero hn _⟩
  · obtain ⟨⟨residue, status⟩, cls', b', hexec, hc', hout', hcommands', hcsw⟩ := ends_of_terminates hf hc
      (b := { b with outQueue := if cbw.direction = .out then dataPackets payload else [], commands := [⟨.command, packet⟩] })
      ht hp rfl hin
    simp only [if_neg hlun, exec_bind, hexec, Option.bind_some, exec_sendCsw, exec_pure]
    exact ⟨cls', _, residue, status, rfl, hc', hout', hcommands', hcsw _⟩

end MscAux

/-- A step that keeps the transport in phase leaves host and device idle, with the CSW taken as the CSW. -/
theorem step_in_phase (hf : FillsBuffer dev) {s : Transport D} (hs : s.Idle) {e : BotEvent D} (hk : s.Keeps dev e) :
    (s.step dev e).1.Idle ∧ e.InPhase (s.step dev e).2 := by
  cases e with
  | firmware shared card => exact ⟨⟨hs.device, hs.cache, hs.outQueue, hs.inQueue⟩, trivial⟩
  | command cbw packet payload =>
    obtain ⟨⟨hparse, hp⟩, ht⟩ := hk
    obtain ⟨cls', b', residue, status, hexec, hc', hout', hcommands', hcsw⟩ := exec_pass hf hs.cache hparse hp
      (b := { s.bus with outQueue := hostPackets cbw packet payload, commands := [] }) ht rfl hs.inQueue rfl
    have hpump : ∀ fuel, Transport.pump dev (fuel + 1)
        { s with bus := { s.bus with outQueue := hostPackets cbw packet payload, commands := [] } } = ⟨cls', cls'.pass, b'⟩ := by
      intro fuel
      rw [Transport.pump, hs.device, Coroutine.advance_of_exec _ hexec]
      exact pump_waiting fuel cls' b' hout'
    simp only [Transport.step, hs.outQueue, List.nil_append, hpump, hcsw]
    refine ⟨⟨rfl, hc', hout', rfl⟩, ⟨residue, status, rfl⟩, ?_⟩
    simp only [hcommands', List.mem_singleton]
    rintro _ rfl
    rfl

/-- In every run from an idle transport whose steps all keep it in phase, in whatever state the firmware leaves the shared
state and the card between them, every command is in phase: the packet that the host takes as its CSW is the device's CSW for
that command, and the device reads as command blocks only what the host sent as such. -/
theorem run_in_phase (hf : FillsBuffer dev) {s : Transport D} (hs : s.Idle) (es : List (BotEvent D))
    (hk : Mealy.Along (Transport.step dev) (Transport.Keeps dev) s es) :
    (Mealy.final (Transport.step dev) s es).Idle ∧
      ∀ x ∈ es.zip (Mealy.outputs (Transport.step dev) s es), x.1.InPhase x.2 :=
  Mealy.invariant_outputs Transport.Idle BotEvent.InPhase (fun _ _ hi hg => step_in_phase hf hi hg) hs hk

/-! ## One transport in phase and one out of it -/

/-- The device as built, with no card attached. -/
def unattached : Transport (List Block) := ⟨.new, MscClass.new.pass, ⟨.default, [], [], [], []⟩⟩

theorem unattached_idle : unattached.Idle := ⟨rfl, nofun, rfl, rfl⟩

/-- A command block for `transferLen` bytes from the device. -/
def inCommand (transferLen opcode : UInt8) : List UInt8 :=
  [0x55, 0x53, 0x42, 0x43, 1, 0, 0, 0, transferLen, 0, 0, 0, 0x80, 0, 10, opcode] ++ List.replicate 15 0

def inCbw (transferLen : ℕ) (opcode : UInt8) : Cbw := ⟨1, transferLen, .in_, 0, 10, opcode :: List.replicate 15 0⟩

/-- The host asks for `transferLen` bytes. -/
def asks (transferLen opcode : UInt8) : BotEvent (List Block) :=
  .command (inCbw transferLen.toNat opcode) (inCommand transferLen opcode) []

/-- A device whose reads succeed delivers every line that READ(10) asks it for. -/
theorem fetches_of_reads (hreads : ∀ card start count, (dev.read card start count).1.isSome = true) {backend : Backend}
    (hbackend : backend ≠ .none) (count fin : ℕ) (streaming : Bool) (fuel : ℕ) (cache : BlockCache) (card : D) (current : ℕ) :
    Fetches dev backend count fin streaming fuel cache card current := by
  induction fuel generalizing cache card current with
  | zero => trivial
  | succ fuel ih =>
    intro _
    split
    · exact ih _ _ _
    · obtain ⟨blocks, hblocks⟩ := Option.isSome_iff_exists.mp (hreads card (current / LINE_BLOCKS * LINE_BLOCKS)
        (min LINE_BLOCKS (count - current / LINE_BLOCKS * LINE_BLOCKS)))
      exact ⟨hbackend, blocks, hblocks, ih _ _ _⟩

/-- The device with a card of nine blocks. -/
def nineBlockDevice : Transport (List Block) :=
  ⟨.new, MscClass.new.pass, ⟨SharedState.default.attach 0 9, List.replicate 9 Block.new, [], [], []⟩⟩

theorem nineBlockDevice_idle : nineBlockDevice.Idle := ⟨rfl, nofun, rfl, rfl⟩

/-- The last two blocks are read, and written. -/
def readsLast : BotEvent (List Block) :=
  .command ⟨1, 1024, .in_, 0, 10, [SCSI_READ_10, 0, 0, 0, 0, 7, 0, 0, 2, 0, 0, 0, 0, 0, 0, 0]⟩
    [0x55, 0x53, 0x42, 0x43, 1, 0, 0, 0, 0, 4, 0, 0, 0x80, 0, 10, SCSI_READ_10, 0, 0, 0, 0, 7, 0, 0, 2, 0, 0, 0, 0, 0, 0, 0] []

def writesLast : BotEvent (List Block) :=
  .command ⟨1, 1024, .out, 0, 10, [SCSI_WRITE_10, 0, 0, 0, 0, 7, 0, 0, 2, 0, 0, 0, 0, 0, 0, 0]⟩
    [0x55, 0x53, 0x42, 0x43, 1, 0, 0, 0, 0, 4, 0, 0, 0, 0, 10, SCSI_WRITE_10, 0, 0, 0, 0, 7, 0, 0, 2, 0, 0, 0, 0, 0, 0, 0]
    (List.replicate 1024 7)

/-- A READ(10) and a WRITE(10) of the same blocks, an INQUIRY, and the READ(10) once more stay in phase. -/
theorem run_in_phase_rewritten :
    (Mealy.final (Transport.step ramCard) nineBlockDevice [readsLast, writesLast, asks 36 SCSI_INQUIRY, readsLast]).Idle ∧
      ∀ x ∈ [readsLast, writesLast, asks 36 SCSI_INQUIRY, readsLast].zip (Mealy.outputs (Transport.step ramCard) nineBlockDevice
        [readsLast, writesLast, asks 36 SCSI_INQUIRY, readsLast]), x.1.InPhase x.2 := by
  have hfills : FillsBuffer ramCard := by
    intro card start count blocks h
    rw [ramCard_lawful.read_some card start count blocks h, Patch.length_window]
  have hread (s : Transport (List Block)) (hblocks : s.bus.shared.blockCount = 9) (hbackend : s.bus.shared.backend ≠ .none) :
      s.Keeps ramCard readsLast := by
    refine ⟨⟨by decide, nofun⟩, Or.inr ⟨rfl, ?_⟩⟩
    refine ⟨⟨rfl, by decide, by decide, by decide, ?_⟩, fetches_of_reads (fun _ _ _ => rfl) hbackend _ _ _ _ _ _ _⟩
    rw [hblocks]
    decide
  have hwrite (s : Transport (List Block)) : s.Keeps ramCard writesLast :=
    ⟨⟨by decide, fun _ => List.length_replicate⟩, Or.inr ⟨rfl, rfl, by decide⟩⟩
  have hinquiry (s : Transport (List Block)) (hanswer : (answer (inCbw 36 SCSI_INQUIRY) s.bus.shared).isSome = true) :
      s.Keeps ramCard (asks 36 SCSI_INQUIRY) := ⟨⟨by decide, nofun⟩, Or.inr ⟨rfl, by decide, hanswer⟩⟩
  have hkeeps : Mealy.Along (Transport.step ramCard) (Transport.Keeps ramCard) nineBlockDevice
      [readsLast, writesLast, asks 36 SCSI_INQUIRY, readsLast] := by
    refine ⟨hread _ rfl ?_, hwrite _, hinquiry _ ?_, hread _ ?_ ?_, trivial⟩
    · decide
    · decide +kernel
    · decide +kernel
    · decide +kernel
  exact run_in_phase hfills nineBlockDevice_idle _ hkeeps

/-- Not every run stays in phase: READ CAPACITY(10) on a drive without a card is answered by the CSW alone, which the host
takes for the eight bytes it asked for, and then there is no CSW to take. -/
theorem not_always_in_phase : ¬ ∀ (s : Transport (List Block)) (es : List (BotEvent (List Block))), s.Idle →
    (∀ e ∈ es, e.Valid) → ∀ x ∈ es.zip (Mealy.outputs (Transport.step ramCard) s es), x.1.InPhase x.2 := by
  intro h
  have hparse : Cbw.parse (inCommand 8 SCSI_READ_CAPACITY_10) = some (inCbw 8 SCSI_READ_CAPACITY_10) := by decide
  obtain ⟨⟨residue, status, hcsw⟩, -⟩ := h unattached
    [asks 8 SCSI_READ_CAPACITY_10] unattached_idle
    (by simpa only [List.forall_mem_singleton] using ⟨hparse, nofun⟩) _ (List.mem_cons_self ..)
  have hnone : (unattached.step ramCard (asks 8 SCSI_READ_CAPACITY_10)).2.csw = none := by decide +kernel
  rw [hnone] at hcsw
  cases hcsw

end Ratputer
