import Ratputer.Lemmas.SftpSteps
import Ratputer.Ram

/-!
# SFTP request framing on the 32-bit target

A packet that declares `length` bytes takes `4 + length` bytes of the client's stream. Between two packets the server consumes
what it owes: the rest of an oversized request, or of a WRITE's payload. It gets the first packet's share right exactly when
the sizes the packet declares do not wrap in `usize`.
-/

namespace Ratputer

variable {V : Type} {F : Fat V}

namespace Sftp

/-- The server will take the next byte as the start of a packet. -/
def Between (s : Sftp F) : Prop := s.skip = 0 ∧ s.server.writeStream = none

/-- A step takes up the next packet. -/
def Starts (s : Sftp F) (e : Event) : Prop := s.AtPacket ∧ (s.serve e).2.progress = true

/-- The packet at the head of the input is framed exactly: however the session goes on, until the next packet is taken up or the
session is given up, a WRITE's remaining payload lies within the packet, and the server gets to the next packet after
`4 + length` bytes. -/
def FramedExactly (s : Sftp F) (mounted : Bool) (ctx : Ctx) : Prop :=
  ∀ es : List Event, Mealy.Along serve (fun t e => ¬t.Starts e) (s.step mounted ctx).1 es →
    let t := Mealy.final serve (s.step mounted ctx).1 es
    t.server.fatal = true ∨
      (∀ stream, t.server.writeStream = some stream →
        s.input.length + (fed es).length + stream.remaining ≤ t.input.length + (4 + u32At s.input 0)) ∧
      (t.Between → s.input.length + (fed es).length = t.input.length + (4 + u32At s.input 0))

/-- The sizes that the packet at the head of the input declares wrap in `usize`. -/
def Wraps (input : List UInt8) : Prop :=
  if kindOf input = FXP_WRITE then
    USIZE ≤ 21 + u32At input 9 + (writeHeader input (u32At input 9)).dataLen
  else USIZE ≤ 4 + u32At input 0

instance (input : List UInt8) : Decidable (Wraps input) := by unfold Wraps; infer_instance

namespace FramingAux

/-- The bytes of the packet in progress that are still to be consumed. -/
def owed (s : Sftp F) : Nat := s.skip + (s.server.writeStream.map WriteStream.remaining).getD 0

variable {s : Sftp F}

theorem owed_congr (s s' : Sftp F) (hskip : s'.skip = s.skip) (hw : s'.server.writeStream = s.server.writeStream) :
    owed s' = owed s := by
  rw [owed, owed, hskip, hw]

/-- What a step of a payload consumes is no longer owed. -/
theorem owed_advanceWrite (s : Sftp F) (stream : WriteStream) {count : Nat} (hcount : count ≤ stream.remaining) :
    owed (s.advanceWrite stream count) + count = s.skip + stream.remaining := by
  unfold advanceWrite owed
  dsimp only
  split
  · show s.skip + 0 + count = _
    omega
  · show s.skip + (stream.remaining - count) + count = _
    omega

/-- Consumed bytes are bytes no longer owed, in every step that takes up no packet. -/
theorem conserved_step (mounted : Bool) (ctx : Ctx) (h : ¬(s.AtPacket ∧ (s.step mounted ctx).2 = true)) :
    (s.step mounted ctx).1.server.fatal = true ∨
      owed (s.step mounted ctx).1 + s.input.length = owed s + (s.step mounted ctx).1.input.length := by
  have hstep := step_stepped s mounted ctx
  generalize s.step mounted ctx = r at hstep h ⊢
  cases hstep with
  | idle => exact .inr rfl
  | malformed count hp => exact .inl rfl
  | resize job hlive hout hz =>
    have hw : (s.continueResize mounted ctx).server.writeStream = s.server.writeStream := by
      rcases World.continueResize_cases hz mounted ctx with ⟨job', _, _, hs⟩ | ⟨status, _, hs⟩
      · exact hs.writeStream
      · exact hs.writeStream
    exact .inr (congrArg (· + s.input.length) (owed_congr s _ rfl hw))
  | read stream hlive hout hz hr =>
    have hw : (s.continueRead mounted).server.writeStream = s.server.writeStream := by
      rcases World.continueRead_cases hr mounted with hs | ⟨bytes, _, _, _, hs⟩
      · exact hs.writeStream
      · exact hs.writeStream
    exact .inr (congrArg (· + s.input.length) (owed_congr s _ rfl hw))
  | payload stream stream' w' count budget hlive hout hz hr hw hid hremaining hfailed hinput hcount hs =>
    refine .inr ?_
    have howed := owed_advanceWrite ({ s with toWorld := w', cardBudget := budget } : Sftp F) stream'
      (hremaining ▸ hcount)
    have hbefore : owed s = s.skip + stream.remaining := by rw [owed, hw]; rfl
    have hafter : (({ s with toWorld := w', cardBudget := budget } : Sftp F).advanceWrite stream' count).input.length =
        s.input.length - count := by
      unfold advanceWrite
      dsimp only
      split <;> exact List.length_drop
    dsimp only at howed hafter ⊢
    omega
  | skip count hlive hout hz hr hw hpos hcount hinput =>
    refine .inr ?_
    simp only [owed, hw, List.length_drop]
    omega
  | oversized hp => exact absurd ⟨hp, rfl⟩ h
  | write hp => exact absurd ⟨hp, rfl⟩ h
  | request hp => exact absurd ⟨hp, rfl⟩ h

/-- A WRITE's stream starts with all of the declared payload. -/
theorem writeStreamOf_remaining (s : Sftp F) (header : WriteHeader) :
    (s.writeStreamOf header).remaining = header.dataLen := by
  unfold writeStreamOf
  split <;> rfl

theorem u32At_lt (bytes : List UInt8) (offset : Nat) : u32At bytes offset < 2 ^ 32 :=
  Octets.beNat_lt_of_length (n := 4) (List.length_take_le _ _)

/-- A session that is given up stays so. -/
theorem fatal_serve (h : s.server.fatal = true) (e : Event) : (s.serve e).1.server.fatal = true := by
  cases e with
  | feed bytes => exact h
  | consume count => exact h
  | beginPoll => exact h
  | step mounted ctx =>
    show (s.step mounted ctx).1.server.fatal = true
    rw [step_of_fatal h]
    exact h

theorem fatal_run (h : s.server.fatal = true) (es : List Event) : (Mealy.final serve s es).server.fatal = true :=
  Mealy.invariant (fun t : Sftp F => t.server.fatal = true) (G := fun _ _ => True) (fun _ e ht _ => fatal_serve ht e) h
    (Mealy.along_of_forall (fun _ _ => trivial) _ es)

/-- Consumed bytes are bytes no longer owed, until the next packet is taken up. -/
theorem conserved_run (es : List Event) (h : Mealy.Along serve (fun t e => ¬t.Starts e) s es) :
    (Mealy.final serve s es).server.fatal = true ∨
      owed (Mealy.final serve s es) + (s.input.length + (fed es).length) =
        owed s + (Mealy.final serve s es).input.length := by
  induction es generalizing s with
  | nil => exact .inr rfl
  | cons e es ih =>
    obtain ⟨hstart, hrest⟩ := h
    have hfed : (fed (e :: es)).length = e.fed.length + (fed es).length := by
      rw [fed, List.flatMap_cons, List.length_append]
      rfl
    have hone : (s.serve e).1.server.fatal = true ∨
        owed (s.serve e).1 + (s.input.length + e.fed.length) = owed s + (s.serve e).1.input.length := by
      cases e with
      | feed bytes =>
        refine .inr ?_
        show owed s + (s.input.length + bytes.length) = owed s + (s.input ++ bytes).length
        rw [List.length_append]
      | consume count => exact .inr rfl
      | beginPoll => exact .inr rfl
      | step mounted ctx => exact conserved_step mounted ctx hstart
    rw [Mealy.final_cons]
    rcases hone with hfatal | hone
    · exact .inl (fatal_run hfatal es)
    · rcases ih hrest with hfatal | hrun
      · exact .inl hfatal
      · refine .inr ?_
        rw [hfed]
        omega

/-- What a step at a packet that makes progress can be. -/
theorem start_cases (hp : s.AtPacket) {mounted : Bool} {ctx : Ctx} (h : (s.step mounted ctx).2 = true) :
    (s.step mounted ctx).1 = s.oversized ∧ 9 ≤ s.input.length ∧ kindOf s.input ≠ FXP_WRITE ∨
      (s.step mounted ctx).1 = s.begunWrite (u32At s.input 9) ∧ kindOf s.input = FXP_WRITE ∧
        u32At s.input 9 ≤ 64 ∧ 25 + u32At s.input 9 ≤ s.input.length ∧
        u32At s.input 0 = (21 + u32At s.input 9 + (writeHeader s.input (u32At s.input 9)).dataLen) % USIZE ∨
      (s.step mounted ctx).1 = s.dispatched mounted ctx ∧ kindOf s.input ≠ FXP_WRITE ∧
        u32At s.input 0 ≤ MAX_REQUEST ∧ 4 + u32At s.input 0 ≤ s.input.length := by
  have hstep := step_stepped s mounted ctx
  generalize s.step mounted ctx = r at hstep h ⊢
  cases hstep with
  | idle => exact absurd h Bool.false_ne_true
  | malformed count => exact absurd h Bool.false_ne_true
  | resize job _ _ hz => rw [hp.resize] at hz; nomatch hz
  | read stream _ _ _ hr => rw [hp.readStream] at hr; nomatch hr
  | payload stream _ _ _ _ _ _ _ _ hw => rw [hp.writeStream] at hw; nomatch hw
  | skip count _ _ _ _ _ hpos => rw [hp.skip] at hpos; nomatch hpos
  | oversized _ hlen hkind => exact .inl ⟨rfl, hlen, hkind⟩
  | write _ hkind hhandle hlen hdeclared => exact .inr (.inl ⟨rfl, hkind, hhandle, hlen, hdeclared⟩)
  | request _ _ hkind hle hlen => exact .inr (.inr ⟨rfl, hkind, hle, hlen⟩)

theorem wraps_of_not_write (h : kindOf s.input ≠ FXP_WRITE) : Wraps s.input ↔ USIZE ≤ 4 + u32At s.input 0 := by
  rw [Wraps, if_neg h]

theorem wraps_of_write (h : kindOf s.input = FXP_WRITE) :
    Wraps s.input ↔ USIZE ≤ 21 + u32At s.input 9 + (writeHeader s.input (u32At s.input 9)).dataLen := by
  rw [Wraps, if_pos h]

theorem length_oversized (s : Sftp F) :
    s.oversized.input.length = s.input.length - min s.input.length ((4 + u32At s.input 0) % USIZE) := List.length_drop

theorem length_begunWrite (s : Sftp F) (handleLen : Nat) :
    (s.begunWrite handleLen).input.length = s.input.length - (25 + handleLen) := List.length_drop

/-- The stream of a WRITE that is taken up has all of the declared payload to come. -/
theorem begunWrite_stream (s : Sftp F) (handleLen : Nat) : ∃ stream,
    (s.begunWrite handleLen).server.writeStream = some stream ∧
      stream.remaining = (writeHeader s.input handleLen).dataLen :=
  ⟨_, rfl, writeStreamOf_remaining _ _⟩

/-- Without a wrap, what a packet that is taken up owes is the rest of it. -/
theorem owed_start (hp : s.AtPacket) {mounted : Bool} {ctx : Ctx} (h : (s.step mounted ctx).2 = true)
    (hno : ¬Wraps s.input) :
    (s.step mounted ctx).1.server.fatal = true ∨
      owed (s.step mounted ctx).1 + s.input.length = (s.step mounted ctx).1.input.length + (4 + u32At s.input 0) := by
  rcases start_cases hp h with ⟨heq, hlen, hkind⟩ | ⟨heq, hkind, _, hlen, hdeclared⟩ | ⟨heq, hkind, hle, hlen⟩
  · refine .inr ?_
    rw [wraps_of_not_write hkind, not_le] at hno
    have howed : owed s.oversized = s.oversized.skip := by
      show s.oversized.skip + (s.server.writeStream.map WriteStream.remaining).getD 0 = _
      rw [hp.writeStream]
      rfl
    have hskip : s.oversized.skip = (4 + u32At s.input 0) % USIZE -
      min s.input.length ((4 + u32At s.input 0) % USIZE) := rfl
    rw [heq, howed, length_oversized, hskip, Nat.mod_eq_of_lt hno]
    omega
  · refine .inr ?_
    rw [wraps_of_write hkind, not_le] at hno
    rw [Nat.mod_eq_of_lt hno] at hdeclared
    obtain ⟨stream, hstream, hremaining⟩ := begunWrite_stream s (u32At s.input 9)
    have howed : owed (s.begunWrite (u32At s.input 9)) = stream.remaining := by
      rw [owed, hstream]
      show s.skip + stream.remaining = _
      rw [hp.skip, Nat.zero_add]
    rw [heq, howed, length_begunWrite, hremaining]
    omega
  · have hmax : MAX_REQUEST = 4096 := rfl
    have hbody : ((s.input.take (4 + u32At s.input 0)).drop 5).length ≤ MAX_REQUEST := by
      rw [List.length_drop, List.length_take]
      omega
    have hkept (hw : (s.dispatched mounted ctx).server.writeStream = s.server.writeStream) :
        owed (s.dispatched mounted ctx) + s.input.length =
          (s.dispatched mounted ctx).input.length + (4 + u32At s.input 0) := by
      have hnone : owed (s.dispatched mounted ctx) = 0 := by
        rw [owed, hw, hp.writeStream]
        exact hp.skip
      rw [hnone]
      show 0 + s.input.length = (s.input.drop _).length + _
      rw [List.length_drop]
      omega
    rw [heq]
    rcases World.dispatch_cases (w := s.toWorld) (kindOf s.input) _ hbody mounted ctx with ⟨_, hd⟩ | ⟨_, _, hd⟩ | ⟨_, _, hd⟩
    · have hserver : (s.dispatched mounted ctx).toWorld = s.emit versionPacket := hd
      exact .inr (hkept (by rw [hserver]; rfl))
    · have hserver : (s.dispatched mounted ctx).toWorld = s.setFatal := hd
      exact .inl (by rw [hserver]; rfl)
    · exact .inr (hkept hd.writeStream)

/-- With a wrap, a WRITE's stream runs past its packet, and any other packet is not skipped in full. -/
theorem wrapped_start (hp : s.AtPacket) {mounted : Bool} {ctx : Ctx} (h : (s.step mounted ctx).2 = true)
    (hwraps : Wraps s.input) :
    (s.step mounted ctx).1.server.fatal = false ∧
      ((∃ stream, (s.step mounted ctx).1.server.writeStream = some stream ∧
          (s.step mounted ctx).1.input.length + (4 + u32At s.input 0) < s.input.length + stream.remaining) ∨
        (s.step mounted ctx).1.Between ∧
          s.input.length ≠ (s.step mounted ctx).1.input.length + (4 + u32At s.input 0)) := by
  have hsize : USIZE = 2 ^ 32 := rfl
  have hlength : u32At s.input 0 < 2 ^ 32 := u32At_lt _ _
  rcases start_cases hp h with ⟨heq, hlen, hkind⟩ | ⟨heq, hkind, _, hlen, hdeclared⟩ | ⟨heq, hkind, hle, hlen⟩
  · rw [wraps_of_not_write hkind] at hwraps
    have hskip : s.oversized.skip = (4 + u32At s.input 0) % USIZE -
      min s.input.length ((4 + u32At s.input 0) % USIZE) := rfl
    rw [heq]
    have hlen' := length_oversized s
    rw [hsize] at hskip hlen' hwraps
    exact ⟨hp.alive, .inr ⟨⟨by omega, hp.writeStream⟩, by omega⟩⟩
  · rw [wraps_of_write hkind] at hwraps
    obtain ⟨stream, hstream, hremaining⟩ := begunWrite_stream s (u32At s.input 9)
    rw [heq]
    refine ⟨hp.alive, .inl ⟨stream, hstream, ?_⟩⟩
    rw [length_begunWrite, hremaining]
    omega
  · have hmax : MAX_REQUEST = 4096 := rfl
    rw [wraps_of_not_write hkind] at hwraps
    omega

end FramingAux

/-- A packet that is taken up is framed exactly if and only if the sizes it declares do not wrap. -/
theorem framed_exactly_iff (s : Sftp F) (mounted : Bool) (ctx : Ctx) (hp : s.AtPacket)
    (h : (s.step mounted ctx).2 = true) : s.FramedExactly mounted ctx ↔ ¬Wraps s.input := by
  constructor
  · intro hframed hwraps
    obtain ⟨hlive, hwrong⟩ := FramingAux.wrapped_start hp h hwraps
    rcases hframed [] trivial with hfatal | ⟨hpayload, hbetween⟩
    · rw [Mealy.final_nil, hlive] at hfatal
      nomatch hfatal
    rcases hwrong with ⟨stream, hstream, hlt⟩ | ⟨hb, hne⟩
    · exact absurd (hpayload stream hstream) (not_le.mpr hlt)
    · exact hne (hbetween hb)
  · intro hno es hes
    rcases FramingAux.conserved_run es hes with hfatal | hrun
    · exact .inl hfatal
    rcases FramingAux.owed_start hp h hno with hfatal | howed
    · exact .inl (FramingAux.fatal_run hfatal es)
    refine .inr ⟨fun stream hstream => ?_, fun ⟨hskip, hw⟩ => ?_⟩
    · have hle : stream.remaining ≤ FramingAux.owed (Mealy.final serve (s.step mounted ctx).1 es) := by
        rw [FramingAux.owed, hstream]
        exact Nat.le_add_left _ _
      omega
    · have hzero : FramingAux.owed (Mealy.final serve (s.step mounted ctx).1 es) = 0 := by
        rw [FramingAux.owed, hskip, hw]
        rfl
      omega

/-- INIT is framed exactly. -/
theorem framed_exactly_init :
    ((new (F := Ram.fat) {}).feed [0, 0, 0, 5, 1, 0, 0, 0, 3]).FramedExactly true {} ↔
      ¬Wraps [0, 0, 0, 5, 1, 0, 0, 0, 3] :=
  framed_exactly_iff ((new (F := Ram.fat) {}).feed [0, 0, 0, 5, 1, 0, 0, 0, 3]) true {}
    ⟨rfl, rfl, rfl, rfl, rfl, rfl⟩ (by decide +kernel)

/-- A WRITE of length 1 with a 4-byte handle and `2^32 - 24` bytes of data, and a REALPATH of length `2^32 - 4`. -/
def wrappedWrite : List UInt8 :=
  [0, 0, 0, 1, 6, 0, 0, 0, 7, 0, 0, 0, 4, 0, 0, 1, 0, 0, 0, 0, 0, 0, 0, 0, 0, 0xff, 0xff, 0xff, 0xe8]

def wrappedRequest : List UInt8 := [0xff, 0xff, 0xff, 0xfc, 16, 0, 0, 0, 7]

/-- The WRITE is accepted with a payload far beyond its packet, and of the REALPATH no byte is consumed. -/
theorem not_framed_exactly :
    ¬((new (F := Ram.fat) {}).feed wrappedWrite).FramedExactly true {} ∧
      ¬((new (F := Ram.fat) {}).feed wrappedRequest).FramedExactly true {} := by
  constructor
  · intro h
    rcases h [] trivial with hfatal | ⟨hpayload, -⟩
    · revert hfatal
      decide +kernel
    · have hstream : (((new (F := Ram.fat) {}).feed wrappedWrite).step true {}).1.server.writeStream.isSome = true := by
        decide +kernel
      obtain ⟨stream, hstream'⟩ := Option.isSome_iff_exists.mp hstream
      have hle := hpayload stream hstream'
      have hremaining : ((((new (F := Ram.fat) {}).feed wrappedWrite).step true {}).1.server.writeStream.map
          WriteStream.remaining) = some (2 ^ 32 - 24) := by decide +kernel
      rw [hstream', Option.map_some] at hremaining
      injection hremaining with hremaining
      have hshort : (((new (F := Ram.fat) {}).feed wrappedWrite).step true {}).1.input.length +
          (4 + u32At wrappedWrite 0) < 100 := by decide +kernel
      have hle' : 2 ^ 32 - 24 ≤ (((new (F := Ram.fat) {}).feed wrappedWrite).step true {}).1.input.length +
          (4 + u32At wrappedWrite 0) := by
        rw [← hremaining]
        exact le_trans (Nat.le_add_left _ _) hle
      omega
  · intro h
    rcases h [] trivial with hfatal | ⟨-, hbetween⟩
    · revert hfatal
      decide +kernel
    · have heq := hbetween ⟨by decide +kernel, by decide +kernel⟩
      revert heq
      decide +kernel

end Sftp

end Ratputer
