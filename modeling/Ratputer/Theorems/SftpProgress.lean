import Ratputer.Theorems.SftpReplies
import Ratputer.Lemmas.SftpChunks
import Ratputer.Lib.Inevitable
import Mathlib.Data.Prod.Lex

/-!
# SFTP never stalls with work available

With its output drained and a fresh card budget, a session that has something to work on makes a step. And a request that is
whole in the input is answered after finitely many rounds of `beginPoll`, `step` and `consumeOutput`, whatever the rounds
bring.
-/

namespace Ratputer

open Effect

variable {V : Type} {F : Fat V}

/-- A packet that is in the input to its declared length. -/
def Declared (bytes : List UInt8) : Prop := 0 < u32At bytes 0 ∧ 4 + u32At bytes 0 ≤ bytes.length

instance (bytes : List UInt8) : Decidable (Declared bytes) := inferInstanceAs (Decidable (_ ∧ _))

/-- A whole request at the head of the input: a packet in its declared length, and that of a WRITE has room for its header. -/
def Complete (bytes : List UInt8) : Prop :=
  Declared bytes ∧
    (kindOf bytes = FXP_WRITE → 9 ≤ u32At bytes 0 ∧ (u32At bytes 9 ≤ 64 → 21 + u32At bytes 9 ≤ u32At bytes 0))

instance (bytes : List UInt8) : Decidable (Complete bytes) := inferInstanceAs (Decidable (_ ∧ _))

/-- The bytes are whole requests and a rest. -/
inductive Whole : List UInt8 → List Request → List UInt8 → Prop
  | nil (bytes : List UInt8) : Whole bytes [] bytes
  | cons {bytes rest : List UInt8} {rs : List Request} (h : Complete bytes)
      (hrest : Whole (bytes.drop (4 + u32At bytes 0)) rs rest) : Whole bytes (requestAt bytes :: rs) rest

/-- The size of a file as a search finds it reaches past what was written to it. -/
def ChunksGrow (F : Fat V) : Prop :=
  ∀ offset data file v file' v', writeChunk (F := F) offset data (file, v) = .ok () (file', v') →
    ∀ entry v'', F.findIn file.parent file.leaf v' = .ok (some entry) v'' → offset + data.length ≤ entry.len

namespace Sftp

open FramingAux

/-- There is something to work on: no room in the input, a whole request next in it, or a reply, growth or payload chunk
pending. -/
def Available (whole : List UInt8 → Prop) (s : Sftp F) : Prop :=
  s.inputSpace = 0 ∨ (owed s ≤ s.input.length ∧ whole (s.input.drop (owed s))) ∨ s.server.readStream.isSome ∨
    s.server.resize.isSome ∨ ∃ stream, s.server.writeStream = some stream ∧ min stream.remaining WRITE_CHUNK ≤ s.input.length

/-- A step does something, or gives the session up. -/
def Progresses (s : Sftp F) (mounted : Bool) (ctx : Ctx) : Prop :=
  (s.step mounted ctx).2 = true ∨ (s.step mounted ctx).1.server.fatal = true

/-- One round of the driver of a session; it takes some of the output. -/
structure Round where
  mounted : Bool
  ctx : Ctx
  count : Nat
  count_pos : 0 < count

def Round.events (r : Round) : List Event := [.beginPoll, .step r.mounted r.ctx, .consume r.count]

/-- The first `n` rounds. -/
def rounds (f : ℕ → Round) (n : ℕ) : List Event := (List.range n).flatMap fun k => (f k).events

namespace ProgressAux

variable {s : Sftp F} {mounted : Bool} {ctx : Ctx}

/-! ## One step -/

/-- A payload chunk that is there is taken up, or what it ends with is kept. -/
theorem continueWrite_progress {stream : WriteStream} (h : s.server.writeStream = some stream)
    (hready : min stream.remaining WRITE_CHUNK ≤ s.input.length) (hbudget : s.cardBudget = true) :
    (s.continueWrite mounted).2 = true := by
  have hchunk : WRITE_CHUNK = 8192 := rfl
  unfold continueWrite
  simp only [h]
  split
  · rfl
  rw [if_neg (by omega)]
  split
  · rfl
  rw [hbudget, if_neg (by decide)]
  split <;> rfl

/-- A packet whose header is there is taken up, or refused for good. -/
theorem beginWrite_progress {length : Nat}
    (h : 13 ≤ s.input.length ∧ (u32At s.input 9 ≤ 64 → 25 + u32At s.input 9 ≤ s.input.length)) :
    (s.beginWrite length).2 = true ∨ (s.beginWrite length).1.server.fatal = true := by
  unfold beginWrite
  rw [if_neg (by omega)]
  dsimp only
  split
  · exact .inr rfl
  rename_i hhandle
  rw [header_eq hhandle, if_neg (by have := h.2 (by omega); omega)]
  split
  · exact .inl rfl
  · exact .inr rfl

/-- At a packet, a full input or a whole request is enough to go on. -/
theorem parseNext_progress (hbudget : s.cardBudget = true) (h : s.inputSpace = 0 ∨ Complete s.input) :
    (s.parseNext mounted ctx).2 = true ∨ (s.parseNext mounted ctx).1.server.fatal = true := by
  have hmax : MAX_INPUT = 10240 := rfl
  have hrequest : MAX_REQUEST = 4096 := rfl
  have hfull : 10240 ≤ s.input.length ∨ Complete s.input := by
    refine h.imp_left fun h => ?_
    unfold inputSpace at h
    omega
  have hlen : 5 ≤ s.input.length := by
    rcases hfull with hfull | ⟨⟨hpos, hlen⟩, _⟩ <;> omega
  unfold parseNext
  rw [if_neg (by omega)]
  dsimp only
  split
  · exact .inr rfl
  split
  · rename_i hkind
    refine beginWrite_progress ?_
    rcases hfull with hfull | ⟨⟨_, hlen⟩, hwrite⟩
    · omega
    · have hheader := hwrite hkind
      omega
  split
  · rw [if_neg (by rcases hfull with hfull | ⟨⟨hpos, hlen⟩, _⟩ <;> omega)]
    exact .inl rfl
  · rw [if_neg (by rcases hfull with hfull | ⟨⟨hpos, hlen⟩, _⟩ <;> omega), hbudget, if_neg (by decide)]
    exact .inl rfl

/-- With something to work on, a step does something. -/
theorem progress (hlive : s.server.fatal = false) (hout : s.output = []) (hbudget : s.cardBudget = true)
    (h : s.Available Complete) : s.Progresses mounted ctx := by
  have hmax : MAX_INPUT = 10240 := rfl
  have hchunk : WRITE_CHUNK = 8192 := rfl
  change s.server.out = [] at hout
  unfold Progresses step
  rw [hlive, hout, hbudget, if_neg (by decide), if_neg (by simp)]
  split
  · exact .inl rfl
  rename_i hz
  split
  · exact .inl rfl
  rename_i hr
  have hwork : s.inputSpace = 0 ∨ (owed s ≤ s.input.length ∧ Complete (s.input.drop (owed s))) ∨
      ∃ stream, s.server.writeStream = some stream ∧ min stream.remaining WRITE_CHUNK ≤ s.input.length := by
    rcases h with h | h | h | h | h
    · exact .inl h
    · exact .inr (.inl h)
    · exact absurd h hr
    · exact absurd h hz
    · exact .inr (.inr h)
  cases hw : s.server.writeStream with
  | some stream =>
    have howed : owed s = s.skip + stream.remaining := by
      rw [owed, hw]
      rfl
    refine .inl (continueWrite_progress hw ?_ hbudget)
    rcases hwork with hfull | ⟨hle, _⟩ | ⟨stream', hstream, hready⟩
    · unfold inputSpace at hfull
      omega
    · omega
    · rw [hw] at hstream
      injection hstream with hstream
      exact hstream ▸ hready
  | none =>
    have howed : owed s = s.skip := by
      rw [owed, hw]
      rfl
    have hnext : s.inputSpace = 0 ∨ (s.skip ≤ s.input.length ∧ Complete (s.input.drop s.skip)) := by
      rcases hwork with hfull | hnext | ⟨stream', hstream, _⟩
      · exact .inl hfull
      · exact .inr (howed ▸ hnext)
      · rw [hw] at hstream
        cases hstream
    simp only [Option.isSome_none, Bool.false_eq_true, if_false]
    split
    · refine .inl (decide_eq_true ?_)
      rcases hnext with hfull | ⟨hle, _⟩
      · unfold inputSpace at hfull
        omega
      · omega
    · rename_i hskip
      refine parseNext_progress hbudget (hnext.imp_right fun hnext => ?_)
      rw [Nat.eq_zero_of_not_pos hskip, List.drop_zero] at hnext
      exact hnext.2

/-! ## What a step brings nearer -/

/-- How far a file is from a size, as a search finds it. -/
def shortOf (F : Fat V) (parent : List Str) (leaf : Str) (v : V) (size : Nat) : Nat :=
  match F.findIn parent leaf v with
  | .ok (some entry) _ => size - entry.len
  | _ => 0

/-- The zeros still to be written: up to a SETSTAT's size, or up to a WRITE's offset. -/
def gap (s : Sftp F) : Nat :=
  match s.server.resize with
  | some job => shortOf F job.file.parent job.file.leaf s.volume (job.attrs.size.getD 0)
  | none =>
    match s.server.writeStream with
    | some stream =>
      match s.server.handles stream.slot with
      | some (.file file) => shortOf F file.parent file.leaf s.volume stream.offset
      | _ => 0
    | none => 0

/-- The bytes still to be consumed and to be delivered, and the answers and errors still to come. -/
def work (s : Sftp F) : Nat :=
  2 * (owed s + s.due + (if s.server.resize.isSome then 1 else 0) + (if s.server.writeStream.isSome then 1 else 0)) +
    (if s.server.writeStream.any (·.failed.isNone) then 1 else 0)

/-- Less is to be done. -/
def Nearer (s s' : Sftp F) : Prop :=
  work s' < work s ∨ work s' = work s ∧ gap s' < gap s ∧ s'.server.out = s.server.out

theorem shortOf_eq {parent : List Str} {leaf : Str} {v v' : V} {entry : F.Entry}
    (h : F.findIn parent leaf v = .ok (some entry) v') (size : Nat) : shortOf F parent leaf v size = size - entry.len := by
  rw [shortOf, h]

/-- A chunk of zeros that was written brings the file nearer to a size beyond it. -/
theorem shortOf_written (hgrow : ChunksGrow F) {file file' : FileHandle F} {v v₁ v' : V} {entry : F.Entry} {size : Nat}
    (hfind : F.findIn file.parent file.leaf v = .ok (some entry) v₁) (hlt : entry.len < size)
    (hchunk : writeChunk entry.len (List.replicate (min (size - entry.len) WRITE_CHUNK) 0) (file, v₁) = .ok () (file', v')) :
    shortOf F file'.parent file'.leaf v' size < shortOf F file.parent file.leaf v size := by
  obtain ⟨hwritten⟩ := writeChunk_ok hchunk
  have hgrown := hgrow _ _ _ _ _ _ hchunk
  have hchunk : WRITE_CHUNK = 8192 := rfl
  rw [shortOf_eq hfind, hwritten.samePath.1, hwritten.samePath.2]
  unfold shortOf
  split
  · rename_i entry' v'' hfind'
    have hlen := hgrown entry' v'' hfind'
    rw [List.length_replicate] at hlen
    omega
  · omega

/-- A SETSTAT that goes on growing its file is nearer to its size. -/
theorem resize_gap (hgrow : ChunksGrow F) {job job' : ResizeJob F} (hz : s.server.resize = some job) (hjob : job.Valid)
    (h : (s.continueResize mounted ctx).server.resize = some job') :
    shortOf F job'.file.parent job'.file.leaf (s.continueResize mounted ctx).volume (job'.attrs.size.getD 0) <
      shortOf F job.file.parent job.file.leaf s.volume (job.attrs.size.getD 0) := by
  unfold World.continueResize at h ⊢
  simp only [hz] at h ⊢
  cases mounted with
  | false => nomatch h
  | true =>
    simp only [if_true] at h ⊢
    have hend := Quiet.resizeChunk job ctx s.dropResize
    unfold World.dropResize at hend
    cases hrun : resizeChunk job ctx { s.toWorld with server := { s.server with resize := none } } with
    | error status w' =>
      simp only [hrun] at h
      have hnone : w'.server.resize = none := (hend.error hrun).1.resize
      rw [show (w'.emit _).server.resize = w'.server.resize from rfl, hnone] at h
      nomatch h
    | ok r w' =>
      obtain ⟨job₁, done⟩ := r
      cases done with
      | true =>
        simp only [hrun] at h
        have hnone : w'.server.resize = none := (hend.ok hrun).1.resize
        rw [show (w'.emit _).server.resize = w'.server.resize from rfl, hnone] at h
        nomatch h
      | false =>
        simp only [hrun] at h ⊢
        injection h with h
        subst h
        obtain ⟨entry, v, file', hfind, hlt, hchunk, rfl⟩ := resizeChunk_ok hjob hrun
        exact shortOf_written hgrow hfind hlt hchunk

theorem work_of_write {stream : WriteStream} (hz : s.server.resize = none) (hr : s.server.readStream = none)
    (hw : s.server.writeStream = some stream) :
    work s = 2 * (s.skip + stream.remaining + 1) + if stream.failed.isNone then 1 else 0 := by
  simp [work, owed, Sftp.due, hz, hr, hw]

/-- A piece of payload that is taken off the input, or an empty payload that is answered, leaves less to do. -/
theorem work_advanceWrite (s : Sftp F) (stream : WriteStream) {count : Nat} (hz : s.server.resize = none)
    (hr : s.server.readStream = none) (hcount : 0 < count ∨ stream.remaining = 0) (hle : count ≤ stream.remaining) :
    work (s.advanceWrite stream count) < 2 * (s.skip + stream.remaining + 1) := by
  by_cases hlast : stream.remaining - count = 0
  · rw [advanceWrite, if_pos hlast]
    simp [work, owed, Sftp.due, World.emit, hz, hr]
  · rw [advanceWrite, if_neg hlast]
    refine lt_of_eq_of_lt (work_of_write hz hr rfl) ?_
    dsimp only
    split <;> omega

/-- A step of a payload that is all in the input brings its answer nearer. -/
theorem write_nearer (hgrow : ChunksGrow F) {stream : WriteStream} (hz : s.server.resize = none)
    (hr : s.server.readStream = none) (hw : s.server.writeStream = some stream)
    (hbudget : s.cardBudget = true) (hinput : stream.remaining ≤ s.input.length) :
    Nearer s (s.continueWrite mounted).1 := by
  have hchunk : WRITE_CHUNK = 8192 := rfl
  have hwork := work_of_write hz hr hw
  have hadvance (x : Sftp F) (stream' : WriteStream) {count : Nat} (hskip : x.skip = s.skip)
      (hz' : x.server.resize = none) (hr' : x.server.readStream = none) (hremaining : stream'.remaining = stream.remaining)
      (hcount : 0 < count ∨ stream.remaining = 0) (hle : count ≤ stream.remaining) :
      Nearer s (x.advanceWrite stream' count) := by
    have hless := work_advanceWrite x stream' hz' hr' (hremaining ▸ hcount) (hremaining ▸ hle)
    rw [hskip, hremaining] at hless
    exact .inl (by omega)
  unfold continueWrite
  simp only [hw]
  by_cases hzero : stream.remaining = 0
  · rw [if_pos hzero]
    exact hadvance s stream rfl hz hr rfl (.inr hzero) (Nat.zero_le _)
  rw [if_neg hzero, if_neg (by omega)]
  split
  · exact hadvance s stream rfl hz hr rfl (.inl (by omega)) (by omega)
  rename_i hfailed
  rw [hbudget, if_neg (by decide)]
  have hsame := (writePayload_same stream (s.input.take (min (min s.input.length stream.remaining) WRITE_CHUNK)) mounted
    { s.toWorld with server.writeStream := none }).1
  have hgap := @writePayload_gap V F stream (s.input.take (min (min s.input.length stream.remaining) WRITE_CHUNK)) mounted
    { s.toWorld with server.writeStream := none }
  generalize writePayload stream _ mounted _ = r at hsame hgap ⊢
  obtain ⟨w', error, taken⟩ := r
  have hz' : w'.server.resize = none := hsame.resize.trans hz
  have hr' : w'.server.readStream = none := hsame.readStream.trans hr
  cases taken with
  | true =>
    simp only [if_true]
    exact hadvance _ _ rfl hz' hr' rfl (.inl (by omega)) (by omega)
  | false =>
    simp only [Bool.false_eq_true, if_false]
    have hnone : stream.failed.isNone = true := by simpa using hfailed
    cases error with
    | some status =>
      refine .inl (lt_of_eq_of_lt (work_of_write hz' hr' rfl) ?_)
      rw [hwork, hnone]
      simp
    | none =>
      refine .inr ⟨Eq.trans (work_of_write hz' hr' rfl) ?_, ?_, hsame.out⟩
      · rw [hwork, hnone]
        rfl
      · obtain ⟨file, entry, v, file', file'', hslot, hfind, hlt, hchunk, hslot', hparent, hleaf⟩ := hgap rfl
        have hless := shortOf_written hgrow hfind hlt hchunk
        change s.server.handles stream.slot = _ at hslot
        unfold gap
        simp only [hz, hz', hw, hslot, hslot', hparent, hleaf]
        exact hless

/-! ## Rounds -/

/-- What holds of a session along every run. -/
structure Kept (s : Sftp F) : Prop where
  bounded : BuffersAux.Bounded s
  valid : ∀ job, s.server.resize = some job → job.Valid

/-- Every step keeps the job of a growing SETSTAT valid. -/
theorem valid_step (h : ∀ job, s.server.resize = some job → job.Valid) :
    ∀ job, (s.step mounted ctx).1.server.resize = some job → job.Valid := by
  have hstep := step_stepped s mounted ctx
  generalize s.step mounted ctx = r at hstep ⊢
  cases hstep with
  | idle => exact h
  | malformed count => exact h
  | resize job _ _ hz =>
    intro job₁ hjob₁
    rcases World.continueResize_cases hz mounted ctx with ⟨job', _, hvalid, hs⟩ | ⟨status, _, hs⟩
    · rw [show _ = _ from hs.resize] at hjob₁
      injection hjob₁ with hjob₁
      exact hjob₁ ▸ hvalid (h job hz)
    · rw [show _ = _ from hs.resize] at hjob₁
      nomatch hjob₁
  | read stream _ _ _ hr =>
    rcases World.continueRead_cases hr mounted with hs | ⟨bytes, _, _, _, hs⟩
    · exact fun job hjob => h job (hs.resize ▸ hjob)
    · exact fun job hjob => h job (hs.resize ▸ hjob)
  | payload stream stream' w' count budget _ _ _ _ _ _ _ _ _ _ hs =>
    have hresize : (({ s with toWorld := w', cardBudget := budget } : Sftp F).advanceWrite stream' count).server.resize =
        s.server.resize := by
      unfold advanceWrite
      dsimp only
      split <;> exact hs.resize
    exact fun job hjob => h job (hresize ▸ hjob)
  | skip => exact h
  | oversized => exact h
  | write => exact h
  | request hp _ _ hle hlen =>
    have hbody : ((s.input.take (4 + u32At s.input 0)).drop 5).length ≤ MAX_REQUEST := by
      rw [List.length_drop, List.length_take]
      omega
    rcases World.dispatch_cases (w := s.toWorld) (kindOf s.input) _ hbody mounted ctx with ⟨_, heq⟩ | ⟨_, _, heq⟩ | ⟨_, _, hh⟩
    · have hworld : (s.dispatched mounted ctx).toWorld = s.emit versionPacket := heq
      rw [hworld]
      exact h
    · have hworld : (s.dispatched mounted ctx).toWorld = s.setFatal := heq
      rw [hworld]
      exact h
    · change Handled _ _ _ (s.dispatched mounted ctx).toWorld at hh
      cases hh with
      | replied _ _ hs => exact fun job hjob => h job (hs.resize ▸ hjob)
      | data _ _ _ hs => exact fun job hjob => h job (hs.resize ▸ hjob)
      | growing job' _ hvalid hs =>
        intro job hjob
        rw [hs.resize] at hjob
        injection hjob with hjob
        exact hjob ▸ hvalid
      | opened _ _ _ _ hs => exact fun job hjob => h job (hs.resize ▸ hjob)
      | closed _ _ _ _ hs => exact fun job hjob => h job (hs.resize ▸ hjob)

theorem kept_serve (h : Kept s) (e : Event) (hfits : s.Fits e) : Kept (s.serve e).1 := by
  refine ⟨BuffersAux.bounded_serve h.bounded e hfits, ?_⟩
  cases e with
  | step mounted ctx => exact valid_step h.valid
  | _ => exact h.valid

/-- All that is ahead is in the input: what is owed, and then `rest`. -/
def Ahead (rest : List UInt8) (s : Sftp F) : Prop := owed s ≤ s.input.length ∧ s.input.drop (owed s) = rest

/-- A step that consumes bytes of the packet in progress stays on the way to `rest`. -/
theorem Ahead.consume {rest : List UInt8} {s' : Sftp F} (h : Ahead rest s) (count : Nat) (hi : s'.input = s.input.drop count)
    (howed : owed s' + count = owed s) : Ahead rest s' := by
  obtain ⟨hle, hrest⟩ := h
  refine ⟨?_, ?_⟩
  · rw [hi, List.length_drop]
    omega
  · rw [hi, List.drop_drop, Nat.add_comm, howed]
    exact hrest

/-- A step that takes up no packet stays on the way. -/
theorem ahead_step {rest : List UInt8} (h : Ahead rest s) (hp : ¬s.AtPacket) : Ahead rest (s.step mounted ctx).1 := by
  have hstep := step_stepped s mounted ctx
  generalize s.step mounted ctx = r at hstep ⊢
  cases hstep with
  | idle => exact h
  | malformed count hp' => exact absurd hp' hp
  | resize job _ _ hz =>
    refine h.consume 0 rfl (owed_congr s _ rfl ?_)
    rcases World.continueResize_cases hz mounted ctx with ⟨job', _, _, hs⟩ | ⟨status, _, hs⟩
    · exact hs.writeStream
    · exact hs.writeStream
  | read stream _ _ _ hr =>
    refine h.consume 0 rfl (owed_congr s _ rfl ?_)
    rcases World.continueRead_cases hr mounted with hs | ⟨bytes, _, _, _, hs⟩
    · exact hs.writeStream
    · exact hs.writeStream
  | payload stream stream' w' count budget _ _ _ _ hw _ hremaining _ _ hcount =>
    refine h.consume count (RepliesAux.advanceWrite_input _ _ _) ?_
    rw [owed_advanceWrite _ _ (hremaining ▸ hcount), owed, hw, hremaining]
    rfl
  | skip count _ _ _ _ hw _ hcount =>
    refine h.consume count rfl ?_
    simp only [owed, hw]
    omega
  | oversized hp' => exact absurd hp' hp
  | write hp' => exact absurd hp' hp
  | request hp' => exact absurd hp' hp

theorem read_nearer {stream : ReadStream} (hr : s.server.readStream = some stream) (mounted : Bool) :
    (s.continueRead mounted).server.fatal = true ∨
      Nearer s ({ s with toWorld := s.continueRead mounted, cardBudget := false } : Sftp F) := by
  rcases World.continueRead_cases hr mounted with hs | ⟨bytes, hpos, _, hle, hs⟩
  · exact .inl hs.fatal
  · refine .inr (.inl ?_)
    have hdue : Sftp.due ({ s with toWorld := s.continueRead mounted, cardBudget := false } : Sftp F) =
        stream.remaining - bytes.length := by
      rw [Sftp.due, hs.readStream]
      show (Option.map _ (if _ then some _ else none)).getD 0 = _
      split
      · rfl
      · show 0 = _
        omega
    have hbefore : s.due = stream.remaining := by
      rw [Sftp.due, hr]
      rfl
    have howed : owed ({ s with toWorld := s.continueRead mounted, cardBudget := false } : Sftp F) = owed s :=
      owed_congr s _ rfl hs.writeStream
    have hw : (s.continueRead mounted).server.writeStream = s.server.writeStream := hs.writeStream
    have hz : (s.continueRead mounted).server.resize = s.server.resize := hs.resize
    unfold work
    rw [hdue, hbefore, howed, hw, hz]
    omega

theorem resize_nearer (hgrow : ChunksGrow F) {job : ResizeJob F} (hz : s.server.resize = some job) (hjob : job.Valid) :
    Nearer s ({ s with toWorld := s.continueResize mounted ctx, cardBudget := false } : Sftp F) := by
  have hgap := @resize_gap V F s mounted ctx hgrow job
  have hwork (w' : World F) (hw : w'.server.writeStream = s.server.writeStream)
      (hr : w'.server.readStream = s.server.readStream) :
      work ({ s with toWorld := w', cardBudget := false } : Sftp F) + 2 = work s + 2 * (if w'.server.resize.isSome then 1 else 0) := by
    unfold work owed Sftp.due
    dsimp only
    rw [hw, hr, hz]
    simp only [Option.isSome_some, if_true]
    omega
  rcases World.continueResize_cases hz mounted ctx with ⟨job', _, _, hs⟩ | ⟨status, _, hs⟩
  · have hresize : (s.continueResize mounted ctx).server.resize = some job' := hs.resize
    have hequal := hwork (s.continueResize mounted ctx) hs.writeStream hs.readStream
    rw [hresize, Option.isSome_some, if_pos rfl] at hequal
    refine .inr ⟨Nat.add_right_cancel hequal, ?_, hs.out⟩
    unfold gap
    simp only [hz, hresize]
    exact hgap hz hjob hresize
  · have hresize : (s.continueResize mounted ctx).server.resize = none := hs.resize
    have hequal := hwork (s.continueResize mounted ctx) hs.writeStream hs.readStream
    rw [hresize, Option.isSome_none, if_neg (by decide), Nat.mul_zero, Nat.add_zero] at hequal
    exact .inl (Nat.lt_of_lt_of_le (Nat.lt_add_of_pos_right two_pos) hequal.le)

/-- Away from a packet, a step with drained output and a fresh budget brings the next packet nearer, or ends the session. -/
theorem step_nearer (mounted : Bool) (ctx : Ctx) (hgrow : ChunksGrow F) {rest : List UInt8} (h : Ahead rest s)
    (hvalid : ∀ job, s.server.resize = some job → job.Valid) (hlive : s.server.fatal = false) (hout : s.server.out = [])
    (hbudget : s.cardBudget = true) (hp : ¬s.AtPacket) :
    (s.step mounted ctx).1.server.fatal = true ∨ Nearer s (s.step mounted ctx).1 := by
  have hle := h.1
  unfold step
  rw [hlive, hout, hbudget, if_neg (by decide), if_neg (by simp)]
  cases hz : s.server.resize with
  | some job =>
    simp only [Option.isSome_some, if_true, Bool.not_true, Bool.false_eq_true, if_false]
    exact .inr (resize_nearer hgrow hz (hvalid job hz))
  | none =>
    simp only [Option.isSome_none, Bool.false_eq_true, if_false]
    cases hr : s.server.readStream with
    | some stream =>
      simp only [Option.isSome_some, if_true, Bool.not_true, Bool.false_eq_true, if_false]
      exact read_nearer hr mounted
    | none =>
      simp only [Option.isSome_none, Bool.false_eq_true, if_false]
      cases hw : s.server.writeStream with
      | some stream =>
        simp only [Option.isSome_some, if_true]
        rw [owed, hw] at hle
        refine .inr (write_nearer hgrow hz hr hw hbudget ?_)
        exact le_trans (Nat.le_add_left _ _) hle
      | none =>
        simp only [Option.isSome_none, Bool.false_eq_true, if_false]
        rw [owed, hw] at hle
        split
        · refine .inr (.inl ?_)
          simp only [work, owed, Sftp.due, hz, hr, hw, Option.map_none, Option.getD_none] at hle ⊢
          omega
        · exact absurd ⟨hlive, hout, hz, hr, hw, by omega⟩ hp

/-- A round, and the bytes taken until then. -/
def turn (r : Round) (x : Sftp F × List UInt8) : Sftp F × List UInt8 :=
  (Mealy.final serve x.1 r.events, x.2 ++ takenIn (Mealy.outputs serve x.1 r.events))

/-- The session in the middle of a round, its output not yet taken. -/
def stepped (r : Round) (s : Sftp F) : Sftp F := (s.beginPoll.step r.mounted r.ctx).1

theorem turn_fst (r : Round) (x : Sftp F × List UInt8) : (turn r x).1 = (stepped r x.1).consumeOutput r.count := rfl

theorem along_turn (f : ℕ → Round) (x : Sftp F × List UInt8) (n : ℕ) :
    along turn f x n =
      (Mealy.final serve x.1 (rounds f n), x.2 ++ takenIn (Mealy.outputs serve x.1 (rounds f n))) := by
  induction n with
  | zero =>
    show x = (x.1, x.2 ++ [])
    rw [List.append_nil]
  | succ n ih =>
    have hrounds : rounds f (n + 1) = rounds f n ++ (f n).events := by
      rw [rounds, List.range_succ, List.flatMap_append, List.flatMap_singleton]
      rfl
    show turn (f n) (along turn f x n) = _
    rw [ih, hrounds, Mealy.final_append, Mealy.outputs_append]
    unfold turn takenIn
    rw [List.flatMap_append, List.append_assoc]

theorem atPacket_of_beginPoll (h : s.beginPoll.AtPacket) : s.AtPacket :=
  ⟨h.alive, h.drained, h.resize, h.readStream, h.writeStream, h.skip⟩

theorem fatal_turn {x : Sftp F × List UInt8} (r : Round) (h : x.1.server.fatal = true) : (turn r x).1.server.fatal = true :=
  fatal_run h r.events

theorem kept_turn {x : Sftp F × List UInt8} (r : Round) (h : Kept x.1) : Kept (turn r x).1 :=
  kept_serve (kept_serve (kept_serve h .beginPoll trivial) (.step r.mounted r.ctx) trivial) (.consume r.count) trivial

theorem ahead_turn {rest : List UInt8} {x : Sftp F × List UInt8} (r : Round) (h : Ahead rest x.1) (hp : ¬x.1.AtPacket) :
    Ahead rest (turn r x).1 := by
  have hpoll : Ahead rest x.1.beginPoll := h
  have hstep : Ahead rest (stepped r x.1) := ahead_step hpoll fun hp' => hp (atPacket_of_beginPoll hp')
  exact hstep

/-- What is to be done, and the output to be taken. -/
def distance (x : Sftp F × List UInt8) : ℕ ×ₗ ℕ := toLex (work x.1, gap x.1 + x.1.server.out.length)

/-- Away from a packet, a round gets nearer to the next, or ends the session. -/
theorem turn_nearer (hgrow : ChunksGrow F) {rest : List UInt8} {x : Sftp F × List UInt8} (r : Round) (hk : Kept x.1)
    (h : Ahead rest x.1) (hlive : x.1.server.fatal = false) (hp : ¬x.1.AtPacket) :
    (turn r x).1.server.fatal = true ∨ distance (turn r x) < distance x := by
  have hcount := r.count_pos
  have hwork (t : Sftp F) (count : Nat) : work (t.consumeOutput count) = work t := rfl
  have hgap (t : Sftp F) (count : Nat) : gap (t.consumeOutput count) = gap t := rfl
  have hlength (t : Sftp F) (count : Nat) :
      (t.consumeOutput count).server.out.length = t.server.out.length - min count t.server.out.length := List.length_drop
  unfold distance
  rw [Prod.Lex.toLex_lt_toLex, turn_fst]
  simp only [hwork, hgap, hlength]
  by_cases hout : x.1.server.out = []
  · have hpoll : Ahead rest x.1.beginPoll := h
    rcases step_nearer r.mounted r.ctx hgrow hpoll hk.valid hlive hout rfl
      (fun hp' => hp (atPacket_of_beginPoll hp')) with hfatal | hless | ⟨hsame, hless, hkept⟩
    · exact .inl hfatal
    · exact .inr (.inl hless)
    · refine .inr (.inr ⟨hsame, ?_⟩)
      have hempty : (stepped r x.1).server.out = [] := hkept.trans hout
      have hgapless : gap (stepped r x.1) < gap x.1 := hless
      rw [hempty, hout, List.length_nil]
      omega
  · refine .inr (.inr ?_)
    have hidle : stepped r x.1 = x.1.beginPoll := by
      have hpending : x.1.beginPoll.server.out ≠ [] := hout
      unfold stepped step
      rw [if_neg (by rw [show x.1.beginPoll.server.fatal = false from hlive]; decide), if_pos hpending]
    have hpos : 0 < x.1.server.out.length := List.length_pos_iff.mpr hout
    rw [hidle]
    refine ⟨rfl, ?_⟩
    show gap x.1 + (x.1.server.out.length - min r.count x.1.server.out.length) < gap x.1 + x.1.server.out.length
    omega

/-- Whatever the rounds bring, what is pending comes to its end: the next packet is reached, and what every round before it
keeps holds there. -/
theorem packet_inevitable (hgrow : ChunksGrow F) {rest : List UInt8} (J : Sftp F × List UInt8 → Prop)
    (hJ : ∀ x r, Kept x.1 → ¬x.1.AtPacket → J x → (turn r x).1.server.fatal = false → J (turn r x))
    {x : Sftp F × List UInt8} (hk : Kept x.1) (h : Ahead rest x.1) (hj : J x) :
    Inevitable turn (fun y => y.1.server.fatal = true ∨ y.1.AtPacket ∧ y.1.input = rest ∧ Kept y.1 ∧ J y) x := by
  have hrule : Inevitable turn (fun y : Sftp F × List UInt8 =>
      (y.1.server.fatal = true ∨ Kept y.1 ∧ Ahead rest y.1 ∧ J y) ∧ (y.1.server.fatal = true ∨ y.1.AtPacket)) x :=
    Inevitable.of_measure (fun y => y.1.server.fatal = true ∨ Kept y.1 ∧ Ahead rest y.1 ∧ J y) distance ?_
      (.inr ⟨hk, h, hj⟩)
  · refine hrule.mono ?_
    rintro y ⟨hi, hfatal | hp⟩
    · exact .inl hfatal
    rcases hi with hfatal | ⟨hk, h, hj⟩
    · exact .inl hfatal
    · have howed : owed y.1 = 0 := by
        rw [owed, hp.writeStream, hp.skip]
        rfl
      have hinput := h.2
      rw [howed, List.drop_zero] at hinput
      exact .inr ⟨hp, hinput, hk, hj⟩
  · intro y hi hnot r
    rw [not_or, Bool.not_eq_true] at hnot
    rcases hi with hfatal | ⟨hk, h, hj⟩
    · rw [hnot.1] at hfatal
      cases hfatal
    by_cases hfatal : (turn r y).1.server.fatal = true
    · exact ⟨.inl hfatal, .inl (.inl hfatal)⟩
    · refine ⟨.inr ⟨kept_turn r hk, ahead_turn r h hnot.2, hJ y r hk hnot.2 hj (by simpa using hfatal)⟩, .inr ?_⟩
      exact (turn_nearer hgrow r hk h hnot.1 hnot.2).resolve_left hfatal

/-! ## A whole request -/

/-- The sizes of a whole request that is taken up do not wrap, part of it being still to come. -/
theorem not_wraps_of_complete (more : List UInt8) (h : Complete (s.input ++ more)) (hlen : 4 + u32At s.input 0 < 2 ^ 32)
    (hp : s.AtPacket) (hstart : (s.step mounted ctx).2 = true) : ¬Wraps s.input := by
  have hsize : USIZE = 2 ^ 32 := rfl
  obtain ⟨_, hwrite⟩ := h
  rcases start_cases hp hstart with ⟨_, _, hkind⟩ | ⟨_, hkind, hhandle, hheader, hdeclared⟩ | ⟨_, hkind, _, _⟩
  · rw [wraps_of_not_write hkind]
    omega
  · rw [wraps_of_write hkind]
    rw [kindOf_append (by omega), u32At_append (i := 9) (by omega), u32At_append (i := 0) (by omega)] at hwrite
    have hroom := (hwrite hkind).2 hhandle
    have hdata : (writeHeader s.input (u32At s.input 9)).dataLen < 2 ^ 32 := u32At_lt _ _
    rw [hsize] at hdeclared ⊢
    omega
  · rw [wraps_of_not_write hkind]
    omega

/-- After a packet is taken up, the rest of it and what follows it are ahead. -/
theorem ahead_start (hp : s.AtPacket) (hstart : (s.step mounted ctx).2 = true) (hno : ¬Wraps s.input)
    (hwhole : 4 + u32At s.input 0 ≤ s.input.length) :
    (s.step mounted ctx).1.server.fatal = true ∨ Ahead (s.input.drop (4 + u32At s.input 0)) (s.step mounted ctx).1 := by
  rcases owed_start hp hstart hno with hfatal | howed
  · exact .inl hfatal
  have hdrop : ∃ count, count ≤ s.input.length ∧ (s.step mounted ctx).1.input = s.input.drop count := by
    rcases start_cases hp hstart with ⟨heq, _⟩ | ⟨heq, _, _, hlen, _⟩ | ⟨heq, _, _, hlen⟩
    · exact ⟨_, Nat.min_le_left _ _, by rw [heq]; rfl⟩
    · exact ⟨_, hlen, by rw [heq]; rfl⟩
    · exact ⟨_, hlen, by rw [heq]; rfl⟩
  obtain ⟨count, hle, heq⟩ := hdrop
  have hlength : (s.step mounted ctx).1.input.length = s.input.length - count := by rw [heq, List.length_drop]
  refine .inr ⟨by omega, ?_⟩
  rw [heq, List.drop_drop]
  congr 1
  omega

/-- A round keeps the conversation since the bytes `before`. -/
theorem talk_turn {all : List Request} (before : List UInt8) {x : Sftp F × List UInt8} (r : Round) (hk : Kept x.1)
    (hno : x.1.beginPoll.AtPacket ∧ (x.1.beginPoll.step r.mounted r.ctx).2 = true → ¬Wraps x.1.input)
    (h : ∃ taken, x.2 = before ++ taken ∧ RepliesAux.Talk x.1 [] taken all)
    (hlive : (turn r x).1.server.fatal = false) :
    ∃ taken, (turn r x).2 = before ++ taken ∧ RepliesAux.Talk (turn r x).1 [] taken all := by
  obtain ⟨taken, heq, htalk⟩ := h
  have hlive' : x.1.beginPoll.server.fatal = false := by
    rw [← Bool.not_eq_true]
    intro hfatal
    rw [fatal_turn r hfatal] at hlive
    nomatch hlive
  have hpoll : RepliesAux.Talk (x.1.serve .beginPoll).1 [] (taken ++ []) all :=
    RepliesAux.talk_serve .beginPoll htalk hk.bounded (fun h => nomatch h.2) hlive'
  have hbpoll : BuffersAux.Bounded x.1.beginPoll := BuffersAux.bounded_serve hk.bounded .beginPoll trivial
  have hstep : RepliesAux.Talk (stepped r x.1) [] (taken ++ [] ++ []) all :=
    RepliesAux.talk_serve (.step r.mounted r.ctx) hpoll hbpoll hno hlive
  have hbstep : BuffersAux.Bounded (stepped r x.1) := BuffersAux.bounded_serve hbpoll (.step r.mounted r.ctx) trivial
  have hconsume := RepliesAux.talk_serve (.consume r.count) hstep hbstep (fun h => nomatch h.2) hlive
  refine ⟨_, ?_, hconsume⟩
  show x.2 ++ ([] ++ ([] ++ ((stepped r x.1).output.take r.count ++ []))) = _
  rw [heq]
  simp only [List.append_nil, List.nil_append, List.append_assoc]
  rfl

/-- A whole request at a packet is answered, whatever the rounds bring. -/
theorem answer_inevitable (hgrow : ChunksGrow F) {x : Sftp F × List UInt8} (hk : Kept x.1) (hp : x.1.AtPacket)
    (hc : Complete x.1.input) :
    Inevitable turn (fun y => y.1.server.fatal = true ∨
      y.1.AtPacket ∧ y.1.input = x.1.input.drop (4 + u32At x.1.input 0) ∧ Kept y.1 ∧
        ∃ p, y.2 = x.2 ++ p ∧ Answers (requestAt x.1.input) p) x := by
  have hlong : 5 ≤ x.1.input.length := by
    obtain ⟨⟨_, _⟩, _⟩ := hc
    omega
  have hno (r : Round) : x.1.beginPoll.AtPacket ∧ (x.1.beginPoll.step r.mounted r.ctx).2 = true → ¬Wraps x.1.input :=
    fun h => by
      have hmax : MAX_INPUT = 10240 := rfl
      have hinput := hk.bounded.input
      have hlen := hc.1.2
      refine not_wraps_of_complete (s := x.1.beginPoll) [] (by rw [List.append_nil]; exact hc) ?_ h.1 h.2
      show 4 + u32At x.1.input 0 < 2 ^ 32
      omega
  have hpoll : x.1.beginPoll.AtPacket := ⟨hp.alive, hp.drained, hp.resize, hp.readStream, hp.writeStream, hp.skip⟩
  have howed : owed x.1 = 0 := by
    rw [owed, hp.writeStream, hp.skip]
    rfl
  have htalk : RepliesAux.Talk x.1 [] [] (requests x.1.input) := by
    refine ⟨[], [], ?_, .idle hp.writeStream hp.resize, fun due hdue => ⟨[], .nil, ?_⟩⟩
    · rw [howed, List.append_nil x.1.input, List.drop_zero]
      rfl
    · rw [RepliesAux.due_of_none hp.readStream, List.length_eq_zero_iff] at hdue
      rw [hdue, hp.drained]
      rfl
  refine .later fun r => ?_
  by_cases hfatal : (turn r x).1.server.fatal = true
  · exact .now (.inl hfatal)
  rw [Bool.not_eq_true] at hfatal
  have hprogress : (x.1.beginPoll.step r.mounted r.ctx).2 = true := by
    refine (progress (s := x.1.beginPoll) hp.alive hp.drained rfl (.inr (.inl ⟨?_, ?_⟩))).resolve_right ?_
    · show owed x.1 ≤ _
      rw [howed]
      exact Nat.zero_le _
    · show Complete (x.1.input.drop (owed x.1))
      rw [howed, List.drop_zero]
      exact hc
    · intro hdead
      rw [show (turn r x).1.server.fatal = _ from hdead] at hfatal
      cases hfatal
  have hahead : Ahead (x.1.input.drop (4 + u32At x.1.input 0)) (turn r x).1 := by
    refine (ahead_start hpoll hprogress (hno r ⟨hpoll, hprogress⟩) hc.1.2).resolve_left ?_
    intro hdead
    rw [show (turn r x).1.server.fatal = _ from hdead] at hfatal
    cases hfatal
  have hstart := talk_turn x.2 r hk (hno r) ⟨[], (List.append_nil _).symm, htalk⟩ hfatal
  refine (packet_inevitable hgrow (fun y => ∃ taken, y.2 = x.2 ++ taken ∧ RepliesAux.Talk y.1 [] taken (requests x.1.input))
    (fun y r hk hp hj hlive => talk_turn x.2 r hk (fun h => absurd (atPacket_of_beginPoll h.1) hp) hj hlive)
    (kept_turn r hk) hahead hstart).mono ?_
  rintro y (hdead | ⟨hp', hinput, hk', taken, heq, answered, waits, hall, hwaits, hreplied⟩)
  · exact .inl hdead
  refine .inr ⟨hp', hinput, hk', taken, heq, ?_⟩
  have howed' : owed y.1 = 0 := by
    rw [owed, hp'.writeStream, hp'.skip]
    rfl
  have hidle : waits = [] := by
    cases hwaits with
    | idle => rfl
    | write _ _ hw => rw [hp'.writeStream] at hw; cases hw
    | resize _ _ hz => rw [hp'.resize] at hz; cases hz
  rw [howed', List.drop_zero, List.append_nil, hinput, hidle, List.append_nil, RepliesAux.requests_of_length hlong,
    ← List.singleton_append] at hall
  have hanswered : answered = [requestAt x.1.input] := (List.append_cancel_right hall).symm
  obtain ⟨replies, hreplies, hflat⟩ := hreplied [] (RepliesAux.due_of_none hp'.readStream).symm
  rw [hanswered] at hreplies
  cases hreplies with
  | cons hp hnil =>
    cases hnil
    rw [hp'.drained, List.append_nil, List.append_nil, List.flatten_singleton] at hflat
    rw [hflat]
    exact hp

/-- Whole requests at a packet are answered in their order. -/
theorem answers_inevitable (hgrow : ChunksGrow F) {bytes rest : List UInt8} {rs : List Request} (h : Whole bytes rs rest)
    {x : Sftp F × List UInt8} (hk : Kept x.1) (hp : x.1.AtPacket) (hinput : x.1.input = bytes) :
    Inevitable turn (fun y => y.1.server.fatal = true ∨
      y.1.AtPacket ∧ y.1.input = rest ∧ ∃ replies, y.2 = x.2 ++ replies.flatten ∧ List.Forall₂ Answers rs replies) x := by
  induction h generalizing x with
  | nil bytes => exact .now (.inr ⟨hp, hinput, [], (List.append_nil _).symm, .nil⟩)
  | cons hc hrest ih =>
    subst hinput
    refine (answer_inevitable hgrow hk hp hc).trans ?_
    rintro y (hdead | ⟨hp', hinput, hk', p, hy, hanswer⟩)
    · exact .now (.inl hdead)
    refine (ih hk' hp' hinput).mono ?_
    rintro z (hdead | ⟨hp'', hinput', replies, hz, hreplies⟩)
    · exact .inl hdead
    · refine .inr ⟨hp'', hinput', p :: replies, ?_, .cons hanswer hreplies⟩
      rw [hz, hy, List.flatten_cons, List.append_assoc]

end ProgressAux

/-- In every reachable state that is not fatal: with something to work on, drained output and a fresh card budget a step does
something; and whatever rounds follow, after finitely many of them the whole requests in the input are answered, in order, unless
the session is given up. -/
theorem never_stalls (hgrow : ChunksGrow F) (volume : V) (es : List Event)
    (hfits : Mealy.Along serve Fits (new (F := F) volume) es) :
    let s := Mealy.final serve (new (F := F) volume) es
    s.server.fatal = false →
      (s.output = [] → s.cardBudget = true → s.Available Complete → ∀ mounted ctx, s.Progresses mounted ctx) ∧
      ∀ rs rest, owed s ≤ s.input.length → Whole (s.input.drop (owed s)) rs rest → ∀ f : ℕ → Round, ∃ n,
        let t := Mealy.final serve s (rounds f n)
        t.server.fatal = true ∨ t.AtPacket ∧ t.input = rest ∧ ∃ before replies,
          takenIn (Mealy.outputs serve s (rounds f n)) = before ++ replies.flatten ∧ List.Forall₂ Answers rs replies := by
  intro s hlive
  refine ⟨fun hout hbudget h mounted ctx => ProgressAux.progress hlive hout hbudget h, fun rs rest hle hwhole f => ?_⟩
  have hk : ProgressAux.Kept s := Mealy.invariant ProgressAux.Kept (fun _ e hk hfits => ProgressAux.kept_serve hk e hfits)
    ⟨⟨Nat.zero_le _, Nat.zero_le _, nofun⟩, nofun⟩ hfits
  have hfirst := ProgressAux.packet_inevitable (x := (s, [])) hgrow (fun _ => True) (fun _ _ _ _ _ _ => trivial) hk
    ⟨hle, rfl⟩ trivial
  have hall : Inevitable ProgressAux.turn (fun y : Sftp F × List UInt8 => y.1.server.fatal = true ∨
      y.1.AtPacket ∧ y.1.input = rest ∧ ∃ before replies, y.2 = before ++ replies.flatten ∧ List.Forall₂ Answers rs replies)
      (s, []) := by
    refine hfirst.trans ?_
    rintro y (hdead | ⟨hp, hinput, hk', _⟩)
    · exact .now (.inl hdead)
    refine (ProgressAux.answers_inevitable hgrow hwhole hk' hp hinput).mono ?_
    rintro z (hdead | ⟨hp', hinput', replies, hz, hreplies⟩)
    · exact .inl hdead
    · exact .inr ⟨hp', hinput', _, replies, hz, hreplies⟩
  obtain ⟨n, hn⟩ := hall.met f
  rw [ProgressAux.along_turn] at hn
  exact ⟨n, hn⟩

namespace ProgressAux

/-- A writer of the volume in memory stands at the offset it was opened at, in the file of its entry. -/
theorem ram_opens {entry : FileEntry Nat} {offset : Nat} {append : Option Ram.Place} {v v' : Ram.Volume} {place : Ram.Place}
    (h : ChunkAux.Opens (F := Ram.fat) entry offset append v place v') :
    v' = v ∧ place.id = entry.identity ∧ place.offset = offset := by
  unfold ChunkAux.Opens at h
  split at h
  · rename_i hend
    split at h
    · rename_i cursor
      change Ram.resumeAppend entry cursor v = _ at h
      unfold Ram.resumeAppend Ram.resume at h
      split at h
      · rename_i hplace
        split at h
        · rename_i hcursor
          injection h with h1 h2
          exact ⟨h2.symm, h1 ▸ hcursor.1, h1 ▸ hplace.trans hend.symm⟩
        · nomatch h
      · nomatch h
    · injection h with h1 h2
      exact ⟨h2.symm, by rw [← h1], by rw [← h1]; exact hend.symm⟩
  · injection h with h1 h2
    exact ⟨h2.symm, by rw [← h1], by rw [← h1]⟩

theorem length_splice (content : List UInt8) (offset : Nat) (data : List UInt8) :
    offset + data.length ≤ (Ram.splice content offset data).length := by
  unfold Ram.splice
  simp only [List.length_append, List.length_take, List.length_replicate, List.length_drop]
  omega

/-- A search of the volume in memory finds by name and changes nothing. -/
theorem ram_find {parent : List Str} {leaf : Str} {v v' : Ram.Volume} {entry : FileEntry Nat}
    (h : Ram.fat.findIn parent leaf v = .ok (some entry) v') : v' = v ∧ ∃ r, v.find leaf = some r ∧ r.entry = entry := by
  obtain ⟨dir, v₁, hdir, hfind⟩ := bind_eq_ok h
  have hroot : v₁ = v := by
    cases parent with
    | nil =>
      injection hdir with _ h2
      exact h2.symm
    | cons component rest =>
      obtain ⟨_, _, _, hopen⟩ := bind_eq_ok hdir
      obtain ⟨_, _, hthrow, _⟩ := bind_eq_ok hopen
      nomatch hthrow
  subst hroot
  injection hfind with h1 h2
  obtain ⟨r, hr, hentry⟩ := Option.map_eq_some_iff.mp h1
  exact ⟨h2.symm, r, hr, hentry⟩

/-- A write to the file of a name reaches past what it wrote. -/
theorem ram_write {place place' : Ram.Place} {data : List UInt8} {n : Nat} {v v' : Ram.Volume}
    (h : Ram.write place data v = .ok (n, place') v') {leaf : Str} {r : Ram.Record} (hr : v.find leaf = some r)
    (hid : r.id = place.id) : ∃ r', v'.find leaf = some r' ∧ place.offset + data.length ≤ r'.content.1.length := by
  unfold Ram.write at h
  split at h
  · nomatch h
  rename_i target htarget
  dsimp only at h
  split at h
  · rename_i hshort
    injection h with _ hv
    refine ⟨r.withContent (Ram.splice target.content.1 place.offset data), ?_, ?_⟩
    · have hmap : v'.find leaf = (v.find leaf).map fun r =>
          if r.id = place.id then r.withContent (Ram.splice target.content.1 place.offset data) else r := by
        rw [← hv]
        exact v.find_change (fun r => r.name_withContent _) leaf
      rw [hmap, hr, Option.map_some, if_pos hid]
    · rw [Ram.Record.withContent, dif_pos hshort]
      exact length_splice _ _ _
  · nomatch h

/-- Files of the volume in memory grow by what is written to them. -/
theorem ram_grows : ChunksGrow Ram.fat := by
  intro offset data file v file' v' h entry' v'' hfind'
  obtain ⟨entry, found, hfind, _, _, _, writer, opened, hopens, writer', filled, hwrite, hfinish, _⟩ := writeChunk_ok h
  obtain ⟨rfl, r, hr, rfl⟩ := ram_find hfind
  obtain ⟨rfl, hid, rfl⟩ := ram_opens hopens
  injection hfinish with _ hfilled
  subst hfilled
  obtain ⟨r', hr', hlen⟩ := ram_write hwrite hr hid.symm
  obtain ⟨_, r'', hr'', rfl⟩ := ram_find hfind'
  rw [hr'] at hr''
  injection hr'' with hr''
  rw [← hr'']
  exact hlen

end ProgressAux

/-- A volume with an empty file `a`. -/
def oneFile : Ram.Volume :=
  { files := [{ id := 0, name := ⟨"a".toList, Ram.length_a_le⟩, content := ⟨[], Ram.length_nil_lt⟩ }], nextId := 1 }

/-- SETSTAT of `/a` to 20000 bytes. -/
def growRequest : List UInt8 :=
  [0, 0, 0, 23, 9, 0, 0, 0, 7, 0, 0, 0, 2, 47, 97, 0, 0, 0, 1, 0, 0, 0, 0, 0, 0, 0x4e, 0x20]

/-- The SETSTAT is answered after some rounds. -/
theorem never_stalls_grow :
    let s := Mealy.final serve (new (F := Ram.fat) oneFile) [.feed growRequest]
    s.Progresses true {} ∧ ∀ f : ℕ → Round, ∃ n,
      let t := Mealy.final serve s (rounds f n)
      t.server.fatal = true ∨ t.AtPacket ∧ t.input = [] ∧ ∃ before replies,
        takenIn (Mealy.outputs serve s (rounds f n)) = before ++ replies.flatten ∧
          List.Forall₂ Answers [requestAt growRequest] replies := by
  have hcomplete : Complete growRequest := by decide +kernel
  have hall := never_stalls ProgressAux.ram_grows oneFile [.feed growRequest] ⟨show 27 ≤ MAX_INPUT - 0 by decide, trivial⟩ rfl
  exact ⟨hall.1 rfl rfl (.inr (.inl ⟨Nat.zero_le _, hcomplete⟩)) true {},
    fun f => hall.2 _ _ (Nat.zero_le _) (.cons hcomplete (.nil _)) f⟩

/-- A WRITE of one byte. -/
def tinyWrite : List UInt8 := [0, 0, 0, 1, 6]

/-- At a WRITE that is whole to its declared length and shorter than its header, a step waits for bytes after the packet. -/
theorem stalls_at_tiny_write :
    ¬∀ es : List Event, Mealy.Along serve Fits (new (F := Ram.fat) {}) es →
      let s := Mealy.final serve (new (F := Ram.fat) {}) es
      s.server.fatal = false → s.output = [] → s.cardBudget = true → s.Available Declared →
        ∀ mounted ctx, s.Progresses mounted ctx := by
  intro h
  have hprogress := h [.feed tinyWrite] ⟨show 5 ≤ MAX_INPUT - 0 by decide, trivial⟩ rfl rfl rfl
    (.inr (.inl ⟨Nat.zero_le _, by decide, by decide⟩)) true {}
  revert hprogress
  unfold Progresses
  decide +kernel

end Sftp

end Ratputer
