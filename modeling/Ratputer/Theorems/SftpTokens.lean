import Ratputer.Lemmas.SftpSteps
import Ratputer.Ram

/-!
# SFTP handle tokens are never confused

Next to the session runs a record of what the client was told: the token of every HANDLE reply to OPEN or OPENDIR, the slot
that the table filled for it, if any, and whether a CLOSE with it was answered OK. As long as fewer than `2^24` HANDLE replies were
sent each of them filled a slot, and the server accepts exactly the tokens on record that are not closed.
-/

namespace Ratputer

open Octets

variable {V : Type} {F : Fat V}

/-- A handle that a client was told of. -/
structure Issued where
  token : List UInt8
  /-- The slot that the handle was put into. -/
  slot : Option Slot
  closed : Bool
  deriving Repr, DecidableEq

/-- The slot that a step filled. -/
def filledSlot (s s' : Server F) : Option Slot :=
  (List.finRange MAX_HANDLES).find? fun slot => (s.handles slot).isNone && (s'.handles slot).isSome

namespace Sftp

/-- The next packet is looked at by a step. -/
def atPacket (s : Sftp F) : Bool :=
  !s.server.fatal && s.server.out.isEmpty && s.server.resize.isNone && s.server.readStream.isNone &&
    s.server.writeStream.isNone && s.skip = 0

/-- What one event adds to the record. Every HANDLE reply to OPEN or OPENDIR is on record, whether a slot was filled or not. -/
def record (history : List Issued) (s : Sftp F) (r : Sftp F × Seen) : List Issued :=
  if s.atPacket && r.2.progress then
    if (kindOf s.input = FXP_OPEN ∨ kindOf s.input = FXP_OPENDIR) ∧ kindOf r.1.output = FXP_HANDLE then
      { token := (r.1.output.drop 13).take 4, slot := filledSlot s.server r.1.server, closed := false } :: history
    else if kindOf s.input = FXP_CLOSE ∧ kindOf r.1.output = FXP_STATUS ∧ u32At r.1.output 9 = FX_OK then
      history.map fun h =>
        if h.token = (s.input.drop 13).take (u32At s.input 9) then { h with closed := true } else h
    else history
  else history

/-- The session with the record of its handles. -/
def traced (x : Sftp F × List Issued) (e : Event) : (Sftp F × List Issued) × Seen :=
  let r := x.1.serve e
  ((r.1, record x.2 x.1 r), r.2)

namespace TokensAux

theorem atPacket_iff (s : Sftp F) : s.atPacket = true ↔ s.AtPacket := by
  simp only [atPacket, Bool.and_eq_true, Bool.not_eq_true', List.isEmpty_iff, Option.isNone_iff_eq_none, decide_eq_true_eq]
  constructor
  · rintro ⟨⟨⟨⟨⟨h1, h2⟩, h3⟩, h4⟩, h5⟩, h6⟩
    exact ⟨h1, h2, h3, h4, h5, h6⟩
  · rintro ⟨h1, h2, h3, h4, h5, h6⟩
    exact ⟨⟨⟨⟨⟨h1, h2⟩, h3⟩, h4⟩, h5⟩, h6⟩

/-! ## Token numbers -/

/-- The number of a token: the handle's number above its slot. -/
theorem token_number (g : Nat) (slot : Slot) : g <<< 8 ||| slot.val = g * 256 + slot.val := by
  have hslot : slot.val < 2 ^ 8 := lt_trans slot.isLt (by decide)
  rw [← Nat.shiftLeft_add_eq_or_of_lt hslot, Nat.shiftLeft_eq]

theorem token_slot (g : Nat) (slot : Slot) : (g <<< 8 ||| slot.val) &&& 0xff = slot.val := by
  have hslot : slot.val < 8 := slot.isLt
  rw [token_number, show 0xff = 2 ^ 8 - 1 from rfl, Nat.and_two_pow_sub_one_eq_mod]
  omega

theorem next_generation {g : Nat} (h : g + 1 < 2 ^ 24) : (g + 1) &&& 0x00ffffff = g + 1 := by
  rw [show 0x00ffffff = 2 ^ 24 - 1 from rfl, Nat.and_two_pow_sub_one_eq_mod, Nat.mod_eq_of_lt h]

/-- The tokens of the record are numbered from its end, each above its slot. -/
inductive Numbered : List Issued → Prop
  | nil : Numbered []
  | cons {h : Issued} {rest : List Issued} {slot : Slot} (hslot : h.slot = some slot)
      (hh : h.token = putU32 ((rest.length + 1) <<< 8 ||| slot.val)) (hrest : Numbered rest) : Numbered (h :: rest)

/-- Every handle of a record has a slot, and its token a number within the record's length above it. -/
theorem Numbered.token {history : List Issued} (hn : Numbered history) {h : Issued} (hmem : h ∈ history) :
    ∃ g slot, g ≤ history.length ∧ h.slot = some slot ∧ h.token = putU32 (g <<< 8 ||| slot.val) := by
  induction hn with
  | nil => nomatch hmem
  | @cons h' rest slot hslot hh _ ih =>
    rcases List.mem_cons.mp hmem with rfl | hmem
    · exact ⟨rest.length + 1, slot, le_refl _, hslot, hh⟩
    · obtain ⟨g, slot, h1, h2⟩ := ih hmem
      exact ⟨g, slot, by rw [List.length_cons]; omega, h2⟩

theorem beNat_putU32 {g : Nat} (h : g < 2 ^ 24) (slot : Slot) :
    beNat (putU32 (g <<< 8 ||| slot.val)) = g <<< 8 ||| slot.val := by
  have hslot : slot.val < 8 := slot.isLt
  refine beNat_beBytes ?_
  rw [token_number]
  omega

/-- Numbered tokens are distinct. -/
theorem Numbered.nodup {history : List Issued} (hn : Numbered history) (hlen : history.length < 2 ^ 24) :
    (history.map Issued.token).Nodup := by
  induction hn with
  | nil => exact List.nodup_nil
  | @cons h rest slot _ hh hrest ih =>
    rw [List.length_cons] at hlen
    refine List.nodup_cons.mpr ⟨fun hmem => ?_, ih (by omega)⟩
    obtain ⟨h', hmem', htoken⟩ := List.mem_map.mp hmem
    obtain ⟨g, slot', hg, _, hh'⟩ := hrest.token hmem'
    have heq := congrArg beNat (hh'.symm.trans (htoken.trans hh))
    rw [beNat_putU32 (by omega), beNat_putU32 (by omega), token_number, token_number] at heq
    have h1 : slot.val < 8 := slot.isLt
    have h2 : slot'.val < 8 := slot'.isLt
    omega

/-! ## The table and the record -/

/-- The handle table holds what the record says. -/
structure Recorded (s : Server F) (history : List Issued) : Prop where
  numbered : Numbered history
  generation : s.generation = history.length
  short : history.length < 2 ^ 24
  slots : ∀ slot, (s.handles slot).isNone = false ↔ ∃ h ∈ history, h.slot = some slot ∧ h.closed = false
  tokens : ∀ h ∈ history, ∀ slot, h.slot = some slot → h.closed = false → s.tokens slot = beNat h.token

variable {s s' : Server F} {history : List Issued}

theorem Recorded.length_token (hr : Recorded s history) {h : Issued} (hmem : h ∈ history) : h.token.length = 4 := by
  obtain ⟨g, _, _, _, hh⟩ := hr.numbered.token hmem
  rw [hh, length_putU32]

theorem Recorded.token_slot (hr : Recorded s history) {h : Issued} (hmem : h ∈ history) {slot : Slot} (hslot : h.slot = some slot) :
    beNat h.token &&& 0xff = slot.val := by
  obtain ⟨g, slot', hg, hslot', hh⟩ := hr.numbered.token hmem
  have heq : slot' = slot := Option.some.inj (hslot'.symm.trans hslot)
  have hshort := hr.short
  rw [hh, beNat_putU32 (by omega), TokensAux.token_slot, heq]

/-- Tokens of four bytes with one number are one token. -/
theorem token_ext {t t' : List UInt8} (h : t.length = 4) (h' : t'.length = 4) (heq : beNat t = beNat t') : t = t' := by
  rw [← beBytes_beNat_of_length h, ← beBytes_beNat_of_length h', heq]

/-- The server accepts exactly the tokens on record that are not closed, each for its slot. -/
theorem Recorded.slotOf_iff (hr : Recorded s history) (t : List UInt8) (slot : Slot) :
    s.slotOf t = .ok slot ↔ ∃ h ∈ history, h.token = t ∧ h.slot = some slot ∧ h.closed = false := by
  rw [Server.slotOf_iff]
  constructor
  · rintro ⟨hlen, -, hopen, htoken⟩
    obtain ⟨i, hmem, hslot, hclosed⟩ := (hr.slots slot).mp hopen
    refine ⟨i, hmem, ?_, hslot, hclosed⟩
    exact token_ext (hr.length_token hmem) hlen ((hr.tokens i hmem slot hslot hclosed).symm.trans htoken)
  · rintro ⟨h, hmem, rfl, hslot, hclosed⟩
    exact ⟨hr.length_token hmem, hr.token_slot hmem hslot, (hr.slots slot).mpr ⟨h, hmem, hslot, hclosed⟩,
      hr.tokens h hmem slot hslot hclosed⟩

/-- Nothing of the table's occupancy has changed. -/
theorem Recorded.congr (hr : Recorded s history) (hg : s'.generation = s.generation) (ht : s'.tokens = s.tokens)
    (hh : ∀ slot, (s'.handles slot).isNone = (s.handles slot).isNone) : Recorded s' history :=
  ⟨hr.numbered, hg.trans hr.generation, hr.short, fun slot => by rw [hh]; exact hr.slots slot,
    fun h hmem slot hslot hc => by rw [ht]; exact hr.tokens h hmem slot hslot hc⟩

/-- A handle put into a free slot goes on record under a new token. -/
theorem Recorded.insert (hr : Recorded s history) {slot : Slot} (hfree : s.freeSlot = some slot) (handle : Handle F)
    (hshort : history.length + 1 < 2 ^ 24) :
    Recorded (s.insert slot handle)
      ({ token := putU32 ((s.insert slot handle).tokens slot), slot := some slot, closed := false } :: history) := by
  have hnone : (s.handles slot).isNone = true := List.find?_some (p := fun i => (s.handles i).isNone) hfree
  have hgen : (s.generation + 1) &&& 0x00ffffff = history.length + 1 := by
    rw [hr.generation, next_generation hshort]
  have htoken : (s.insert slot handle).tokens slot = (history.length + 1) <<< 8 ||| slot.val := by
    simp only [Server.insert, Function.update_self, hgen]
  have hother : ∀ h ∈ history, h.closed = false → h.slot ≠ some slot := by
    intro h hmem hclosed heq
    have hsome := (hr.slots slot).mpr ⟨h, hmem, heq, hclosed⟩
    rw [hnone] at hsome
    cases hsome
  refine ⟨.cons rfl (by rw [htoken]) hr.numbered, hgen, hshort, fun i => ?_, fun h hmem i hi hclosed => ?_⟩
  · by_cases hi : i = slot
    · subst hi
      simp [Server.insert]
    · simp only [Server.insert, Function.update_of_ne hi, hr.slots i, List.mem_cons, exists_eq_or_imp]
      simp [Ne.symm hi]
  · rcases List.mem_cons.mp hmem with rfl | hmem
    · cases hi
      show (s.insert slot handle).tokens slot = beNat (putU32 _)
      rw [htoken, beNat_putU32 hshort]
    · have hne : i ≠ slot := fun heq => hother h hmem hclosed (heq ▸ hi)
      show Function.update _ _ _ i = _
      rw [Function.update_of_ne hne]
      exact hr.tokens h hmem i hi hclosed

/-- The record after a CLOSE with the token `t`. -/
def closeToken (t : List UInt8) (history : List Issued) : List Issued :=
  history.map fun h => if h.token = t then { h with closed := true } else h

theorem Numbered.after_close {history : List Issued} (hn : Numbered history) (t : List UInt8) :
    Numbered (closeToken t history) := by
  induction hn with
  | nil => exact .nil
  | @cons h rest slot hslot hh _ ih =>
    have hslot' : (if h.token = t then { h with closed := true } else h).slot = some slot := by
      split <;> exact hslot
    refine .cons hslot' ?_ ih
    rw [List.length_map]
    dsimp only
    split <;> exact hh

/-- Closing a handle by its token closes its entry on record. -/
theorem Recorded.close (hr : Recorded s history) {slot : Slot} {t : List UInt8} (ht : s.slotOf t = .ok slot) :
    Recorded { s with handles := Function.update s.handles slot none } (closeToken t history) := by
  obtain ⟨g, hg, rfl, hgslot, hclosed⟩ := (hr.slotOf_iff t slot).mp ht
  -- the open entries of the record are those of other tokens
  have hopen (h : Issued) : h ∈ closeToken g.token history ∧ h.closed = false ↔
      h ∈ history ∧ h.closed = false ∧ h.token ≠ g.token := by
    rw [closeToken, List.mem_map]
    constructor
    · rintro ⟨⟨h', hmem, rfl⟩, hc⟩
      split at hc
      · nomatch hc
      · rename_i hne
        simpa [hne] using ⟨hmem, hc⟩
    · rintro ⟨hmem, hc, hne⟩
      exact ⟨⟨h, hmem, by rw [if_neg hne]⟩, hc⟩
  have hslot (h : Issued) (hmem : h ∈ history) (hc : h.closed = false) {i : Slot} (hi : h.slot = some i) :
      h.token = g.token ↔ i = slot := by
    constructor
    · intro heq
      exact Fin.ext ((hr.token_slot hmem hi).symm.trans (heq ▸ hr.token_slot hg hgslot))
    · rintro rfl
      refine token_ext (hr.length_token hmem) (hr.length_token hg) ?_
      rw [← hr.tokens h hmem i hi hc, ← hr.tokens g hg i hgslot hclosed]
  refine ⟨hr.numbered.after_close _, ?_, ?_, fun i => ?_, fun h hmem i hi hc => ?_⟩
  · rw [closeToken, List.length_map]
    exact hr.generation
  · rw [closeToken, List.length_map]
    exact hr.short
  · constructor
    · intro hi
      have hne : i ≠ slot := by
        rintro rfl
        simp at hi
      simp only [Function.update_of_ne hne] at hi
      obtain ⟨h, hmem, hin, hc⟩ := (hr.slots i).mp hi
      obtain ⟨h1, h2⟩ := (hopen h).mpr ⟨hmem, hc, fun heq => hne ((hslot h hmem hc hin).mp heq)⟩
      exact ⟨h, h1, hin, h2⟩
    · rintro ⟨h, hmem, hin, hc⟩
      obtain ⟨h1, h2, h3⟩ := (hopen h).mp ⟨hmem, hc⟩
      have hne : i ≠ slot := fun heq => h3 ((hslot h h1 h2 hin).mpr heq)
      simp only [Function.update_of_ne hne]
      exact (hr.slots i).mpr ⟨h, h1, hin, h2⟩
  · obtain ⟨h1, h2, _⟩ := (hopen h).mp ⟨hmem, hc⟩
    exact hr.tokens h h1 i hi h2

/-! ## Replies -/

/-- The only reply of type HANDLE is that of an opened handle. -/
theorem not_handleOf_reply {id : Nat} {p : List UInt8} (h : IsReply id p) : kindOf p ≠ FXP_HANDLE := by
  obtain ⟨kind, body, hkind, rfl, _⟩ := h
  have htypes : ∀ kind ∈ REPLY_TYPES, kind < 256 ∧ kind ≠ FXP_HANDLE := by decide
  rw [kindOf_packet (htypes kind hkind).1]
  exact (htypes kind hkind).2

theorem slotOf_error {s : Server F} {token : List UInt8} {status : Status} (h : s.slotOf token = .error status) :
    status = .failure "Invalid handle" := by
  unfold Server.slotOf at h
  dsimp only at h
  repeat' split at h
  all_goals first | (injection h with h; exact h.symm) | nomatch h

/-- CLOSE closes the handle of a good token, or is refused and changes nothing. -/
theorem dispatch_close (w : World F) (body : List UInt8) (hlen : 4 ≤ body.length) (mounted : Bool) (ctx : Ctx) :
    (∃ token rest slot, Reader.string (body.drop 4) = some (token, rest) ∧ w.server.slotOf token = .ok slot ∧
        w.dispatch FXP_CLOSE body mounted ctx = World.emit
          { w with server := { w.server with handles := Function.update w.server.handles slot none } }
          (statusPacket (u32At body 0) ⟨FX_OK, "OK"⟩)) ∨
      ∃ status, status.code ≠ FX_OK ∧ status.code < 2 ^ 32 ∧
        w.dispatch FXP_CLOSE body mounted ctx = w.emit (statusPacket (u32At body 0) status) := by
  have hdispatch : w.dispatch FXP_CLOSE body mounted ctx =
      w.answer (u32At body 0) (if mounted then close (u32At body 0) (body.drop 4)
        else throw (.failure "SD card is in use by USB DISK")) := by
    rw [World.dispatch, if_neg (by decide), reader_u32_eq hlen]
    cases mounted <;> rfl
  rw [hdispatch]
  cases mounted with
  | false => exact .inr ⟨.failure "SD card is in use by USB DISK", by decide, by decide, rfl⟩
  | true =>
    cases hs : Reader.string (body.drop 4) with
    | none =>
      refine .inr ⟨.badMessage, by decide, by decide, ?_⟩
      have hclose : close (F := F) (u32At body 0) (body.drop 4) w = .error .badMessage w := by
        show EStateM.bind (parse Reader.string (body.drop 4)) _ w = _
        rw [parse, hs]
        rfl
      rw [if_pos rfl, World.answer, hclose]
    | some r =>
      obtain ⟨token, rest⟩ := r
      have hclose : close (F := F) (u32At body 0) (body.drop 4) w =
          (do
            let slot ← slotOf token
            update fun s => { s with handles := Function.update s.handles slot none }
            ok (u32At body 0) : SftpM F Unit) w := by
        show EStateM.bind (parse Reader.string (body.drop 4)) _ w = _
        rw [parse, hs]
        rfl
      rw [if_pos rfl, World.answer, hclose]
      cases ht : w.server.slotOf token with
      | error status =>
        rw [slotOf_error ht] at ht
        refine .inr ⟨.failure "Invalid handle", by decide, by decide, ?_⟩
        have hslot : slotOf (F := F) token w = .error (.failure "Invalid handle") w := by
          show check (w.server.slotOf token) w = _
          rw [ht]
          rfl
        simp only [bind, EStateM.bind, hslot]
      | ok slot =>
        refine .inl ⟨token, rest, slot, rfl, ht, ?_⟩
        have hslot : slotOf (F := F) token w = .ok slot w := by
          show check (w.server.slotOf token) w = _
          rw [ht]
          rfl
        simp only [bind, EStateM.bind, hslot]
        rfl

/-! ## Steps -/

variable {x : Sftp F}

/-- A step that looks at no packet, or does nothing, leaves the record alone. -/
theorem record_idle {r : Sftp F × Seen} (h : ¬(x.AtPacket ∧ r.2.progress = true)) : record history x r = history := by
  rw [record, if_neg]
  rw [Bool.and_eq_true, atPacket_iff]
  exact h

/-- A reply that is not HANDLE opens nothing. -/
theorem record_of_open {r : Sftp F × Seen} (hkind : kindOf x.input = FXP_OPEN ∨ kindOf x.input = FXP_OPENDIR)
    (h : kindOf r.1.output ≠ FXP_HANDLE) : record history x r = history := by
  rw [record]
  split
  · rw [if_neg (fun hc => h hc.2), if_neg]
    rintro ⟨hclose, _⟩
    rcases hkind with hk | hk
    · rw [hk] at hclose
      revert hclose
      decide
    · rw [hk] at hclose
      revert hclose
      decide
  · rfl

/-- Requests of other types open and close nothing. -/
theorem record_of_other {r : Sftp F × Seen} (hkind : ¬(kindOf x.input = FXP_OPEN ∨ kindOf x.input = FXP_OPENDIR))
    (h : kindOf x.input = FXP_CLOSE → ¬(kindOf r.1.output = FXP_STATUS ∧ u32At r.1.output 9 = FX_OK)) :
    record history x r = history := by
  rw [record]
  split
  · rw [if_neg (fun hc => hkind hc.1), if_neg (fun hc => h hc.1 hc.2)]
  · rfl

/-- The slot that an opened handle fills. -/
theorem filledSlot_eq {slot : Slot} {handle : Handle F} (hfree : s.freeSlot = some slot)
    (h : ∀ i, (s'.handles i).isNone = ((s.insert slot handle).handles i).isNone) : filledSlot s s' = some slot := by
  have hnone : (s.handles slot).isNone = true := List.find?_some (p := fun i => (s.handles i).isNone) hfree
  have hpred : (fun i => (s.handles i).isNone && (s'.handles i).isSome) = fun i => decide (i = slot) := by
    funext i
    rw [← Option.not_isNone, h i]
    by_cases hi : i = slot
    · subst hi
      simp [Server.insert, hnone]
    · simp [Server.insert, hi]
  rw [filledSlot, hpred]
  cases hfind : (List.finRange MAX_HANDLES).find? fun i => decide (i = slot) with
  | none => exact absurd (decide_eq_true rfl) (List.find?_eq_none.mp hfind slot (List.mem_finRange slot))
  | some i => rw [of_decide_eq_true (List.find?_some (p := fun i => decide (i = slot)) hfind)]

/-- The token of a HANDLE reply. -/
theorem token_of_handle (id token : Nat) :
    ((packet FXP_HANDLE (putU32 id ++ putString (putU32 token))).drop 13).take 4 = putU32 token := by
  have hsplit : packet FXP_HANDLE (putU32 id ++ putString (putU32 token)) =
      (putU32 13 ++ UInt8.ofNat FXP_HANDLE :: (putU32 id ++ putU32 4)) ++ putU32 token := by
    simp [packet, putString]
  rw [hsplit, List.drop_left' (by simp), List.take_of_length_le (by simp)]

/-- What a complete OPEN or OPENDIR adds to the record is what it adds to the table. -/
theorem recorded_open (hr : Recorded x.server history) (h : x.AtPacket)
    (hkind : kindOf x.input = FXP_OPEN ∨ kindOf x.input = FXP_OPENDIR) (hle : u32At x.input 0 ≤ MAX_REQUEST)
    (mounted : Bool) (ctx : Ctx)
    (hshort : (record history x (x.dispatched mounted ctx, { progress := true })).length < 2 ^ 24) :
    Recorded (x.dispatched mounted ctx).server (record history x (x.dispatched mounted ctx, { progress := true })) := by
  have hbody : ((x.input.take (4 + u32At x.input 0)).drop 5).length ≤ MAX_REQUEST := by
    rw [List.length_drop, List.length_take]
    omega
  have hnil : kindOf [] ≠ FXP_HANDLE := by decide
  have hkept {w' : World F} (heq : (x.dispatched mounted ctx).toWorld = w')
      (hg : w'.server.generation = x.server.generation) (ht : w'.server.tokens = x.server.tokens)
      (hh : ∀ slot, (w'.server.handles slot).isNone = (x.server.handles slot).isNone)
      (hk : kindOf w'.server.out ≠ FXP_HANDLE) :
      Recorded (x.dispatched mounted ctx).server (record history x (x.dispatched mounted ctx, { progress := true })) := by
    rw [record_of_open hkind (by rw [output, heq]; exact hk), heq]
    exact hr.congr hg ht hh
  rcases World.dispatch_cases (w := x.toWorld) (kindOf x.input) _ hbody mounted ctx with ⟨hinit, _⟩ | ⟨_, _, heq⟩ | ⟨_, _, hh⟩
  · exact absurd (hinit ▸ hkind) (by decide)
  · refine hkept heq rfl rfl (fun _ => rfl) ?_
    show kindOf x.server.out ≠ FXP_HANDLE
    rw [h.drained]
    exact hnil
  cases hh with
  | replied p hp hs =>
    refine hkept rfl hs.generation hs.tokens hs.open_slots ?_
    rw [dispatched, hs.out, World.emit, h.drained]
    exact not_handleOf_reply hp
  | data stream _ _ hs =>
    refine hkept rfl hs.generation hs.tokens hs.open_slots ?_
    rw [dispatched, hs.out, h.drained]
    have hdata : kindOf ([] ++ dataHeader (u32At ((x.input.take (4 + u32At x.input 0)).drop 5) 0) stream.remaining) =
        FXP_DATA := by
      have hdrop : (dataHeader (u32At ((x.input.take (4 + u32At x.input 0)).drop 5) 0) stream.remaining).drop 4 = _ :=
        List.drop_left' (length_putU32 _)
      rw [List.nil_append, kindOf, hdrop]
      rfl
    rw [hdata]
    decide
  | growing job _ _ hs =>
    refine hkept rfl hs.generation hs.tokens hs.open_slots ?_
    rw [dispatched, hs.out, h.drained]
    exact hnil
  | closed hclose => exact absurd (hclose ▸ hkind) (by decide)
  | opened _ slot handle hfree hs =>
    have hout : (x.dispatched mounted ctx).output = packet FXP_HANDLE
        (putU32 (u32At ((x.input.take (4 + u32At x.input 0)).drop 5) 0) ++
          putString (putU32 ((x.server.insert slot handle).tokens slot))) := by
      rw [output, dispatched, hs.out]
      simp [World.emit, Server.insert, h.drained]
    have hhandle : kindOf (x.dispatched mounted ctx).output = FXP_HANDLE := by
      rw [hout, kindOf_packet (by decide)]
    have hfilled : filledSlot x.server (x.dispatched mounted ctx).server = some slot := filledSlot_eq hfree hs.open_slots
    have hrecord : record history x (x.dispatched mounted ctx, { progress := true }) =
        { token := putU32 ((x.server.insert slot handle).tokens slot), slot := some slot, closed := false } :: history := by
      rw [record, if_pos (by rw [(atPacket_iff x).mpr h]; rfl), if_pos ⟨hkind, hhandle⟩, hfilled, hout,
        token_of_handle]
    rw [hrecord] at hshort ⊢
    exact (hr.insert hfree handle hshort).congr hs.generation hs.tokens hs.open_slots

/-- What a complete CLOSE changes on record is what it changes in the table. -/
theorem recorded_close (hr : Recorded x.server history) (h : x.AtPacket) (hkind : kindOf x.input = FXP_CLOSE)
    (mounted : Bool) (ctx : Ctx) :
    Recorded (x.dispatched mounted ctx).server (record history x (x.dispatched mounted ctx, { progress := true })) := by
  have hno : ¬(kindOf x.input = FXP_OPEN ∨ kindOf x.input = FXP_OPENDIR) := by
    rw [hkind]
    decide
  have hpacket : (x.atPacket && true) = true := by rw [(atPacket_iff x).mpr h]; rfl
  have hworld : (x.dispatched mounted ctx).toWorld =
      x.dispatch FXP_CLOSE ((x.input.take (4 + u32At x.input 0)).drop 5) mounted ctx := by rw [← hkind]; rfl
  generalize hb : (x.input.take (4 + u32At x.input 0)).drop 5 = body at hworld
  by_cases hshort : body.length < 4
  · have hnone : x.dispatch FXP_CLOSE body mounted ctx = x.setFatal := by
      rcases World.dispatch_cases (w := x.toWorld) FXP_CLOSE body (by have : MAX_REQUEST = 4096 := rfl; omega) mounted ctx with
        ⟨h', _⟩ | ⟨_, _, heq⟩ | ⟨_, h', _⟩
      · exact absurd h' (by decide)
      · exact heq
      · omega
    rw [record_of_other hno, hworld, hnone]
    · exact hr.congr rfl rfl fun _ => rfl
    · rintro - ⟨hstatus, -⟩
      rw [output, hworld, hnone, World.setFatal, h.drained] at hstatus
      exact absurd hstatus (by decide)
  rcases dispatch_close x.toWorld body (by omega) mounted ctx with ⟨token, rest, slot, hs, ht, heq⟩ | ⟨status, hcode, hlt, heq⟩
  · have hout : (x.dispatched mounted ctx).output = statusPacket (u32At body 0) ⟨FX_OK, "OK"⟩ := by
      rw [output, hworld, heq]
      show x.server.out ++ _ = _
      rw [h.drained, List.nil_append]
    -- the token of the request, in the input as in the body
    have htoken : token = (x.input.drop 13).take (u32At x.input 9) := by
      obtain ⟨htake, hfits⟩ := reader_string_eq hs
      generalize hpacket : x.input.take (4 + u32At x.input 0) = packet at hb
      have hinput : x.input = packet ++ x.input.drop (4 + u32At x.input 0) := by rw [← hpacket, List.take_append_drop]
      have hnumber : u32At (body.drop 4) 0 = u32At packet 9 := by simp only [← hb, u32At, List.drop_drop]
      have hbody : (body.drop 4).length = packet.length - 9 := by simp only [← hb, List.length_drop]; omega
      rw [hnumber] at htake hfits
      rw [hinput, u32At_append (by omega), List.drop_append_of_le_length (by omega),
        List.take_append_of_le_length (by rw [List.length_drop]; omega), htake, ← hb]
      simp only [List.drop_drop]
    have hrecord : record history x (x.dispatched mounted ctx, { progress := true }) = closeToken token history := by
      have hstatus : kindOf (x.dispatched mounted ctx).output = FXP_STATUS := by
        rw [hout]
        exact kindOf_packet (by decide) _
      have hok : u32At (x.dispatched mounted ctx).output 9 = FX_OK := by
        rw [hout]
        exact code_of_status _ _ (by decide)
      rw [record, if_pos hpacket, if_neg (fun hc => hno hc.1), if_pos ⟨hkind, hstatus, hok⟩, htoken, closeToken]
    rw [hrecord, hworld, heq]
    exact (hr.close ht).congr rfl rfl fun _ => rfl
  · rw [record_of_other hno, hworld, heq]
    · exact hr.congr rfl rfl fun _ => rfl
    · rintro - ⟨-, hok⟩
      rw [output, hworld, heq] at hok
      have hout : (x.emit (statusPacket (u32At body 0) status)).server.out = statusPacket (u32At body 0) status := by
        show x.server.out ++ _ = _
        rw [h.drained, List.nil_append]
      rw [hout, code_of_status _ _ hlt] at hok
      exact hcode hok

/-- The record and the table stay together in every step. -/
theorem recorded_serve (e : Event) (hr : Recorded x.server history)
    (hshort : (record history x (x.serve e)).length < 2 ^ 24) :
    Recorded (x.serve e).1.server (record history x (x.serve e)) := by
  cases e with
  | feed bytes => rw [record_idle (fun h => Bool.false_ne_true h.2)]; exact hr
  | consume count => rw [record_idle (fun h => Bool.false_ne_true h.2)]; exact hr.congr rfl rfl fun _ => rfl
  | beginPoll => rw [record_idle (fun h => Bool.false_ne_true h.2)]; exact hr
  | step mounted ctx =>
    have hserve : x.serve (.step mounted ctx) =
        ((x.step mounted ctx).1, { progress := (x.step mounted ctx).2 }) := rfl
    rw [hserve] at hshort ⊢
    have hstep := step_stepped x mounted ctx
    generalize x.step mounted ctx = r at hstep hshort ⊢
    cases hstep with
    | idle => rw [record_idle (fun h => Bool.false_ne_true h.2)]; exact hr
    | malformed count h => rw [record_idle (fun h => Bool.false_ne_true h.2)]; exact hr.congr rfl rfl fun _ => rfl
    | resize job hlive hout h =>
      rw [record_idle (fun ⟨hp, _⟩ => by rw [hp.resize] at h; nomatch h)]
      rcases World.continueResize_cases h mounted ctx with ⟨job', _, _, hs⟩ | ⟨status, _, hs⟩
      · exact hr.congr hs.generation hs.tokens hs.open_slots
      · exact hr.congr hs.generation hs.tokens hs.open_slots
    | read stream hlive hout hz h =>
      rw [record_idle (fun ⟨hp, _⟩ => by rw [hp.readStream] at h; nomatch h)]
      rcases World.continueRead_cases h mounted with hs | ⟨bytes, _, _, _, hs⟩
      · exact hr.congr hs.generation hs.tokens hs.open_slots
      · exact hr.congr hs.generation hs.tokens hs.open_slots
    | payload stream stream' w' count budget hlive hout hz hrd h hid hremaining hfailed hinput hcount hw =>
      rw [record_idle (fun ⟨hp, _⟩ => by rw [hp.writeStream] at h; nomatch h)]
      refine Recorded.congr (s := w'.server) (hr.congr hw.generation hw.tokens hw.open_slots) ?_ ?_ ?_
      all_goals
        unfold advanceWrite
        dsimp only
        split
      all_goals first | rfl | exact fun _ => rfl
    | skip count hlive hout hz hrd hw hpos =>
      rw [record_idle (fun ⟨hp, _⟩ => by rw [hp.skip] at hpos; nomatch hpos)]
      exact hr
    | oversized h hlen hkind hbig =>
      have hout : x.oversized.output =
          statusPacket (u32At x.input 5) ⟨FX_BAD_MESSAGE, "Request too large"⟩ := by
        show x.server.out ++ _ = _
        rw [h.drained, List.nil_append]
      have hrecord : record history x (x.oversized, { progress := true }) = history := by
        by_cases hopen : kindOf x.input = FXP_OPEN ∨ kindOf x.input = FXP_OPENDIR
        · refine record_of_open hopen ?_
          rw [hout, statusPacket, kindOf_packet (by decide)]
          decide
        · refine record_of_other hopen ?_
          rintro - ⟨-, hok⟩
          rw [hout, code_of_status _ _ (by decide)] at hok
          exact absurd hok (by decide)
      rw [hrecord]
      exact hr.congr rfl rfl fun _ => rfl
    | write h hkind =>
      have hopen : ¬(kindOf x.input = FXP_OPEN ∨ kindOf x.input = FXP_OPENDIR) := by rw [hkind]; decide
      rw [record_of_other hopen (fun hc => absurd (hkind.symm.trans hc) (by decide))]
      exact hr.congr rfl rfl fun _ => rfl
    | request h hpos hkind hle hlen =>
      by_cases hopen : kindOf x.input = FXP_OPEN ∨ kindOf x.input = FXP_OPENDIR
      · exact recorded_open hr h hopen hle mounted ctx hshort
      by_cases hclose : kindOf x.input = FXP_CLOSE
      · exact recorded_close hr h hclose mounted ctx
      rw [record_of_other hopen (fun hc => absurd hc hclose)]
      have hbody : ((x.input.take (4 + u32At x.input 0)).drop 5).length ≤ MAX_REQUEST := by
        rw [List.length_drop, List.length_take]
        omega
      have hkept {w' : World F} (heq : (x.dispatched mounted ctx).toWorld = w')
          (hs : w'.server.generation = x.server.generation ∧ w'.server.tokens = x.server.tokens ∧
            ∀ slot, (w'.server.handles slot).isNone = (x.server.handles slot).isNone) :
          Recorded (x.dispatched mounted ctx).server history := by
        rw [heq]
        exact hr.congr hs.1 hs.2.1 hs.2.2
      rcases World.dispatch_cases (w := x.toWorld) (kindOf x.input) _ hbody mounted ctx with
        ⟨_, heq⟩ | ⟨_, _, heq⟩ | ⟨_, _, hh⟩
      · exact hkept heq ⟨rfl, rfl, fun _ => rfl⟩
      · exact hkept heq ⟨rfl, rfl, fun _ => rfl⟩
      · cases hh with
        | replied _ _ hs => exact hkept rfl ⟨hs.generation, hs.tokens, hs.open_slots⟩
        | data _ _ _ hs => exact hkept rfl ⟨hs.generation, hs.tokens, hs.open_slots⟩
        | growing _ _ _ hs => exact hkept rfl ⟨hs.generation, hs.tokens, hs.open_slots⟩
        | opened hk => exact absurd hk hopen
        | closed hk => exact absurd hk hclose

/-- The record only grows. -/
theorem length_record (history : List Issued) (r : Sftp F × Seen) : history.length ≤ (record history x r).length := by
  unfold record
  split
  · split
    · exact Nat.le_succ _
    split
    · rw [List.length_map]
    · exact le_refl _
  · exact le_refl _

end TokensAux

/-- In every run with fewer than `2^24` HANDLE replies to OPEN and OPENDIR, each of them filled a slot, their tokens are all
different, and the server accepts exactly those that have not been closed, each for the slot that was filled for it. -/
theorem tokens_exact (volume : V) (es : List Event) :
    let x := Mealy.final traced (new (F := F) volume, []) es
    x.2.length < 2 ^ 24 → (∀ h ∈ x.2, ∃ slot, h.slot = some slot) ∧ (x.2.map Issued.token).Nodup ∧
      ∀ token slot, x.1.server.slotOf token = .ok slot ↔
        ∃ h ∈ x.2, h.token = token ∧ h.slot = some slot ∧ h.closed = false := by
  intro x hshort
  have hr : x.2.length < 2 ^ 24 → TokensAux.Recorded x.1.server x.2 :=
    Mealy.invariant (fun y : Sftp F × List Issued => y.2.length < 2 ^ 24 → TokensAux.Recorded y.1.server y.2)
      (G := fun _ _ => True)
      (fun y e hy _ hlen => TokensAux.recorded_serve e (hy (lt_of_le_of_lt (TokensAux.length_record _ _) hlen)) hlen)
      (fun _ => ⟨.nil, rfl, show 0 < 2 ^ 24 by decide, fun slot => by simp [new], nofun⟩)
      (Mealy.along_of_forall (fun _ _ => trivial) _ es)
  refine ⟨fun h hmem => ?_, (hr hshort).numbered.nodup (hr hshort).short, fun token slot => (hr hshort).slotOf_iff token slot⟩
  obtain ⟨_, slot, _, hslot, _⟩ := (hr hshort).numbered.token hmem
  exact ⟨slot, hslot⟩

/-- The slot that is filled first. -/
def firstSlot : Slot := ⟨0, Nat.zero_lt_succ _⟩

/-- A directory handle is opened and closed, and its slot opened again: the second token is accepted for the slot that the first
one had, and the first one is not. -/
theorem tokens_exact_reuse :
    let opendir : List UInt8 := [0, 0, 0, 10, 11, 0, 0, 0, 1, 0, 0, 0, 1, 47]
    let close : List UInt8 := [0, 0, 0, 13, 4, 0, 0, 0, 2, 0, 0, 0, 4, 0, 0, 1, 0]
    let es : List Event := [.feed opendir, .step true {}, .consume 100, .beginPoll, .feed close, .step true {},
      .consume 100, .beginPoll, .feed opendir, .step true {}]
    let x := Mealy.final traced (new (F := Ram.fat) {}, []) es
    x.2 = [⟨[0, 0, 2, 0], some firstSlot, false⟩, ⟨[0, 0, 1, 0], some firstSlot, true⟩] ∧
      x.1.server.slotOf [0, 0, 2, 0] = .ok firstSlot ∧ ∀ slot, x.1.server.slotOf [0, 0, 1, 0] ≠ .ok slot := by
  intro opendir close es
  have hx : (Mealy.final traced (new (F := Ram.fat) {}, []) es).2 =
      [⟨[0, 0, 2, 0], some firstSlot, false⟩, ⟨[0, 0, 1, 0], some firstSlot, true⟩] := by decide +kernel
  have hall := tokens_exact (F := Ram.fat) {} es
  generalize Mealy.final traced (new (F := Ram.fat) {}, []) es = x at hx hall ⊢
  obtain ⟨-, -, hiff⟩ := hall (by rw [hx]; decide)
  simp only [hx, List.mem_cons, List.not_mem_nil, or_false, exists_eq_or_imp, exists_eq_left] at hiff
  refine ⟨hx, (hiff _ _).mpr (.inl ⟨rfl, rfl, trivial⟩), fun slot hslot => ?_⟩
  rcases (hiff _ _).mp hslot with ⟨htoken, -⟩ | ⟨-, -, hclosed⟩
  · exact absurd htoken (by decide)
  · cases hclosed

end Sftp

end Ratputer
