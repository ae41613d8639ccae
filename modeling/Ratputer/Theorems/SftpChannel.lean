import Ratputer.Sftp.Channel
import Ratputer.Theorems.SftpProgress

/-!
# Requests at channel EOF

When `read_channel` reports the client's end of file, the server drops the SFTP session and closes the channel with exit
status 0. The requests it was fed are all executed then exactly when the session is idle: nothing is left in its input, and no
payload or growth is in progress.
-/

namespace Ratputer

variable {V : Type} {F : Fat V}

namespace Sftp

open FramingAux

/-- Every request that was fed is executed: it is answered, or is a WRITE without payload left. `sent` is what the client was
sent. -/
def Executed (s : Sftp F) (fed sent : List UInt8) : Prop :=
  ∃ answered waits, requests fed = answered ++ waits ∧ waits.length = (if s.waiting then 1 else 0) ∧
    s.server.resize = none ∧ (∀ stream, s.server.writeStream = some stream → stream.remaining = 0) ∧
    ∀ due, due.length = s.due →
      ∃ replies, List.Forall₂ Answers answered replies ∧ sent ++ s.output ++ due = replies.flatten

/-- Nothing is left in the input but the rest of a refused request, and no payload or growth is in progress. -/
structure Idle (s : Sftp F) : Prop where
  input : s.input.length ≤ s.skip
  resize : s.server.resize = none
  payload : ∀ stream, s.server.writeStream = some stream → stream.remaining = 0

namespace ChannelAux

variable {s : Sftp F} {mounted : Bool} {ctx : Ctx} {more sent : List UInt8} {all : List Request}

/-- Replies can be told apart: there is one way to cut bytes into packets. -/
theorem replies_unique {rs rs' : List Request} {ps qs : List (List UInt8)} (hp : List.Forall₂ Answers rs ps)
    (hq : List.Forall₂ Answers rs' qs) (h : ps.flatten = qs.flatten) : ps.length = qs.length := by
  have hlong {r : Request} {p : List UInt8} (h : Answers r p) : 4 ≤ p.length := by
    have := h.framed
    omega
  induction hp generalizing rs' qs with
  | nil =>
    cases hq with
    | nil => rfl
    | cons hq _ =>
      have hlen := congrArg List.length h
      have := hlong hq
      rw [List.flatten_cons, List.length_append, List.flatten_nil, List.length_nil] at hlen
      omega
  | cons hp _ ih =>
    cases hq with
    | nil =>
      have hlen := congrArg List.length h
      have := hlong hp
      rw [List.flatten_cons, List.length_append, List.flatten_nil, List.length_nil] at hlen
      omega
    | cons hq hqs =>
      rw [List.flatten_cons, List.flatten_cons] at h
      have hsize : u32At _ 0 = u32At _ 0 := congrArg (u32At · 0) h
      rw [u32At_append (hlong hp), u32At_append (hlong hq)] at hsize
      obtain ⟨_, hrest⟩ := List.append_inj h (by rw [hp.framed, hq.framed, hsize])
      rw [List.length_cons, List.length_cons, ih hqs hrest]

theorem requests_of_whole {bytes rest : List UInt8} {rs : List Request} (h : Whole bytes rs rest) :
    requests bytes = rs ++ requests rest := by
  induction h with
  | nil => rfl
  | cons hc _ ih =>
    obtain ⟨⟨hpos, hlen⟩, _⟩ := hc
    rw [RepliesAux.requests_of_length (by omega), ih]
    rfl

/-- What a step takes off the input is from its front. -/
theorem step_input (h : (s.step mounted ctx).1.server.fatal = false) :
    ∃ count ≤ s.input.length, (s.step mounted ctx).1.input = s.input.drop count := by
  have hstep := step_stepped s mounted ctx
  generalize s.step mounted ctx = r at hstep h ⊢
  cases hstep with
  | idle => exact ⟨0, Nat.zero_le _, rfl⟩
  | malformed => nomatch h
  | resize => exact ⟨0, Nat.zero_le _, rfl⟩
  | read => exact ⟨0, Nat.zero_le _, rfl⟩
  | payload _ _ _ count _ _ _ _ _ _ _ _ _ hinput => exact ⟨count, hinput, RepliesAux.advanceWrite_input _ _ _⟩
  | skip count _ _ _ _ _ _ _ hinput => exact ⟨count, hinput, rfl⟩
  | oversized => exact ⟨_, Nat.min_le_left _ _, rfl⟩
  | write _ _ _ hlen => exact ⟨_, hlen, rfl⟩
  | request _ _ _ _ hlen => exact ⟨_, hlen, rfl⟩

/-- The stream beyond what is owed is the same after a step that takes up no packet. -/
theorem rest_kept_step (h : (s.step mounted ctx).1.server.fatal = false)
    (hstart : ¬(s.AtPacket ∧ (s.step mounted ctx).2 = true)) (more : List UInt8) :
    ((s.step mounted ctx).1.input ++ more).drop (owed (s.step mounted ctx).1) = (s.input ++ more).drop (owed s) := by
  obtain ⟨count, hle, heq⟩ := step_input h
  have hlength : (s.step mounted ctx).1.input.length = s.input.length - count := by rw [heq, List.length_drop]
  have howed := (conserved_step mounted ctx hstart).resolve_left (by rw [h]; decide)
  rw [heq, RepliesAux.drop_drop_append hle]
  congr 1
  omega

/-- The stream beyond what is owed is what follows a packet that a step took up. -/
theorem rest_start_step (h : (s.step mounted ctx).1.server.fatal = false) (hp : s.AtPacket)
    (hstart : (s.step mounted ctx).2 = true) (hno : ¬Wraps s.input) (more : List UInt8) :
    ((s.step mounted ctx).1.input ++ more).drop (owed (s.step mounted ctx).1) =
      (s.input ++ more).drop (4 + u32At s.input 0) := by
  obtain ⟨count, hle, heq⟩ := step_input h
  have hlength : (s.step mounted ctx).1.input.length = s.input.length - count := by rw [heq, List.length_drop]
  have howed := (owed_start hp hstart hno).resolve_left (by rw [h]; decide)
  rw [heq, RepliesAux.drop_drop_append hle]
  congr 1
  omega

/-- A packet is taken up with its type at least. -/
theorem length_of_start (hp : s.AtPacket) (hstart : (s.step mounted ctx).2 = true) : 5 ≤ s.input.length := by
  have hstep := step_stepped s mounted ctx
  generalize s.step mounted ctx = r at hstep hstart
  cases hstep with
  | idle => nomatch hstart
  | malformed => nomatch hstart
  | resize job _ _ hz => rw [hp.resize] at hz; nomatch hz
  | read stream _ _ _ hr => rw [hp.readStream] at hr; nomatch hr
  | payload stream _ _ _ _ _ _ _ _ hw => rw [hp.writeStream] at hw; nomatch hw
  | skip count _ _ _ _ _ hpos => rw [hp.skip] at hpos; nomatch hpos
  | oversized _ hlen => omega
  | write _ _ _ hlen => omega
  | request _ hpos _ _ hlen => omega

/-- What holds of a session on a stream of whole requests, `more` of it being still to come. -/
structure Follows (s : Sftp F) (more sent : List UInt8) (all : List Request) : Prop where
  bounded : BuffersAux.Bounded s
  alive : s.server.fatal = false
  talk : RepliesAux.Talk s more sent all
  whole : ∃ rs, Whole ((s.input ++ more).drop (owed s)) rs [] ∧ ∀ r ∈ rs, 4 + r.length < 2 ^ 32

/-- A packet that is taken up is the next whole request. -/
theorem Follows.start (h : Follows s more sent all) (hp : s.AtPacket) (hstart : (s.step mounted ctx).2 = true) :
    ¬Wraps s.input ∧ ∃ rs, Whole ((s.input ++ more).drop (4 + u32At s.input 0)) rs [] ∧ ∀ r ∈ rs, 4 + r.length < 2 ^ 32 := by
  obtain ⟨rs, hwhole, hshort⟩ := h.whole
  have howed : owed s = 0 := by
    rw [owed, hp.writeStream, hp.skip]
    rfl
  have hlen := length_of_start hp hstart
  have hsize : u32At (s.input ++ more) 0 = u32At s.input 0 := u32At_append (by omega)
  rw [howed, List.drop_zero] at hwhole
  generalize hbytes : s.input ++ more = bytes at hwhole hsize
  cases hwhole with
  | nil =>
    have hnil := congrArg List.length hbytes
    rw [List.length_append, List.length_nil] at hnil
    omega
  | cons hc hrest =>
    have hfirst := hshort _ List.mem_cons_self
    change 4 + u32At _ 0 < 2 ^ 32 at hfirst
    rw [hsize] at hfirst hrest
    exact ⟨ProgressAux.not_wraps_of_complete more (hbytes ▸ hc) hfirst hp hstart, _, hrest,
      fun r hr => hshort r (List.mem_cons_of_mem _ hr)⟩

theorem Follows.serve (e : Event) (h : Follows s (e.fed ++ more) sent all) (hfits : s.Fits e)
    (hlive : (s.serve e).1.server.fatal = false) : Follows (s.serve e).1 more (sent ++ (s.serve e).2.taken) all := by
  have hno : s.Starts e → ¬Wraps s.input := by
    rintro ⟨hp, hstart⟩
    cases e with
    | step mounted ctx => exact (h.start hp hstart).1
    | _ => nomatch hstart
  refine ⟨BuffersAux.bounded_serve h.bounded e hfits, hlive, RepliesAux.talk_serve e h.talk h.bounded hno hlive, ?_⟩
  cases e with
  | feed bytes =>
    obtain ⟨rs, hwhole, hshort⟩ := h.whole
    refine ⟨rs, ?_, hshort⟩
    show Whole ((s.input ++ bytes ++ more).drop (owed s)) rs []
    rw [List.append_assoc]
    exact hwhole
  | consume count => exact h.whole
  | beginPoll => exact h.whole
  | step mounted ctx =>
    show ∃ rs, Whole (((s.step mounted ctx).1.input ++ more).drop (owed (s.step mounted ctx).1)) rs [] ∧ _
    by_cases hstart : s.AtPacket ∧ (s.step mounted ctx).2 = true
    · rw [rest_start_step hlive hstart.1 hstart.2 (hno hstart)]
      exact (h.start hstart.1 hstart.2).2
    · rw [rest_kept_step hlive hstart]
      exact h.whole

/-- Offering the output to the channel takes output. -/
theorem Follows.send (h : Follows s more sent all) {written : Option Nat} {s' : Sftp F} {bytes : List UInt8} {wrote : Bool}
    (hsend : s.send written = some (s', bytes, wrote)) : Follows s' more (sent ++ bytes) all := by
  unfold Sftp.send at hsend
  split at hsend
  · injection hsend with hsend
    injection hsend with h1 h2
    injection h2 with h2 _
    rw [← h1, ← h2, List.append_nil]
    exact h
  · cases written with
    | none => nomatch hsend
    | some count =>
      injection hsend with hsend
      injection hsend with h1 h2
      injection h2 with h2 _
      rw [← h1, ← h2]
      exact Follows.serve (.consume count) h trivial h.alive

/-- The steps of a round that does not give the session up. -/
theorem Follows.process {write : Nat → Option Nat} (steps : Nat) {s s' : Sftp F} {sent : List UInt8}
    (h : Follows s more sent all) {traffic traffic' : Traffic}
    (hprocess : Sftp.process mounted ctx write steps s traffic = .ok (s', traffic')) :
    traffic'.fed = traffic.fed ∧ ∃ bytes, traffic'.sent = traffic.sent ++ bytes ∧ Follows s' more (sent ++ bytes) all := by
  induction steps generalizing s sent traffic with
  | zero =>
    injection hprocess with hprocess
    injection hprocess with h1 h2
    subst h1 h2
    exact ⟨rfl, [], (List.append_nil _).symm, by rw [List.append_nil]; exact h⟩
  | succ steps ih =>
    unfold Sftp.process at hprocess
    dsimp only at hprocess
    cases hsend : (s.step mounted ctx).1.send (write steps) with
    | none => rw [hsend] at hprocess; nomatch hprocess
    | some r =>
      obtain ⟨s₁, bytes, wrote⟩ := r
      rw [hsend] at hprocess
      dsimp only at hprocess
      have hfatal : s₁.server.fatal = (s.step mounted ctx).1.server.fatal := by
        unfold Sftp.send at hsend
        split at hsend
        · injection hsend with hsend
          injection hsend with h1 _
          rw [← h1]
        · cases hwrite : write steps with
          | none => rw [hwrite] at hsend; nomatch hsend
          | some count =>
            rw [hwrite] at hsend
            injection hsend with hsend
            injection hsend with h1 _
            rw [← h1]
            rfl
      by_cases hdead : s₁.server.fatal = true
      · rw [if_pos hdead] at hprocess
        nomatch hprocess
      rw [if_neg hdead] at hprocess
      have hlive : (s.step mounted ctx).1.server.fatal = false := by
        rw [← hfatal]
        simpa using hdead
      have hstep : Follows (s.step mounted ctx).1 more (sent ++ []) all := Follows.serve (.step mounted ctx) h trivial hlive
      rw [List.append_nil] at hstep
      have hsent := hstep.send hsend
      split at hprocess
      · injection hprocess with hprocess
        injection hprocess with h1 h2
        subst h1 h2
        exact ⟨rfl, bytes, rfl, hsent⟩
      split at hprocess
      · injection hprocess with hprocess
        injection hprocess with h1 h2
        subst h1 h2
        exact ⟨rfl, bytes, rfl, hsent⟩
      obtain ⟨hfed, bytes', hbytes, hrest⟩ := ih hsent hprocess
      refine ⟨hfed, bytes ++ bytes', ?_, ?_⟩
      · rw [hbytes, List.append_assoc]
      · rw [← List.append_assoc]
        exact hrest

end ChannelAux

end Sftp

namespace SftpChannel

open Sftp FramingAux ChannelAux

/-- The SSH library reports the end of file only when all channel data is read. -/
def Sunset (x : SftpChannel F) : Event → Prop
  | .round _ _ .eof _ => x.unread = []
  | _ => True

/-- The channel is closed with success. -/
def Closes (x : SftpChannel F) (e : Event) : Prop := x.exitStatus = none ∧ (x.serve e).1.exitStatus = some 0

/-- What the client sent. -/
def Event.received : Event → List UInt8
  | .receive bytes => bytes
  | _ => []

def received (es : List Event) : List UInt8 := es.flatMap Event.received

/-- The bytes handed to the session, and those sent to the client. -/
def fed (traffic : List Traffic) : List UInt8 := traffic.flatMap Traffic.fed

def sent (traffic : List Traffic) : List UInt8 := traffic.flatMap Traffic.sent

namespace ChannelAux

variable {x : SftpChannel F} {future read told total : List UInt8}

/-- A session that is still there has been handed what the client sent, up to what the library holds and what is to come. -/
def Holds (x : SftpChannel F) (future read told total : List UInt8) : Prop :=
  ∀ s, x.sftp = some s → read ++ (x.unread ++ future) = total ∧ Follows s (x.unread ++ future) told (requests total)

theorem holds_of_none (h : x.sftp = none) : Holds x future read told total := by
  intro s hs
  rw [h] at hs
  nomatch hs

theorem holds_process {s : Sftp F} {bytes : List UInt8} (hread : read ++ bytes ++ (x.unread ++ future) = total)
    (h : Follows s (x.unread ++ future) told (requests total)) (mounted : Bool) (ctx : Ctx) (write : Nat → Option Nat) :
    Holds (x.process s bytes mounted ctx write).1 future (read ++ (x.process s bytes mounted ctx write).2.fed)
      (told ++ (x.process s bytes mounted ctx write).2.sent) total := by
  unfold SftpChannel.process
  cases hprocess : Sftp.process mounted ctx write SFTP_STEPS s { fed := bytes, moved := bytes ≠ [] } with
  | error volume => exact holds_of_none rfl
  | ok r =>
    obtain ⟨s', traffic⟩ := r
    obtain ⟨hfed, bytes', hsent, hfollows⟩ := h.process SFTP_STEPS hprocess
    intro s'' hs''
    injection hs'' with hs''
    dsimp only at hfed hsent ⊢
    rw [hfed, hsent, List.nil_append, ← hs'']
    exact ⟨hread, hfollows⟩

/-- Every event keeps the session on the client's stream. -/
theorem holds_serve (e : Event) (h : Holds x (e.received ++ future) read told total) :
    Holds (x.serve e).1 future (read ++ (x.serve e).2.fed) (told ++ (x.serve e).2.sent) total := by
  cases e with
  | receive bytes =>
    intro s hs
    obtain ⟨h1, h2⟩ := h s hs
    show read ++ [] ++ (x.unread ++ bytes ++ future) = total ∧ Follows s (x.unread ++ bytes ++ future) (told ++ []) _
    rw [List.append_nil, List.append_nil, List.append_assoc x.unread]
    exact ⟨h1, h2⟩
  | beginPoll =>
    intro s' hs'
    obtain ⟨s, hs, rfl⟩ := Option.map_eq_some_iff.mp hs'
    obtain ⟨h1, h2⟩ := h s hs
    refine ⟨?_, Follows.serve .beginPoll h2 trivial h2.alive⟩
    show read ++ [] ++ (x.unread ++ future) = total
    rw [List.append_nil]
    exact h1
  | round mounted ctx result write =>
    show Holds (x.channelSftp mounted ctx result write).1 future _ _ total
    unfold serve channelSftp
    cases hs : x.sftp with
    | none => exact holds_of_none hs
    | some s =>
      obtain ⟨h1, h2⟩ := h s hs
      dsimp only
      split
      · cases result with
        | data count =>
          dsimp only
          generalize hbytes : x.unread.take (min count (min s.inputSpace 1024)) = bytes
          have hlen : bytes.length ≤ s.inputSpace := by
            rw [← hbytes, List.length_take]
            omega
          have hsplit : x.unread = bytes ++ x.unread.drop bytes.length := by
            rw [← hbytes, List.length_take]
            rcases le_total (min count (min s.inputSpace 1024)) x.unread.length with hle | hle
            · rw [min_eq_left hle, List.take_append_drop]
            · rw [min_eq_right hle, List.take_of_length_le hle, List.drop_length, List.append_nil]
          have hstream : bytes ++ (x.unread.drop bytes.length ++ future) = x.unread ++ future := by
            rw [← List.append_assoc, ← hsplit]
          have h2' : Follows s (bytes ++ (x.unread.drop bytes.length ++ future)) told (requests total) := hstream ▸ h2
          have hfed := Follows.serve (.feed bytes) h2' hlen h2.alive
          refine holds_process ?_ (by rw [← List.append_nil told]; exact hfed) mounted ctx write
          rw [List.append_assoc, hstream]
          exact h1
        | eof => exact holds_of_none rfl
        | error => exact holds_of_none rfl
      · refine holds_process ?_ h2 mounted ctx write
        rw [List.append_nil]
        exact h1

theorem holds_run (es : List Event) (h : Holds x (received es ++ future) read told total) :
    Holds (Mealy.final serve x es) future (read ++ fed (Mealy.outputs serve x es))
      (told ++ sent (Mealy.outputs serve x es)) total := by
  induction es generalizing x read told with
  | nil =>
    show Holds x future (read ++ []) (told ++ []) total
    rw [List.append_nil, List.append_nil]
    exact h
  | cons e es ih =>
    rw [received, List.flatMap_cons, List.append_assoc] at h
    have hrun := ih (holds_serve e h)
    rw [Mealy.outputs_cons, fed, sent, List.flatMap_cons, List.flatMap_cons, ← List.append_assoc, ← List.append_assoc]
    exact hrun

/-- A channel is closed with success in a round that is reported the end of file. -/
theorem closes_cases {e : Event} (h : x.Closes e) :
    ∃ s mounted ctx write, x.sftp = some s ∧ e = .round mounted ctx .eof write := by
  obtain ⟨hopen, hclosed⟩ := h
  have hprocess (y : SftpChannel F) (hy : y.exitStatus = none) (s : Sftp F) (bytes : List UInt8) (mounted : Bool) (ctx : Ctx)
      (write : Nat → Option Nat) : (y.process s bytes mounted ctx write).1.exitStatus = none := by
    unfold SftpChannel.process
    split <;> exact hy
  cases e with
  | receive bytes => rw [show (x.serve (.receive bytes)).1.exitStatus = x.exitStatus from rfl, hopen] at hclosed; nomatch hclosed
  | beginPoll => rw [show (x.serve .beginPoll).1.exitStatus = x.exitStatus from rfl, hopen] at hclosed; nomatch hclosed
  | round mounted ctx result write =>
    change (x.channelSftp mounted ctx result write).1.exitStatus = some 0 at hclosed
    unfold channelSftp at hclosed
    cases hs : x.sftp with
    | none => rw [hs] at hclosed; dsimp only at hclosed; rw [hopen] at hclosed; nomatch hclosed
    | some s =>
      rw [hs] at hclosed
      dsimp only at hclosed
      split at hclosed
      · cases result with
        | data count =>
          dsimp only at hclosed
          exact nomatch hclosed.symm.trans (hprocess _ (by exact hopen) _ _ _ _ _)
        | eof => exact ⟨s, mounted, ctx, write, rfl, rfl⟩
        | error =>
          rw [show (x.giveUp s.volume).exitStatus = x.exitStatus from rfl, hopen] at hclosed
          nomatch hclosed
      · rw [hprocess x hopen] at hclosed
        nomatch hclosed

/-- On a stream of whole requests that is all handed over, the requests are executed exactly when the session is idle. -/
theorem executed_iff {s : Sftp F} {bytes told : List UInt8} (h : Follows s [] told (requests bytes)) :
    s.Executed bytes told ↔ s.Idle := by
  obtain ⟨answered, waits, hall, hwaits, hreplied⟩ := h.talk
  obtain ⟨rs, hwhole, _⟩ := h.whole
  rw [List.append_nil] at hall hwhole
  constructor
  · rintro ⟨answered', waits', hall', hlen', hz, hpayload, hreplied'⟩
    obtain ⟨replies, hreplies, heq⟩ := hreplied (List.replicate s.due 0) (List.length_replicate ..)
    obtain ⟨replies', hreplies', heq'⟩ := hreplied' (List.replicate s.due 0) (List.length_replicate ..)
    have hsame : replies.length = replies'.length := replies_unique hreplies hreplies' (heq.symm.trans heq')
    have hcount := congrArg List.length (hall.symm.trans hall')
    rw [List.length_append, List.length_append, List.length_append, hwaits.length, hlen', hreplies.length_eq,
      hreplies'.length_eq, hsame] at hcount
    have hnone : requests (s.input.drop (owed s)) = [] := List.length_eq_zero_iff.mp (by omega)
    refine ⟨?_, hz, hpayload⟩
    have hempty : s.input.drop (owed s) = [] := by
      have hrs := requests_of_whole hwhole
      rw [hnone] at hrs
      generalize s.input.drop (owed s) = bytes at hwhole hrs
      cases hwhole with
      | nil => rfl
      | cons => exact absurd hrs (by simp)
    have howed : owed s = s.skip := by
      rw [owed]
      cases hw : s.server.writeStream with
      | none => rfl
      | some stream =>
        show s.skip + stream.remaining = s.skip
        rw [hpayload stream hw, Nat.add_zero]
    rw [List.drop_eq_nil_iff, howed] at hempty
    exact hempty
  · rintro ⟨hinput, hz, hpayload⟩
    have hempty : s.input.drop (owed s) = [] := by
      rw [List.drop_eq_nil_iff, owed]
      omega
    refine ⟨answered, waits, ?_, hwaits.length, hz, hpayload, hreplied⟩
    rw [hall, hempty, requests, if_pos (by decide), List.append_nil]

end ChannelAux

/-- In every run of a channel on a stream of whole requests, none of 4 GiB: when the session is dropped at the client's end of
file, all requests it was fed are executed if and only if it is idle. -/
theorem executed_iff_idle (volume : V) (es : List Event) (e : Event) (rs : List Request)
    (hsunset : Mealy.Along serve Sunset (opened (F := F) volume) (es ++ [e])) (hwhole : Whole (received es) rs [])
    (hshort : ∀ r ∈ rs, 4 + r.length < 2 ^ 32) (hclose : (Mealy.final serve (opened (F := F) volume) es).Closes e) :
    ∃ s, (Mealy.final serve (opened (F := F) volume) es).sftp = some s ∧
      (s.Executed (fed (Mealy.outputs serve (opened (F := F) volume) es))
        (sent (Mealy.outputs serve (opened (F := F) volume) es)) ↔ s.Idle) := by
  obtain ⟨s, mounted, ctx, write, hs, rfl⟩ := ChannelAux.closes_cases hclose
  have hread : (Mealy.final serve (opened (F := F) volume) es).unread = [] := (Mealy.along_append.mp hsunset).2.1
  have hstart : ChannelAux.Holds (opened (F := F) volume) (received es ++ []) [] [] (received es) := by
    intro s₀ hs₀
    injection hs₀ with hs₀
    subst hs₀
    refine ⟨List.append_nil _, ⟨Nat.zero_le _, Nat.zero_le _, nofun⟩, rfl, ⟨[], [], ?_, .idle rfl rfl, fun due hdue => ⟨[], .nil, ?_⟩⟩,
      rs, ?_, hshort⟩
    · show requests (received es) = requests ([] ++ ([] ++ (received es ++ [])))
      rw [List.append_nil, List.nil_append, List.nil_append]
    · rw [List.length_eq_zero_iff.mp hdue]
      rfl
    · show Whole ([] ++ ([] ++ (received es ++ []))) rs []
      rw [List.append_nil, List.nil_append, List.nil_append]
      exact hwhole
  obtain ⟨htotal, hfollows⟩ := ChannelAux.holds_run es hstart s hs
  rw [hread, List.append_nil, List.append_nil, List.nil_append] at htotal
  rw [hread, List.append_nil, List.nil_append, ← htotal] at hfollows
  exact ⟨s, hs, ChannelAux.executed_iff hfollows⟩

/-- An INIT. -/
def initRequest : List UInt8 := [0, 0, 0, 5, 1, 0, 0, 0, 3]

/-- INIT, taken and answered before the end of file. -/
def polite : List Event := [.receive initRequest, .beginPoll, .round true {} (.data 1024) fun _ => some 1024]

theorem executed_iff_idle_polite : ∃ s,
    (Mealy.final serve (opened (F := Ram.fat) {}) polite).sftp = some s ∧
      (s.Executed (fed (Mealy.outputs serve (opened (F := Ram.fat) {}) polite))
        (sent (Mealy.outputs serve (opened (F := Ram.fat) {}) polite)) ↔ s.Idle) := by
  have hwhole : Whole (received polite) [requestAt initRequest] [] := by
    have hcomplete : Complete initRequest := by decide +kernel
    rw [show received polite = initRequest from rfl]
    refine .cons hcomplete ?_
    rw [show initRequest.drop (4 + u32At initRequest 0) = [] from by decide +kernel]
    exact .nil _
  have hread : (Mealy.final serve (opened (F := Ram.fat) {}) polite).unread = [] := by decide +kernel
  exact executed_iff_idle (F := Ram.fat) {} polite (.round true {} .eof fun _ => none) [requestAt initRequest]
    (Mealy.along_append.mpr ⟨⟨trivial, trivial, trivial, trivial⟩, hread, trivial⟩) hwhole (by decide +kernel)
    ⟨by decide +kernel, by decide +kernel⟩

/-- INIT and REMOVE of `/a` in one segment. -/
def initAndRemove : List UInt8 := initRequest ++ [0, 0, 0, 11, 13, 0, 0, 0, 7, 0, 0, 0, 2, 47, 97]

/-- The card operation of the poll goes to INIT; the next round is reported the end of file. -/
def hasty : List Event := [.receive initAndRemove, .beginPoll, .round true {} (.data 1024) fun _ => some 1024]

/-- The REMOVE was handed to the session and is dropped unexecuted, and the channel is closed with success. -/
theorem not_always_executed :
    ¬∀ (es : List Event) (e : Event) (rs : List Request), Mealy.Along serve Sunset (opened (F := Ram.fat) oneFile) (es ++ [e]) →
      Whole (received es) rs [] → (Mealy.final serve (opened (F := Ram.fat) oneFile) es).Closes e →
      ∀ s, (Mealy.final serve (opened (F := Ram.fat) oneFile) es).sftp = some s →
        s.Executed (fed (Mealy.outputs serve (opened (F := Ram.fat) oneFile) es))
          (sent (Mealy.outputs serve (opened (F := Ram.fat) oneFile) es)) := by
  intro h
  have hwhole : Whole (received hasty) [requestAt initAndRemove, requestAt (initAndRemove.drop 9)] [] := by
    have hfirst : Complete initAndRemove := by decide +kernel
    have hsecond : Complete (initAndRemove.drop 9) := by decide +kernel
    rw [show received hasty = initAndRemove from rfl]
    refine .cons hfirst ?_
    rw [show initAndRemove.drop (4 + u32At initAndRemove 0) = initAndRemove.drop 9 from by decide +kernel]
    refine .cons hsecond ?_
    rw [show (initAndRemove.drop 9).drop (4 + u32At (initAndRemove.drop 9) 0) = [] from by decide +kernel]
    exact .nil _
  have hread : (Mealy.final serve (opened (F := Ram.fat) oneFile) hasty).unread = [] := by decide +kernel
  have hsome : (Mealy.final serve (opened (F := Ram.fat) oneFile) hasty).sftp.isSome = true := by decide +kernel
  obtain ⟨s, hs⟩ := Option.isSome_iff_exists.mp hsome
  have hidle : ((Mealy.final serve (opened (F := Ram.fat) oneFile) hasty).sftp.map fun s => (s.waiting, s.due, s.output)) =
    some (false, 0, []) := by decide +kernel
  rw [hs, Option.map_some] at hidle
  injection hidle with hidle
  injection hidle with hwaiting hidle
  injection hidle with hdue hout
  have hfed : fed (Mealy.outputs serve (opened (F := Ram.fat) oneFile) hasty) = initAndRemove := by decide +kernel
  have hsent : sent (Mealy.outputs serve (opened (F := Ram.fat) oneFile) hasty) = versionPacket := by decide +kernel
  obtain ⟨answered, waits, hall, hwaits, -, -, hreplied⟩ := h hasty (.round true {} .eof fun _ => none) _
    (Mealy.along_append.mpr ⟨⟨trivial, trivial, trivial, trivial⟩, hread, trivial⟩) hwhole
    ⟨by decide +kernel, by decide +kernel⟩ s hs
  rw [hwaiting, if_neg (by decide), List.length_eq_zero_iff] at hwaits
  obtain ⟨replies, hreplies, heq⟩ := hreplied [] hdue.symm
  have hrequests := ChannelAux.requests_of_whole hwhole
  rw [hfed, hwaits, List.append_nil] at hall
  change requests initAndRemove = _ at hrequests
  rw [hall, requests, if_pos (by decide), List.append_nil] at hrequests
  rw [hrequests] at hreplies
  -- the only reply is VERSION, which leaves nothing for the REMOVE
  cases hreplies with
  | cons hp hrest =>
    cases hrest with
    | cons hq hnil =>
      cases hnil
      rw [hsent, hout, List.append_nil, List.append_nil, hp.version (by decide +kernel) (by decide +kernel), List.flatten_cons,
        List.flatten_singleton, List.self_eq_append_right] at heq
      have hframed := hq.framed
      rw [heq, List.length_nil] at hframed
      omega

end SftpChannel

end Ratputer
