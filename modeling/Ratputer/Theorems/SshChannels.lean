import Ratputer.Lib.Mealy
import Ratputer.Ram
import Ratputer.Ssh

/-!
# Channels of one connection

Nothing resets the shell when a channel is opened. A channel that follows another starts like the first one exactly when the one
before was an SFTP channel that left the shell's fields as it found them: a shell or exec channel leaves `closeAfterReply` set.
-/

namespace Ratputer

variable {V : Type} {F : Fat V}

/-- The fields of a channel are those of a new shell. -/
structure Shell.Fresh (shell : Shell F) : Prop where
  pty : shell.pty = false
  closeAfterReply : shell.closeAfterReply = false
  line : shell.line = []
  reply : shell.reply = []
  execPending : shell.execPending = false
  exitStatus : shell.exitStatus = 0
  sftp : shell.sftp = none

/-- The event opens a channel. -/
def SshConnection.Accepts (x : SshConnection F) (e : SshEvent V) : Prop :=
  ∃ shell channel, x.session = some shell ∧ shell.channel = none ∧ e = .serv (.openSession channel) true

/-- The request changes the fields of a channel. -/
def ServEvent.Soils : ServEvent → Prop
  | .sessionPty => True
  | .sessionShell => True
  | .sessionExec _ => True
  | .sessionSubsystem command => command = some "sftp".toList
  | _ => False

/-- The event closes the channel, and the session goes on. -/
def SshConnection.Closes (x : SshConnection F) (e : SshEvent V) : Prop :=
  ∃ shell shell', x.session = some shell ∧ shell.channel.isSome ∧ (x.serve e).1.session = some shell' ∧ shell'.channel = none

/-- The event leaves nothing behind for the next channel: it is no request that comes while no channel is open, and if it closes
the channel, then this runs the `sftp` subsystem and has the other fields of a new shell. -/
structure SshConnection.Clean (x : SshConnection F) (e : SshEvent V) : Prop where
  request : ∀ shell event taken, x.session = some shell → shell.channel = none → e = .serv event taken → ¬ event.Soils
  close : x.Closes e → ∃ shell s, x.session = some shell ∧ shell.sftp = some s ∧
    ({ shell with sftp := none } : Shell F).Fresh

namespace SshAux

/-! ## What the handlers do to a channel -/

section shell

variable {shell shell' : Shell F}

theorem pushText_channel (shell : Shell F) (text : List UInt8) : (shell.pushText text).channel = shell.channel := rfl

theorem pushPrompt_channel (shell : Shell F) : shell.pushPrompt.channel = shell.channel := by
  unfold Shell.pushPrompt
  split <;> rfl

theorem commandReply_channel (shell : Shell F) (command : Str) (status : ShellStatus) :
    (shell.commandReply command status).1.channel = shell.channel := by
  unfold Shell.commandReply
  repeat' split
  all_goals rfl

theorem runCommand_channel (shell : Shell F) (line : List UInt8) (status : ShellStatus) :
    (shell.runCommand line status).channel = shell.channel := by
  unfold Shell.runCommand
  dsimp only
  rw [pushPrompt_channel, pushText_channel, commandReply_channel]

theorem inputByte_channel (shell : Shell F) (status : ShellStatus) (byte : UInt8) :
    (shell.inputByte status byte).channel = shell.channel := by
  unfold Shell.inputByte
  dsimp only
  split
  · rw [runCommand_channel]
    split <;> rfl
  split
  · split <;> rfl
  split
  · rw [pushPrompt_channel, pushText_channel]
  split
  · rfl
  split
  · rfl
  · rfl

theorem shellInput_channel (shell : Shell F) (bytes : List UInt8) (status : ShellStatus) :
    (shell.shellInput bytes status).channel = shell.channel := by
  unfold Shell.shellInput
  induction bytes generalizing shell with
  | nil => rfl
  | cons byte bytes ih => rw [List.foldl_cons, ih, inputByte_channel]

theorem runPending_channel (shell : Shell F) (status : ShellStatus) : (shell.runPending status).channel = shell.channel := by
  unfold Shell.runPending
  split
  · rw [runCommand_channel]
  · rfl

/-- Where a prompt is due the channel is to be closed or has a reply. -/
theorem not_fresh_pushPrompt (shell : Shell F) : ¬ shell.pushPrompt.Fresh := by
  unfold Shell.pushPrompt
  intro hfresh
  split at hfresh
  · rename_i hclose
    rw [hfresh.closeAfterReply] at hclose
    nomatch hclose
  · have hreply := congrArg List.length hfresh.reply
    have hprompt : (messageBytes "rat$ ").length = 5 := by decide
    rw [List.length_append, hprompt, List.length_nil] at hreply
    omega

theorem answered_eq {taken : Bool} {a : ServAnswer} {answer : Option ServAnswer}
    (h : shell.answered taken a = some (shell', answer)) : taken = true ∧ shell' = shell := by
  unfold Shell.answered at h
  split at h
  · injection h with h
    injection h with h _
    exact ⟨‹_›, h.symm⟩
  · nomatch h

/-- An event keeps a channel that is open. -/
theorem handleEvent_channel {volume : V} {event : ServEvent} {taken : Bool} {answer : Option ServAnswer}
    (h : shell.handleEvent volume event taken = some (shell', answer)) (hsome : shell.channel.isSome) :
    shell'.channel = shell.channel := by
  cases event with
  | hostkeys => rw [(answered_eq h).2]
  | firstAuth => rw [(answered_eq h).2]
  | passwordAuth => rw [(answered_eq h).2]
  | pubkeyAuth => rw [(answered_eq h).2]
  | authenticated =>
    injection h with h
    injection h with h _
    rw [h]
  | openSession channel =>
    simp only [Shell.handleEvent, ← Option.not_isSome, hsome, Bool.not_true, Bool.false_eq_true, if_false] at h
    rw [(answered_eq h).2]
  | sessionPty => rw [(answered_eq h).2]
  | sessionShell => rw [(answered_eq h).2, pushPrompt_channel, pushText_channel]
  | sessionExec command => rw [(answered_eq h).2]
  | sessionSubsystem command =>
    simp only [Shell.handleEvent] at h
    split at h
    · rw [(answered_eq h).2]
    · rw [(answered_eq h).2]
  | sessionEnv => rw [(answered_eq h).2]
  | defunct => nomatch h
  | pollAgain =>
    injection h with h
    injection h with h _
    rw [h]

/-- An event that comes while no channel is open either opens one, or leaves a shell that is fresh exactly when it was before and
the event is no request of a channel. -/
theorem handleEvent_none {volume : V} {event : ServEvent} {taken : Bool} {answer : Option ServAnswer}
    (h : shell.handleEvent volume event taken = some (shell', answer)) (hnone : shell.channel = none) :
    (∃ channel, event = .openSession channel ∧ taken = true ∧ shell'.channel = some channel) ∨
      (shell'.channel = none ∧ (shell'.Fresh ↔ shell.Fresh ∧ ¬ event.Soils)) := by
  have hsame (hs : shell' = shell) (he : ¬ event.Soils) :
      shell'.channel = none ∧ (shell'.Fresh ↔ shell.Fresh ∧ ¬ event.Soils) := by
    rw [hs]
    exact ⟨hnone, ⟨fun hf => ⟨hf, he⟩, And.left⟩⟩
  cases event with
  | hostkeys => exact .inr (hsame (answered_eq h).2 id)
  | firstAuth => exact .inr (hsame (answered_eq h).2 id)
  | passwordAuth => exact .inr (hsame (answered_eq h).2 id)
  | pubkeyAuth => exact .inr (hsame (answered_eq h).2 id)
  | authenticated =>
    injection h with h
    injection h with h _
    exact .inr (hsame h.symm id)
  | openSession channel =>
    simp only [Shell.handleEvent, hnone, Option.isNone_none, if_true] at h
    obtain ⟨htaken, rfl⟩ := answered_eq h
    exact .inl ⟨channel, rfl, htaken, rfl⟩
  | sessionPty =>
    obtain ⟨-, rfl⟩ := answered_eq h
    exact .inr ⟨hnone, fun hf => (nomatch hf.pty), fun hf => absurd trivial hf.2⟩
  | sessionShell =>
    obtain ⟨-, rfl⟩ := answered_eq h
    refine .inr ⟨(pushPrompt_channel _).trans hnone, fun hf => absurd hf (not_fresh_pushPrompt _), fun hf => absurd trivial hf.2⟩
  | sessionExec command =>
    obtain ⟨-, rfl⟩ := answered_eq h
    exact .inr ⟨hnone, fun hf => (nomatch hf.execPending), fun hf => absurd trivial hf.2⟩
  | sessionSubsystem command =>
    simp only [Shell.handleEvent] at h
    split at h
    · rename_i hsftp
      obtain ⟨-, rfl⟩ := answered_eq h
      exact .inr ⟨hnone, fun hf => (nomatch hf.sftp), fun hf => absurd hsftp.1 hf.2⟩
    · rename_i hother
      obtain ⟨-, rfl⟩ := answered_eq h
      refine .inr ⟨hnone, fun hf => ⟨hf, fun hsoils => hother ⟨hsoils, ?_⟩⟩, And.left⟩
      rw [hf.sftp]
      rfl
  | sessionEnv => exact .inr (hsame (answered_eq h).2 id)
  | defunct => nomatch h
  | pollAgain =>
    injection h with h
    injection h with h _
    exact .inr (hsame h.symm id)

/-- A round without a channel runs a pending command, and leaves a fresh shell alone. -/
theorem channelShell_none {status : ShellStatus} {read : ChannelRead} {write : ChannelWrite} {served : Served}
    (h : shell.channelShell status read write = some (shell', served)) (hnone : shell.channel = none) :
    shell'.channel = none ∧ (shell'.Fresh ↔ shell.Fresh) := by
  have hpending := (runPending_channel shell status).trans hnone
  unfold Shell.channelShell at h
  simp only [hpending, Option.isNone_none, if_true] at h
  injection h with h
  injection h with h _
  rw [← h]
  refine ⟨hpending, ?_⟩
  unfold Shell.runPending
  split
  · rename_i hexec
    refine iff_of_false (not_fresh_pushPrompt _) fun hf => ?_
    rw [hf.execPending] at hexec
    nomatch hexec
  · exact Iff.rfl

/-- Reading input and sending the reply keep the channel. -/
theorem readInput_channel {status : ShellStatus} {read : ChannelRead} {got : Bool}
    (h : shell.readInput status read = some (shell', got)) : shell'.channel = shell.channel := by
  cases read with
  | data bytes =>
    injection h with h
    injection h with h _
    rw [← h, shellInput_channel]
  | eof =>
    injection h with h
    injection h with h _
    rw [← h]
  | error => nomatch h

theorem sendReply_channel {write : ChannelWrite} {sent : List UInt8} (h : shell.sendReply write = some (shell', sent)) :
    shell'.channel = shell.channel := by
  unfold Shell.sendReply at h
  split at h
  · injection h with h
    injection h with h _
    rw [h]
  · split at h
    · injection h with h
      injection h with h _
      rw [← h]
    · injection h with h
      injection h with h _
      rw [← h]
    · nomatch h

/-- A round closes the shell's channel only after `closeAfterReply`, which stays set. -/
theorem channelShell_closed {status : ShellStatus} {read : ChannelRead} {write : ChannelWrite} {served : Served}
    (h : shell.channelShell status read write = some (shell', served)) (hsome : shell.channel.isSome) (hnone : shell'.channel = none) :
    shell'.closeAfterReply = true := by
  have hpending := runPending_channel shell status
  unfold Shell.channelShell at h
  have hopen : (shell.runPending status).channel.isNone = false := by rw [hpending, ← Option.not_isSome, hsome]; rfl
  simp only [hopen, Bool.false_eq_true, if_false, Option.bind_eq_bind, Option.pure_def, Option.bind_eq_some_iff] at h
  obtain ⟨⟨shell₁, got⟩, hread, ⟨shell₂, sent⟩, hsend, h⟩ := h
  dsimp only at hsend h
  split at h
  · rename_i hclose
    injection h with h
    injection h with h _
    rw [← h]
    exact hclose.1
  · injection h with h
    injection h with h _
    rw [← h, sendReply_channel hsend, readInput_channel hread, hpending] at hnone
    rw [hnone] at hsome
    nomatch hsome

end shell

/-! ## Steps of a connection -/

variable {x : SshConnection F} {e : SshEvent V} {shell shell' : Shell F}

theorem serve_none (h : x.session = none) (e : SshEvent V) : (x.serve e).1.session = none := by
  unfold SshConnection.serve
  cases e with
  | card volume => exact h
  | serv event taken => rw [h]; exact h
  | beginPoll => rw [h]; exact h
  | round io => rw [h]; exact h

/-- A round of the SFTP subsystem keeps the other fields, and closes the channel or not. -/
theorem channelSftp_session {s : Sftp F} {io : ChannelRound} (h : (x.channelSftp shell s io).1.session = some shell') :
    (∃ s', shell' = { shell with sftp := some s' }) ∨ shell' = { shell with sftp := none, channel := none } := by
  unfold SshConnection.channelSftp at h
  dsimp only at h
  split at h
  · injection h with h
    exact .inl ⟨_, h.symm⟩
  · split at h
    · injection h with h
      exact .inr h.symm
    · nomatch h

/-- An event of the library that lets the session go on is handled. -/
theorem serve_serv {event : ServEvent} {taken : Bool} (h : x.session = some shell)
    (h' : (x.serve (.serv event taken)).1.session = some shell') :
    ∃ answer, shell.handleEvent x.volume event taken = some (shell', answer) := by
  unfold SshConnection.serve at h'
  rw [h] at h'
  dsimp only at h'
  split at h'
  · rename_i hevent
    injection h' with h'
    exact ⟨_, h' ▸ hevent⟩
  · nomatch h'

/-- What an event does to a session that goes on. -/
theorem serve_cases (h : x.session = some shell) (h' : (x.serve e).1.session = some shell') :
    (∃ event taken answer, e = .serv event taken ∧ shell.handleEvent x.volume event taken = some (shell', answer)) ∨
      (∃ sftp, shell' = { shell with sftp } ∧ sftp.isSome = shell.sftp.isSome) ∨
      (∃ s, shell.sftp = some s ∧ shell.channel.isSome ∧ shell' = { shell with sftp := none, channel := none }) ∨
      (shell.sftp = none ∧ ∃ status read write served, shell.channelShell status read write = some (shell', served)) := by
  cases e with
  | card volume =>
    rw [show (x.session = some shell') from h'] at h
    injection h with h
    exact .inr (.inl ⟨shell.sftp, h, rfl⟩)
  | serv event taken =>
    obtain ⟨answer, hevent⟩ := serve_serv h h'
    exact .inl ⟨event, taken, answer, rfl, hevent⟩
  | beginPoll =>
    unfold SshConnection.serve at h'
    rw [h] at h'
    injection h' with h'
    exact .inr (.inl ⟨_, h'.symm, Option.isSome_map ..⟩)
  | round io =>
    unfold SshConnection.serve at h'
    rw [h] at h'
    dsimp only at h'
    unfold SshConnection.channelRound at h'
    split at h'
    · rename_i s hs
      split at h'
      · rename_i hchannel
        rcases channelSftp_session h' with ⟨s', hs'⟩ | hs'
        · exact .inr (.inl ⟨_, hs', by rw [hs]; rfl⟩)
        · exact .inr (.inr (.inl ⟨s, hs, hchannel, hs'⟩))
      · rw [h] at h'
        injection h' with h'
        exact .inr (.inl ⟨shell.sftp, h'.symm, rfl⟩)
    · split at h'
      · rename_i hshell
        injection h' with h'
        exact .inr (.inr (.inr ⟨‹_›, _, _, _, _, h' ▸ hshell⟩))
      · nomatch h'

/-- A shell whose session is replaced by another is fresh exactly when it was. -/
theorem fresh_sftp {sftp : Option (Sftp F)} (h : sftp.isSome = shell.sftp.isSome) :
    ({ shell with sftp } : Shell F).Fresh ↔ shell.Fresh := by
  have hnone : sftp = none ↔ shell.sftp = none := by
    rw [← Option.isNone_iff_eq_none, ← Option.isNone_iff_eq_none, ← Option.not_isSome, ← Option.not_isSome, h]
  exact ⟨fun hf => ⟨hf.pty, hf.closeAfterReply, hf.line, hf.reply, hf.execPending, hf.exitStatus, hnone.mp hf.sftp⟩,
    fun hf => ⟨hf.pty, hf.closeAfterReply, hf.line, hf.reply, hf.execPending, hf.exitStatus, hnone.mpr hf.sftp⟩⟩

/-- Without a channel the shell is fresh. -/
def Ready (x : SshConnection F) : Prop := ∀ shell, x.session = some shell → shell.channel = none → shell.Fresh

/-- There is no channel, and the shell is not fresh. -/
def Soiled (x : SshConnection F) : Prop := ∀ shell, x.session = some shell → shell.channel = none ∧ ¬ shell.Fresh

/-- A clean event keeps the shell fresh while no channel is open. -/
theorem ready_serve (hx : Ready x) (he : x.Clean e) : Ready (x.serve e).1 := by
  intro shell' h' hnone'
  cases h : x.session with
  | none =>
    rw [serve_none h e] at h'
    nomatch h'
  | some shell =>
    have hclose (hsome : shell.channel.isSome) : ∃ s, shell.sftp = some s ∧ ({ shell with sftp := none } : Shell F).Fresh := by
      obtain ⟨shell₁, s, h₁, hs, hf⟩ := he.close ⟨shell, shell', h, hsome, h', hnone'⟩
      rw [h] at h₁
      injection h₁ with h₁
      rw [← h₁] at hs hf
      exact ⟨s, hs, hf⟩
    rcases serve_cases h h' with ⟨event, taken, answer, rfl, hevent⟩ | ⟨sftp, rfl, hsftp⟩ | ⟨s, hs, hsome, rfl⟩ |
      ⟨hsftp, _, _, _, _, hshell⟩
    · by_cases hsome : shell.channel.isSome
      · rw [handleEvent_channel hevent hsome] at hnone'
        rw [hnone'] at hsome
        nomatch hsome
      · have hchannel := Option.not_isSome_iff_eq_none.mp hsome
        rcases handleEvent_none hevent hchannel with ⟨channel, -, -, hopen⟩ | ⟨-, hfresh⟩
        · rw [hopen] at hnone'
          nomatch hnone'
        · exact hfresh.mpr ⟨hx shell h hchannel, he.request shell event taken h hchannel rfl⟩
    · exact (fresh_sftp hsftp).mpr (hx shell h hnone')
    · obtain ⟨-, -, hf⟩ := hclose hsome
      exact ⟨hf.pty, hf.closeAfterReply, hf.line, hf.reply, hf.execPending, hf.exitStatus, rfl⟩
    · by_cases hsome : shell.channel.isSome
      · obtain ⟨s, hs, -⟩ := hclose hsome
        rw [hsftp] at hs
        nomatch hs
      · have hchannel := Option.not_isSome_iff_eq_none.mp hsome
        exact (channelShell_none hshell hchannel).2.mpr (hx shell h hchannel)

/-- What an event leaves behind stays until a channel is opened. -/
theorem soiled_serve (hx : Soiled x) (he : ¬ x.Accepts e) : Soiled (x.serve e).1 := by
  intro shell' h'
  cases h : x.session with
  | none =>
    rw [serve_none h e] at h'
    nomatch h'
  | some shell =>
    obtain ⟨hchannel, hsoiled⟩ := hx shell h
    rcases serve_cases h h' with ⟨event, taken, answer, rfl, hevent⟩ | ⟨sftp, rfl, hsftp⟩ | ⟨s, hs, hsome, rfl⟩ |
      ⟨hsftp, _, _, _, _, hshell⟩
    · rcases handleEvent_none hevent hchannel with ⟨channel, rfl, rfl, -⟩ | ⟨hnone, hfresh⟩
      · exact absurd ⟨shell, channel, h, hchannel, rfl⟩ he
      · exact ⟨hnone, fun hf => hsoiled (hfresh.mp hf).1⟩
    · exact ⟨hchannel, fun hf => hsoiled ((fresh_sftp hsftp).mp hf)⟩
    · rw [hchannel] at hsome
      nomatch hsome
    · obtain ⟨hnone, hfresh⟩ := channelShell_none hshell hchannel
      exact ⟨hnone, fun hf => hsoiled (hfresh.mp hf)⟩

/-- An event that is not clean leaves something behind. -/
theorem soiled_of_not_clean (he : ¬ x.Clean e) : Soiled (x.serve e).1 := by
  intro shell' h'
  cases h : x.session with
  | none =>
    rw [serve_none h e] at h'
    nomatch h'
  | some shell =>
    by_contra hgood
    rw [not_and, not_not] at hgood
    refine he ⟨fun shell₁ event taken h₁ hnone heq hsoils => ?_, fun ⟨shell₁, shell₂, h₁, hsome, h₂, hnone⟩ => ?_⟩
    · obtain rfl : shell = shell₁ := Option.some.inj (h.symm.trans h₁)
      subst heq
      obtain ⟨answer, hevent⟩ := serve_serv h h'
      rcases handleEvent_none hevent hnone with ⟨channel, rfl, -⟩ | ⟨hnone', hfresh⟩
      · exact hsoils
      · exact (hfresh.mp (hgood hnone')).2 hsoils
    · obtain rfl : shell = shell₁ := Option.some.inj (h.symm.trans h₁)
      obtain rfl : shell' = shell₂ := Option.some.inj (h'.symm.trans h₂)
      have hfresh := hgood hnone
      rcases serve_cases h h' with ⟨event, taken, answer, rfl, hevent⟩ | ⟨sftp, rfl, hsftp⟩ | ⟨s, hs, _, rfl⟩ |
        ⟨hsftp, _, _, _, _, hshell⟩
      · rw [handleEvent_channel hevent hsome] at hnone
        rw [hnone] at hsome
        nomatch hsome
      · rw [hnone] at hsome
        nomatch hsome
      · exact ⟨shell, s, h, hs, hfresh.pty, hfresh.closeAfterReply, hfresh.line, hfresh.reply, hfresh.execPending,
          hfresh.exitStatus, rfl⟩
      · exact absurd hfresh.closeAfterReply (by rw [channelShell_closed hshell hsome hnone]; decide)

end SshAux

open SshAux SshConnection

/-- A new connection on a volume. -/
def SshConnection.start (F : Fat V) (volume : V) : SshConnection F := { volume }

/-- Channels of one connection are independent exactly where they leave nothing behind. In every run of a connection, whatever
events and channel data it has, each channel starts with the fields of a new shell if and only if every event before its opening
is clean: no request comes while no channel is open, and each channel before it was closed as an `sftp` channel that had the
other fields of a new shell. A channel that starts so is served like the first one of a new connection to the same volume. -/
theorem channels_start_fresh_iff (volume : V) (es : List (SshEvent V)) :
    let run := Mealy.final serve (start F volume)
    (Mealy.Along serve (fun x e => x.Accepts e → ∀ shell, x.session = some shell → shell.Fresh) (start F volume) es ↔
      ∀ before e after, es = before ++ e :: after → (run before).Accepts e →
        Mealy.Along serve SshConnection.Clean (start F volume) before) ∧
      ∀ before e after, es = before ++ e :: after → (run before).Accepts e →
        (∀ shell, (run before).session = some shell → shell.Fresh) →
        Mealy.outputs serve ((run before).serve e).1 after =
          Mealy.outputs serve ((start F (run before).volume).serve e).1 after := by
  dsimp only
  refine ⟨⟨fun hfresh before e after heq haccepts => ?_, fun hclean => ?_⟩, fun before e after heq haccepts hfresh => ?_⟩
  · rw [Mealy.along_iff_forall]
    rintro before' e' after' rfl
    by_contra hdirty
    rw [heq, Mealy.along_append, Mealy.along_append] at hfresh
    obtain ⟨⟨-, hmiddle⟩, hopen, -⟩ := hfresh
    -- what is left behind stays until the next channel is opened, which starts with it
    have hkept : Soiled (Mealy.final serve (start F volume) (before' ++ e' :: after')) := by
      rw [Mealy.final_append, Mealy.final_cons]
      refine Mealy.invariant Soiled (fun x e hx he => soiled_serve hx fun haccepts => ?_) (soiled_of_not_clean hdirty) hmiddle.2
      obtain ⟨shell, _, hsession, -, -⟩ := id haccepts
      exact (hx shell hsession).2 (he haccepts shell hsession)
    obtain ⟨shell, _, hsession, -, -⟩ := id haccepts
    exact (hkept shell hsession).2 (hopen haccepts shell hsession)
  · rw [Mealy.along_iff_forall]
    rintro before e after heq haccepts shell' hsession'
    have hready : Ready (Mealy.final serve (start F volume) before) := by
      refine Mealy.invariant Ready (fun x e hx he => ready_serve hx he) ?_ (hclean before e after heq haccepts)
      rintro shell h -
      obtain rfl := Option.some.inj h
      exact ⟨rfl, rfl, rfl, rfl, rfl, rfl, rfl⟩
    obtain ⟨shell, _, hsession, hnone, -⟩ := haccepts
    obtain rfl := Option.some.inj (hsession.symm.trans hsession')
    exact hready shell hsession hnone
  · obtain ⟨shell, channel, hsession, hnone, rfl⟩ := haccepts
    have hshell : shell = {} := by
      obtain ⟨h1, h2, h3, h4, h5, h6, h7⟩ := hfresh shell hsession
      cases shell
      simp only at hnone h1 h2 h3 h4 h5 h6 h7
      subst hnone h1 h2 h3 h4 h5 h6 h7
      rfl
    have hstart : Mealy.final serve (start F volume) before = start F (Mealy.final serve (start F volume) before).volume := by
      generalize Mealy.final serve (start F volume) before = x at hsession
      cases x
      simp only at hsession
      rw [hsession, hshell]
      rfl
    rw [← hstart]

/-- `ssh host ping`: a channel with a command, whose reply is sent in one piece. -/
def execPing : List (SshEvent V) :=
  [.serv (.openSession 0) true, .serv (.sessionExec (some "ping".toList)) true, .round { write := fun _ => .written 5 }]

/-- An interactive shell: a channel with a shell request, and a round that takes all it is offered. -/
def openShell : List (SshEvent V) :=
  [.serv (.openSession 1) true, .serv .sessionShell true, .round { write := fun _ => .written 100 }]

/-- The channel after a command starts with `closeAfterReply` set: its shell is closed as soon as the banner is sent, where on a
new connection it stays open. -/
theorem exec_closes_next_shell :
    let x := Mealy.final serve (start Ram.fat {}) execPing
    x.Accepts (.serv (.openSession 1) true) ∧ (x.session.map Shell.closeAfterReply = some true) ∧
      (Mealy.outputs serve x openShell).map Served.closed = [none, none, some 0] ∧
      (Mealy.outputs serve (start Ram.fat {}) openShell).map Served.closed = [none, none, none] := by
  refine ⟨⟨_, 1, rfl, rfl, rfl⟩, rfl, ?_, ?_⟩
  · decide +kernel
  · decide +kernel

end Ratputer
