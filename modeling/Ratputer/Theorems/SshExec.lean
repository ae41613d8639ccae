import Ratputer.Theorems.SshChannels

/-!
# The input of an exec channel

A channel with a command reads its input as the shell does until the reply is sent. What a client sends besides the command can
therefore run commands of its own, and a blank line resets the exit status.
-/

namespace Ratputer

variable {V : Type} {F : Fat V}

/-- A byte of input that neither writes to the reply nor changes the exit status: no Ctrl+C, and no line ending but that of a
blank line while the exit status is 0. -/
def Shell.Harmless (shell : Shell F) (byte : UInt8) : Prop :=
  byte ≠ 0x03 ∧ (byte = 0x0d ∨ byte = 0x0a → trim ((Utf8.decode shell.line).getD []) = [] ∧ shell.exitStatus = 0)

/-- Line editing, as a machine. -/
def Shell.typeByte (status : ShellStatus) (shell : Shell F) (byte : UInt8) : Shell F × Unit := (shell.inputByte status byte, ())

/-- All that a round reads while the channel is open is harmless. -/
def Shell.Quiet (shell : Shell F) (io : ChannelRound) : Prop :=
  let pending := shell.runPending io.status
  pending.channel.isSome → ∀ bytes, io.read = .data bytes →
    Mealy.Along (Shell.typeByte io.status) Shell.Harmless pending (bytes.take 128)

/-- An event that reads nothing but harmless bytes. -/
def SshConnection.QuietEvent (x : SshConnection F) (e : SshEvent V) : Prop :=
  ∀ shell io, x.session = some shell → e = .round io → shell.Quiet io

/-- The same round without input. -/
def ChannelRound.silent (io : ChannelRound) : ChannelRound :=
  { io with read := match io.read with
      | .data _ => .data []
      | read => read }

/-- The reply bytes sent and the exit statuses with which the channel is closed. -/
def sentBytes (served : List Served) : List UInt8 := served.flatMap Served.sent

def exitStatuses (served : List Served) : List Nat := served.filterMap Served.closed

namespace ExecAux

/-! ## A shell that closes after its reply -/

/-- A command was run: no terminal, and the channel is to be closed once the reply is sent. -/
structure Closing (shell : Shell F) : Prop where
  pty : shell.pty = false
  closeAfterReply : shell.closeAfterReply = true
  execPending : shell.execPending = false
  sftp : shell.sftp = none

variable {shell : Shell F}

/-- Without a terminal text is queued as it is. -/
theorem pushText_raw (h : shell.pty = false) (text : List UInt8) :
    shell.pushText text = { shell with reply := shell.reply ++ text } := by
  unfold Shell.pushText
  have hsame : (fun byte : UInt8 => if byte = 10 ∧ shell.pty then [13, byte] else [byte]) = fun byte => [byte] := by
    funext byte
    rw [if_neg (by rw [h]; simp)]
  rw [hsame, List.flatMap_singleton']

/-- A channel that will close is given no prompt. -/
theorem pushPrompt_closing (h : shell.closeAfterReply = true) : shell.pushPrompt = shell := by
  unfold Shell.pushPrompt
  rw [if_pos h]

/-- The exit status of a command. -/
theorem commandReply_closing (shell : Shell F) (h : shell.closeAfterReply = true) (command : Str) (status : ShellStatus) :
    ∃ exit, (shell.commandReply command status).1 = { shell with exitStatus := exit } := by
  unfold Shell.commandReply
  split
  · exact ⟨shell.exitStatus, rfl⟩
  split
  · exact ⟨shell.exitStatus, rfl⟩
  split
  · exact ⟨shell.exitStatus, rfl⟩
  split
  · exact ⟨shell.exitStatus, rfl⟩
  split
  · refine ⟨shell.exitStatus, ?_⟩
    rw [← h]
  · exact ⟨127, rfl⟩

/-- Only the blank line has no reply. -/
theorem commandReply_ne {command : Str} (h : command ≠ []) (status : ShellStatus) :
    (shell.commandReply command status).2 ≠ [] := by
  unfold Shell.commandReply
  rw [if_neg h]
  split
  · nofun
  split
  · nofun
  split
  · unfold statusLine
    exact List.append_ne_nil_of_right_ne_nil _ (List.cons_ne_nil _ _)
  split
  · nofun
  · exact List.append_ne_nil_of_right_ne_nil _ (List.cons_ne_nil _ _)

/-- A string that is not empty has bytes. -/
theorem asBytes_ne {s : Str} (h : s ≠ []) : asBytes s ≠ [] := by
  have hlen : s.length ≤ (asBytes s).length := Utf8.length_le_length_encode s
  have := List.length_pos_of_ne_nil h
  exact List.ne_nil_of_length_pos (by omega)

/-- A command of a shell that closes after its reply extends the reply, unless the line is blank. -/
theorem runCommand_closing (shell : Shell F) (h : Closing shell) (line : List UInt8) (status : ShellStatus) :
    ∃ exit text, shell.runCommand line status = { shell with exitStatus := exit, reply := shell.reply ++ text } ∧
      (trim ((Utf8.decode line).getD []) = [] → text = [] ∧ exit = 0) ∧
      (trim ((Utf8.decode line).getD []) ≠ [] → text ≠ []) := by
  unfold Shell.runCommand
  dsimp only
  generalize trim ((Utf8.decode line).getD []) = words
  obtain ⟨exit, hexit⟩ := commandReply_closing { shell with exitStatus := 0 } h.closeAfterReply
    (words.map toAsciiLowercase) status
  refine ⟨exit, asBytes (Shell.commandReply { shell with exitStatus := 0 } (words.map toAsciiLowercase) status).2, ?_, ?_, ?_⟩
  · rw [hexit]
    refine (congrArg Shell.pushPrompt (pushText_raw ?_ _)).trans (pushPrompt_closing ?_)
    · exact h.pty
    · exact h.closeAfterReply
  · rintro rfl
    have hblank := congrArg Shell.exitStatus hexit
    exact ⟨rfl, hblank.symm⟩
  · intro hne
    refine asBytes_ne (commandReply_ne (fun hnil => hne (List.map_eq_nil_iff.mp hnil)) status)

/-! ## Input -/

/-- What input does to the exit status and the reply: nothing where it is harmless; else it extends the reply, or resets the exit
status. -/
def Effect (harmless : Prop) (before after : Nat) (text : List UInt8) : Prop :=
  (harmless ∧ text = [] ∧ after = before) ∨ (¬ harmless ∧ (text ≠ [] ∨ text = [] ∧ before ≠ 0 ∧ after = 0))

/-- Input to a command changes the line, the status to come and the text, nothing else. -/
theorem inputByte_closing (h : Closing shell) (status : ShellStatus) (byte : UInt8) :
    ∃ line exit text, shell.inputByte status byte = { shell with line, exitStatus := exit, reply := shell.reply ++ text } ∧
      Effect (shell.Harmless byte) shell.exitStatus exit text := by
  have hplain (hend : ¬ (byte = 0x0d ∨ byte = 0x0a)) (hc : byte ≠ 0x03) :
      Effect (shell.Harmless byte) shell.exitStatus shell.exitStatus [] := .inl ⟨⟨hc, fun h => absurd h hend⟩, rfl, rfl⟩
  have hsame (line : List UInt8) : ({ shell with line } : Shell F) =
      { shell with line, exitStatus := shell.exitStatus, reply := shell.reply ++ [] } := by
    rw [List.append_nil]
  have hraw : ¬ shell.pty = true := by rw [h.pty]; nofun
  unfold Shell.inputByte
  dsimp only
  split
  · rename_i hend
    obtain ⟨exit, text, hrun, hblank, hcommand⟩ := runCommand_closing { shell with line := [] }
      ⟨h.pty, h.closeAfterReply, h.execPending, h.sftp⟩ shell.line status
    refine ⟨[], exit, text, hrun, ?_⟩
    by_cases hwords : trim ((Utf8.decode shell.line).getD []) = []
    · obtain ⟨rfl, rfl⟩ := hblank hwords
      by_cases hexit : shell.exitStatus = 0
      · refine .inl ⟨⟨?_, fun _ => ⟨hwords, hexit⟩⟩, rfl, hexit.symm⟩
        rintro rfl
        exact absurd hend (by decide)
      · exact .inr ⟨fun hharmless => hexit (hharmless.2 hend).2, .inr ⟨rfl, hexit, rfl⟩⟩
    · exact .inr ⟨fun hharmless => hwords (hharmless.2 hend).1, .inl (hcommand hwords)⟩
  rename_i hend
  split
  · rename_i herase
    have hc : byte ≠ 0x03 := by rintro rfl; exact absurd herase (by decide)
    split
    · exact ⟨shell.line, shell.exitStatus, [], hsame shell.line, hplain hend hc⟩
    · exact ⟨shell.line.dropLast, shell.exitStatus, [], hsame _, hplain hend hc⟩
  split
  · rename_i hc
    refine ⟨[], shell.exitStatus, messageBytes "^C\n", ?_, .inr ⟨fun hharmless => hharmless.1 hc, .inl (by decide)⟩⟩
    refine (congrArg Shell.pushPrompt (pushText_raw ?_ _)).trans (pushPrompt_closing ?_)
    · exact h.pty
    · exact h.closeAfterReply
  rename_i hc
  split
  · refine ⟨shell.line, shell.exitStatus, [], ?_, hplain hend hc⟩
    rw [← hsame, ← h.closeAfterReply]
  split
  · exact ⟨shell.line ++ [byte], shell.exitStatus, [], hsame _, hplain hend hc⟩
  · exact ⟨shell.line, shell.exitStatus, [], hsame shell.line, hplain hend hc⟩

/-- So does any amount of it. -/
theorem shellInput_closing (h : Closing shell) (status : ShellStatus) (bytes : List UInt8) :
    ∃ line exit text, shell.shellInput bytes status = { shell with line, exitStatus := exit, reply := shell.reply ++ text } ∧
      Effect (Mealy.Along (Shell.typeByte status) Shell.Harmless shell bytes) shell.exitStatus exit text := by
  induction bytes generalizing shell with
  | nil => exact ⟨shell.line, shell.exitStatus, [], by rw [List.append_nil]; rfl, .inl ⟨trivial, rfl, rfl⟩⟩
  | cons byte bytes ih =>
    obtain ⟨line₁, exit₁, text₁, hbyte, hfirst⟩ := inputByte_closing h status byte
    obtain ⟨line₂, exit₂, text₂, hbytes, hrest⟩ := @ih (shell.inputByte status byte) (by
      rw [hbyte]
      exact ⟨h.pty, h.closeAfterReply, h.execPending, h.sftp⟩)
    refine ⟨line₂, exit₂, text₁ ++ text₂, ?_, ?_⟩
    · refine hbytes.trans ?_
      rw [hbyte, List.append_assoc]
    have hexit : (shell.inputByte status byte).exitStatus = exit₁ := by rw [hbyte]
    rw [hexit] at hrest
    rcases hfirst with ⟨hharmless, rfl, rfl⟩ | ⟨hharm, htext | ⟨rfl, hne, rfl⟩⟩
    · rcases hrest with ⟨halong, rfl, rfl⟩ | ⟨hharm, hrest⟩
      · exact .inl ⟨⟨hharmless, halong⟩, rfl, rfl⟩
      · exact .inr ⟨fun halong => hharm halong.2, hrest⟩
    · exact .inr ⟨fun halong => hharm halong.1, .inl (List.append_ne_nil_of_left_ne_nil htext _)⟩
    · refine .inr ⟨fun halong => hharm halong.1, ?_⟩
      rcases hrest with ⟨-, rfl, rfl⟩ | ⟨-, htext | ⟨-, hzero, -⟩⟩
      · exact .inr ⟨rfl, hne, rfl⟩
      · exact .inl htext
      · exact absurd rfl hzero

/-! ## Rounds -/

/-- Send the reply, and close the channel once nothing is left. -/
def afterInput (shell : Shell F) (write : ChannelWrite) (got : Bool) : Option (Shell F × Served) := do
  let (shell', sent) ← shell.sendReply write
  let moved := got || sent ≠ []
  if shell'.closeAfterReply ∧ shell'.reply = [] then
    return ({ shell' with channel := none }, { sent, closed := some shell'.exitStatus, moved := true })
  return (shell', { sent, moved })

/-- Without a command there is nothing to run. -/
theorem runPending_idle (h : shell.execPending = false) (status : ShellStatus) : shell.runPending status = shell := by
  unfold Shell.runPending
  rw [if_neg (by rw [h]; nofun)]

/-- A round of an open channel once its command was run. -/
theorem channelShell_open (h : Closing shell) (hopen : shell.channel.isSome) (status : ShellStatus) (read : ChannelRead)
    (write : ChannelWrite) :
    shell.channelShell status read write = (shell.readInput status read).bind fun r => afterInput r.1 write r.2 := by
  have hsome : ¬ shell.channel.isNone = true := by
    rw [← Option.not_isSome, hopen]
    nofun
  unfold Shell.channelShell
  rw [runPending_idle h.execPending, if_neg hsome, h.execPending]
  rfl

/-- What a shell that closes after its reply sends of it, and whether it closes the channel. -/
theorem afterInput_written (shell : Shell F) (h : Closing shell) (count : Nat) (got : Bool) :
    ∃ moved, afterInput shell (.written count) got =
      if shell.reply.drop count = [] then
        some ({ shell with reply := shell.reply.drop count, channel := none },
          { sent := shell.reply.take count, closed := some shell.exitStatus, moved })
      else some ({ shell with reply := shell.reply.drop count }, { sent := shell.reply.take count, moved }) := by
  have hsend : shell.sendReply (.written count) =
      some ({ shell with reply := shell.reply.drop count }, shell.reply.take count) := by
    unfold Shell.sendReply
    split
    · rename_i hnil
      rw [hnil, List.drop_nil, List.take_nil, ← hnil]
    · rfl
  unfold afterInput
  rw [hsend]
  by_cases hrest : shell.reply.drop count = []
  · refine ⟨true, ?_⟩
    simp only [Option.bind_eq_bind, Option.bind_some, h.closeAfterReply, hrest, and_self, if_true]
    rfl
  · refine ⟨got || shell.reply.take count ≠ [], ?_⟩
    simp only [Option.bind_eq_bind, Option.bind_some, h.closeAfterReply, hrest, and_false, if_false]
    rfl

/-- The line has no part in what is sent. -/
theorem afterInput_line (h : Closing shell) (write : ChannelWrite) (line line' : List UInt8) (got got' : Bool) :
    (afterInput { shell with line } write got = none ∧ afterInput { shell with line := line' } write got' = none) ∨
      ∃ shell' sent closed moved moved', Closing shell' ∧
        afterInput { shell with line } write got = some ({ shell' with line }, { sent, closed, moved }) ∧
        afterInput { shell with line := line' } write got' =
          some ({ shell' with line := line' }, { sent, closed, moved := moved' }) := by
  have hkept (channel : Option Nat) (reply : List UInt8) : Closing { shell with channel, reply } :=
    ⟨h.pty, h.closeAfterReply, h.execPending, h.sftp⟩
  have hclose := h.closeAfterReply
  by_cases hnil : shell.reply = []
  · refine .inr ⟨{ shell with channel := none, reply := [] }, [], some shell.exitStatus, true, true, hkept _ _, ?_, ?_⟩
    · simp [afterInput, Shell.sendReply, hnil, hclose]
    · simp [afterInput, Shell.sendReply, hnil, hclose]
  cases write with
  | written count =>
    obtain ⟨moved, hsend⟩ := afterInput_written { shell with line } ⟨h.pty, hclose, h.execPending, h.sftp⟩ count got
    obtain ⟨moved', hsend'⟩ := afterInput_written { shell with line := line' } ⟨h.pty, hclose, h.execPending, h.sftp⟩
      count got'
    by_cases hrest : shell.reply.drop count = []
    · rw [if_pos hrest] at hsend hsend'
      exact .inr ⟨{ shell with channel := none, reply := shell.reply.drop count }, _, _, moved, moved', hkept _ _, hsend, hsend'⟩
    · rw [if_neg hrest] at hsend hsend'
      exact .inr ⟨{ shell with reply := shell.reply.drop count }, _, _, moved, moved', hkept _ _, hsend, hsend'⟩
  | eof =>
    refine .inr ⟨{ shell with channel := none, reply := [] }, [], some shell.exitStatus, true, true, hkept _ _, ?_, ?_⟩
    · simp [afterInput, Shell.sendReply, hnil, hclose]
    · simp [afterInput, Shell.sendReply, hnil, hclose]
  | error =>
    refine .inl ⟨?_, ?_⟩
    · simp only [afterInput, Shell.sendReply, hnil, if_false, Option.bind_eq_bind, Option.bind_none]
    · simp only [afterInput, Shell.sendReply, hnil, if_false, Option.bind_eq_bind, Option.bind_none]

/-! ## Runs -/

variable {x y : SshConnection F}

/-- A round serves the shell while there is no session of files. -/
theorem serve_round (hsession : x.session = some shell) (hsftp : shell.sftp = none) (io : ChannelRound) :
    x.serve (.round io) = match shell.channelShell io.status io.read (io.write 0) with
      | some (shell, served) => ({ x with session := some shell }, served)
      | none => x.finish := by
  cases hround : shell.channelShell io.status io.read (io.write 0) with
  | none => simp only [SshConnection.serve, hsession, SshConnection.channelRound, hsftp, hround]
  | some r => simp only [SshConnection.serve, hsession, SshConnection.channelRound, hsftp, hround]

/-- The connection is over, or has no open channel. -/
def Shut (x : SshConnection F) : Prop :=
  ∀ shell, x.session = some shell → shell.channel = none ∧ shell.execPending = false ∧ shell.sftp = none

/-- Nothing is sent where no channel is open. -/
theorem serve_shut (h : Shut x) (io : ChannelRound) :
    (x.serve (.round io)).1 = x ∧ (x.serve (.round io)).2.sent = [] ∧ (x.serve (.round io)).2.closed = none := by
  cases hsession : x.session with
  | none =>
    unfold SshConnection.serve
    rw [hsession]
    exact ⟨rfl, rfl, rfl⟩
  | some shell =>
    obtain ⟨hchannel, hpending, hsftp⟩ := h shell hsession
    have hround : shell.channelShell io.status io.read (io.write 0) = some (shell, {}) := by
      unfold Shell.channelShell
      rw [runPending_idle hpending]
      dsimp only
      rw [hchannel, hpending]
      rfl
    rw [serve_round hsession hsftp, hround]
    refine ⟨?_, rfl, rfl⟩
    dsimp only
    rw [← hsession]

/-- A connection without a channel sends nothing. -/
theorem outputs_shut (h : Shut x) (rounds : List ChannelRound) :
    sentBytes (Mealy.outputs SshConnection.serve x (rounds.map .round)) = [] ∧
      exitStatuses (Mealy.outputs SshConnection.serve x (rounds.map .round)) = [] := by
  induction rounds with
  | nil => exact ⟨rfl, rfl⟩
  | cons io rounds ih =>
    obtain ⟨hsame, hsent, hclosed⟩ := serve_shut h io
    rw [List.map_cons, Mealy.outputs_cons, hsame]
    refine ⟨?_, ?_⟩
    · rw [sentBytes, List.flatMap_cons, hsent]
      exact ih.1
    · rw [exitStatuses, List.filterMap_cons_none hclosed]
      exact ih.2

/-- What is sent, round by round. -/
@[simp] theorem sentBytes_cons (served : Served) (rest : List Served) :
    sentBytes (served :: rest) = served.sent ++ sentBytes rest := List.flatMap_cons

/-- The exit statuses, round by round. -/
@[simp] theorem exitStatuses_cons (served : Served) (rest : List Served) :
    exitStatuses (served :: rest) = served.closed.toList ++ exitStatuses rest := by
  unfold exitStatuses
  cases h : served.closed with
  | none => rw [List.filterMap_cons_none h]; rfl
  | some status => rw [List.filterMap_cons_some h]; rfl

/-- A command whose channel is gone is shut. -/
theorem shut_of_channel (hsession : x.session = some shell) (h : Closing shell) (hchannel : shell.channel = none) : Shut x := by
  intro shell' hshell'
  obtain rfl := Option.some.inj (hsession.symm.trans hshell')
  exact ⟨hchannel, h.execPending, h.sftp⟩

/-- A connection that has finished is shut. -/
theorem shut_finish (x : SshConnection F) : Shut x.finish.1 := fun _ h => nomatch h

/-- What a round reads, where it reads at all. -/
theorem readInput_closing (h : Closing shell) (hopen : shell.channel.isSome) {io : ChannelRound} (hread : io.read ≠ .error) :
    ∃ line exit text got, shell.readInput io.status io.read =
        some ({ shell with line, exitStatus := exit, reply := shell.reply ++ text }, got) ∧
      Effect (shell.Quiet io) shell.exitStatus exit text := by
  cases hdata : io.read with
  | data bytes =>
    obtain ⟨line, exit, text, hinput, heffect⟩ := shellInput_closing h io.status (bytes.take 128)
    have hquiet : shell.Quiet io ↔ Mealy.Along (Shell.typeByte io.status) Shell.Harmless shell (bytes.take 128) := by
      unfold Shell.Quiet
      rw [runPending_idle h.execPending]
      constructor
      · exact fun hquiet => hquiet hopen bytes hdata
      · intro halong _ _ bytes' hbytes'
        obtain rfl := ChannelRead.data.inj (hdata.symm.trans hbytes')
        exact halong
    refine ⟨line, exit, text, bytes ≠ [], ?_, ?_⟩
    · unfold Shell.readInput
      dsimp only
      rw [hinput]
    · rw [hquiet]
      exact heffect
  | eof =>
    refine ⟨shell.line, shell.exitStatus, [], false, ?_, .inl ⟨fun _ bytes hbytes => ?_, rfl, rfl⟩⟩
    · unfold Shell.readInput
      rw [List.append_nil, ← h.closeAfterReply]
    · rw [hdata] at hbytes
      nomatch hbytes
  | error => exact absurd hdata hread

/-- What a quiet round reads changes the line only. -/
theorem readInput_quiet (h : Closing shell) (hopen : shell.channel.isSome) {io : ChannelRound} (hquiet : shell.Quiet io)
    (hread : io.read ≠ .error) : ∃ line got, shell.readInput io.status io.read = some ({ shell with line }, got) := by
  obtain ⟨line, exit, text, got, hinput, ⟨-, rfl, rfl⟩ | ⟨hharm, -⟩⟩ := readInput_closing h hopen hread
  · rw [List.append_nil] at hinput
    exact ⟨line, got, hinput⟩
  · exact absurd hquiet hharm

theorem silent_read_error {io : ChannelRound} : io.silent.read = .error ↔ io.read = .error := by
  unfold ChannelRound.silent
  cases io.read <;> simp

/-- A silent round is quiet. -/
theorem quiet_silent (shell : Shell F) (io : ChannelRound) : shell.Quiet io.silent := by
  intro _ bytes hread
  have hnil : bytes = [] := by
    unfold ChannelRound.silent at hread
    cases hio : io.read with
    | data other =>
      rw [hio] at hread
      exact (ChannelRead.data.inj hread).symm
    | eof => rw [hio] at hread; nomatch hread
    | error => rw [hio] at hread; nomatch hread
  rw [hnil]
  trivial

/-- Two connections that differ in the line of a shell that closes after its reply, or are shut both. -/
def Alike (x y : SshConnection F) : Prop :=
  (Shut x ∧ Shut y) ∨
    ∃ shell line line', Closing shell ∧ x.session = some { shell with line } ∧ y.session = some { shell with line := line' }

/-- A quiet round, and the same without input. -/
theorem serve_alike (halike : Alike x y) {io : ChannelRound} (hquiet : x.QuietEvent (.round io)) :
    Alike (x.serve (.round io)).1 (y.serve (.round io.silent)).1 ∧
      (x.serve (.round io)).2.sent = (y.serve (.round io.silent)).2.sent ∧
      (x.serve (.round io)).2.closed = (y.serve (.round io.silent)).2.closed := by
  have hboth (hx : Shut x) (hy : Shut y) : Alike (x.serve (.round io)).1 (y.serve (.round io.silent)).1 ∧
      (x.serve (.round io)).2.sent = (y.serve (.round io.silent)).2.sent ∧
      (x.serve (.round io)).2.closed = (y.serve (.round io.silent)).2.closed := by
    obtain ⟨hsame, hsent, hclosed⟩ := serve_shut hx io
    obtain ⟨hsame', hsent', hclosed'⟩ := serve_shut hy io.silent
    rw [hsame, hsent, hclosed, hsame', hsent', hclosed']
    exact ⟨.inl ⟨hx, hy⟩, rfl, rfl⟩
  obtain ⟨hx, hy⟩ | ⟨shell, line, line', h, hx, hy⟩ := halike
  · exact hboth hx hy
  have hclosing (line : List UInt8) : Closing { shell with line } := ⟨h.pty, h.closeAfterReply, h.execPending, h.sftp⟩
  cases hchannel : shell.channel with
  | none => exact hboth (shut_of_channel hx (hclosing line) hchannel) (shut_of_channel hy (hclosing line') hchannel)
  | some channel =>
    have hopen : shell.channel.isSome := by rw [hchannel]; rfl
    rw [serve_round hx h.sftp, serve_round hy h.sftp, channelShell_open (hclosing line) hopen,
      channelShell_open (hclosing line') hopen]
    by_cases herror : io.read = .error
    · rw [silent_read_error.mpr herror, herror]
      exact ⟨.inl ⟨shut_finish x, shut_finish y⟩, rfl, rfl⟩
    obtain ⟨line₁, got, hread⟩ := readInput_quiet (hclosing line) hopen (hquiet _ _ hx rfl) herror
    obtain ⟨line₁', got', hread'⟩ := readInput_quiet (hclosing line') hopen (quiet_silent _ io)
      (fun hsilent => herror (silent_read_error.mp hsilent))
    rw [hread, hread']
    obtain ⟨hnone, hnone'⟩ | ⟨shell', sent, closed, moved, moved', hnext, hsend, hsend'⟩ :=
      afterInput_line h (io.write 0) line₁ line₁' got got'
    · rw [Option.bind_some, Option.bind_some, hnone, show io.silent.write 0 = io.write 0 from rfl, hnone']
      exact ⟨.inl ⟨shut_finish x, shut_finish y⟩, rfl, rfl⟩
    · rw [Option.bind_some, Option.bind_some, hsend, show io.silent.write 0 = io.write 0 from rfl, hsend']
      exact ⟨.inr ⟨shell', line₁, line₁', hnext, rfl, rfl⟩, rfl, rfl⟩

/-- Quiet input is not seen in what is sent. -/
theorem outputs_quiet (rounds : List ChannelRound) (halike : Alike x y)
    (hquiet : Mealy.Along SshConnection.serve SshConnection.QuietEvent x (rounds.map .round)) :
    sentBytes (Mealy.outputs SshConnection.serve x (rounds.map .round)) =
        sentBytes (Mealy.outputs SshConnection.serve y ((rounds.map ChannelRound.silent).map .round)) ∧
      exitStatuses (Mealy.outputs SshConnection.serve x (rounds.map .round)) =
        exitStatuses (Mealy.outputs SshConnection.serve y ((rounds.map ChannelRound.silent).map .round)) := by
  induction rounds generalizing x y with
  | nil => exact ⟨rfl, rfl⟩
  | cons io rounds ih =>
    obtain ⟨hnext, hsent, hclosed⟩ := serve_alike halike hquiet.1
    obtain ⟨hsents, hcloseds⟩ := ih hnext hquiet.2
    simp only [List.map_cons, Mealy.outputs_cons, sentBytes_cons, exitStatuses_cons, hsent, hclosed]
    exact ⟨congrArg _ hsents, congrArg _ hcloseds⟩

/-! ## Runs that close the channel -/

/-- A round that writes, after its input. -/
theorem serve_written {shell₁ : Shell F} {io : ChannelRound} {count : Nat} {got : Bool} (hx : x.session = some shell)
    (h : Closing shell) (hopen : shell.channel.isSome) (hread : shell.readInput io.status io.read = some (shell₁, got))
    (h₁ : Closing shell₁) (hwrite : io.write 0 = .written count) :
    (x.serve (.round io)).2.sent = shell₁.reply.take count ∧
      ((shell₁.reply.drop count = [] ∧ (x.serve (.round io)).2.closed = some shell₁.exitStatus ∧ Shut (x.serve (.round io)).1) ∨
        ((x.serve (.round io)).2.closed = none ∧
          (x.serve (.round io)).1.session = some { shell₁ with reply := shell₁.reply.drop count })) := by
  obtain ⟨moved, hsend⟩ := afterInput_written shell₁ h₁ count got
  rw [serve_round hx h.sftp, channelShell_open h hopen, hread, Option.bind_some, hwrite, hsend]
  by_cases hrest : shell₁.reply.drop count = []
  · rw [if_pos hrest]
    refine ⟨rfl, .inl ⟨hrest, rfl, ?_⟩⟩
    exact shut_of_channel rfl ⟨h₁.pty, h₁.closeAfterReply, h₁.execPending, h₁.sftp⟩ rfl
  · rw [if_neg hrest]
    exact ⟨rfl, .inr ⟨rfl, rfl⟩⟩

/-- What is shut stays quiet. -/
theorem along_shut (hshut : Shut x) (rounds : List ChannelRound) :
    Mealy.Along SshConnection.serve SshConnection.QuietEvent x (rounds.map .round) := by
  induction rounds with
  | nil => trivial
  | cons io rounds ih =>
    refine ⟨fun shell io' hsession hio hopen => ?_, ?_⟩
    · obtain ⟨hchannel, hpending, -⟩ := hshut shell hsession
      rw [runPending_idle hpending, hchannel] at hopen
      nomatch hopen
    · rw [(serve_shut hshut io).1]
      exact ih

/-- A channel that cannot be read ends its connection. -/
theorem serve_error {io : ChannelRound} (hx : x.session = some shell) (h : Closing shell) (hopen : shell.channel.isSome)
    (hread : io.read = .error) : x.serve (.round io) = x.finish := by
  rw [serve_round hx h.sftp, channelShell_open h hopen, hread]
  rfl

/-- A run without input sends no more than the reply that waits, and closes the channel with the exit status it has. -/
theorem outputs_silent (rounds : List ChannelRound) (h : Closing shell) (hx : x.session = some shell)
    (hwritten : ∀ io ∈ rounds, ∃ count, io.write 0 = .written count) :
    (sentBytes (Mealy.outputs SshConnection.serve x ((rounds.map ChannelRound.silent).map .round))).length ≤ shell.reply.length ∧
      ∀ exit ∈ exitStatuses (Mealy.outputs SshConnection.serve x ((rounds.map ChannelRound.silent).map .round)),
        exit = shell.exitStatus := by
  induction rounds generalizing x shell with
  | nil => exact ⟨Nat.zero_le _, nofun⟩
  | cons io rounds ih =>
    have hshut {z : SshConnection F} (hz : Shut z) := outputs_shut hz (rounds.map ChannelRound.silent)
    simp only [List.map_cons, Mealy.outputs_cons, sentBytes_cons, exitStatuses_cons, List.length_append]
    cases hchannel : shell.channel with
    | none =>
      have hz := shut_of_channel hx h hchannel
      obtain ⟨hsame, hsent, hclosed⟩ := serve_shut hz io.silent
      rw [hsame, hsent, hclosed, (hshut hz).1, (hshut hz).2]
      exact ⟨Nat.zero_le _, nofun⟩
    | some channel =>
      have hopen : shell.channel.isSome := by rw [hchannel]; rfl
      by_cases herror : io.read = .error
      · rw [serve_error hx h hopen (silent_read_error.mpr herror), (hshut (shut_finish x)).1, (hshut (shut_finish x)).2]
        exact ⟨Nat.zero_le _, nofun⟩
      obtain ⟨count, hwrite⟩ := hwritten io List.mem_cons_self
      obtain ⟨line, got, hread⟩ := readInput_quiet h hopen (quiet_silent shell io)
        (fun hsilent => herror (silent_read_error.mp hsilent))
      obtain ⟨hsent, ⟨hnil, hclosed, hz⟩ | ⟨hclosed, hnext⟩⟩ := @serve_written _ _ _ _ _ io.silent _ _ hx h hopen hread
        ⟨h.pty, h.closeAfterReply, h.execPending, h.sftp⟩ hwrite
      · rw [hsent, hclosed, (hshut hz).1, (hshut hz).2]
        refine ⟨?_, fun exit hexit => List.mem_singleton.mp hexit⟩
        rw [List.length_take, List.length_nil]
        exact Nat.min_le_right _ _
      · have hafter : Closing { shell with line, reply := shell.reply.drop count } :=
          ⟨h.pty, h.closeAfterReply, h.execPending, h.sftp⟩
        obtain ⟨hlength, hexits⟩ := ih hafter hnext (fun io' hio' => hwritten io' (List.mem_cons_of_mem io hio'))
        rw [hsent, hclosed]
        refine ⟨?_, hexits⟩
        dsimp only at hlength ⊢
        rw [List.length_drop] at hlength
        rw [List.length_take]
        omega

/-- A run that closes the channel sends all of the reply that waits. If its input is not harmless, then it sends more, or the exit
status of a command that failed is reported as 0. -/
theorem outputs_closed (rounds : List ChannelRound) (h : Closing shell) (hx : x.session = some shell)
    (hwritten : ∀ io ∈ rounds, ∃ count, io.write 0 = .written count)
    (hclosed : exitStatuses (Mealy.outputs SshConnection.serve x (rounds.map .round)) ≠ []) :
    shell.reply.length < (sentBytes (Mealy.outputs SshConnection.serve x (rounds.map .round))).length ∨
      shell.reply.length ≤ (sentBytes (Mealy.outputs SshConnection.serve x (rounds.map .round))).length ∧
        ((shell.exitStatus ≠ 0 ∧ exitStatuses (Mealy.outputs SshConnection.serve x (rounds.map .round)) = [0]) ∨
          (exitStatuses (Mealy.outputs SshConnection.serve x (rounds.map .round)) = [shell.exitStatus] ∧
            Mealy.Along SshConnection.serve SshConnection.QuietEvent x (rounds.map .round))) := by
  induction rounds generalizing x shell with
  | nil => exact absurd rfl hclosed
  | cons io rounds ih =>
    cases hchannel : shell.channel with
    | none => exact absurd (outputs_shut (shut_of_channel hx h hchannel) (io :: rounds)).2 hclosed
    | some channel =>
      have hopen : shell.channel.isSome := by rw [hchannel]; rfl
      simp only [List.map_cons, Mealy.outputs_cons, sentBytes_cons, exitStatuses_cons, List.length_append, Mealy.Along] at hclosed ⊢
      by_cases herror : io.read = .error
      · rw [serve_error hx h hopen herror] at hclosed
        exact absurd (outputs_shut (shut_finish x) rounds).2 hclosed
      obtain ⟨count, hwrite⟩ := hwritten io List.mem_cons_self
      obtain ⟨line, exit, text, got, hread, heffect⟩ := readInput_closing h hopen herror
      have hquiet (hshell : shell.Quiet io) : x.QuietEvent (.round io) := by
        rintro shell' io' hsession' hio'
        obtain rfl := Option.some.inj (hx.symm.trans hsession')
        obtain rfl := SshEvent.round.inj hio'
        exact hshell
      have hpositive : text ≠ [] → 0 < text.length := List.length_pos_of_ne_nil
      obtain ⟨hsent, ⟨hnil, hexit, hz⟩ | ⟨hopened, hnext⟩⟩ := serve_written hx h hopen hread
        ⟨h.pty, h.closeAfterReply, h.execPending, h.sftp⟩ hwrite
      · -- the channel is closed in this round: all was sent
        rw [hsent, hexit, (outputs_shut hz rounds).1, (outputs_shut hz rounds).2,
          List.take_of_length_le (List.drop_eq_nil_iff.mp hnil), List.length_append, List.length_nil]
        dsimp only
        rcases heffect with ⟨hharmless, rfl, rfl⟩ | ⟨-, htext | ⟨rfl, hne, rfl⟩⟩
        · exact .inr ⟨by omega, .inr ⟨rfl, hquiet hharmless, along_shut hz rounds⟩⟩
        · have := hpositive htext
          exact .inl (by omega)
        · exact .inr ⟨by omega, .inl ⟨hne, rfl⟩⟩
      · rw [hopened] at hclosed ⊢
        rw [hsent]
        have hafter : Closing { shell with line, exitStatus := exit, reply := (shell.reply ++ text).drop count } :=
          ⟨h.pty, h.closeAfterReply, h.execPending, h.sftp⟩
        have hrun := ih hafter hnext (fun io' hio' => hwritten io' (List.mem_cons_of_mem io hio')) hclosed
        dsimp only at hrun ⊢
        have hlength := congrArg List.length (List.take_append_drop count (shell.reply ++ text))
        rw [List.length_append, List.length_append] at hlength
        rcases hrun with hmore | ⟨hall, hrun⟩
        · exact .inl (by omega)
        rcases heffect with ⟨hharmless, rfl, rfl⟩ | ⟨-, htext | ⟨rfl, hne, rfl⟩⟩
        · rw [List.length_nil] at hlength
          refine .inr ⟨by omega, ?_⟩
          rcases hrun with hzero | ⟨hexit, halong⟩
          · exact .inl hzero
          · exact .inr ⟨hexit, hquiet hharmless, halong⟩
        · have := hpositive htext
          exact .inl (by omega)
        · rw [List.length_nil] at hlength
          refine .inr ⟨by omega, ?_⟩
          rcases hrun with ⟨hne', -⟩ | ⟨hexit, -⟩
          · exact absurd rfl hne'
          · exact .inl ⟨hne, hexit⟩

/-! ## The round that runs the command -/

/-- A shell whose command waits does what the shell that ran it does. -/
theorem serve_pending (hx : x.session = some shell) (hopen : shell.channel.isSome) (hsftp : shell.sftp = none) (io : ChannelRound)
    (hran : Closing (shell.runPending io.status)) :
    (x.serve (.round io)).1 = ((({ x with session := some (shell.runPending io.status) } : SshConnection F)).serve (.round io)).1 ∧
      (x.serve (.round io)).2.sent =
        ((({ x with session := some (shell.runPending io.status) } : SshConnection F)).serve (.round io)).2.sent ∧
      (x.serve (.round io)).2.closed =
        ((({ x with session := some (shell.runPending io.status) } : SshConnection F)).serve (.round io)).2.closed := by
  have hsome : (shell.runPending io.status).channel.isSome := by rw [SshAux.runPending_channel]; exact hopen
  have hnone : ¬ (shell.runPending io.status).channel.isNone = true := by
    rw [← Option.not_isSome, hsome]
    nofun
  rw [serve_round hx hsftp, serve_round rfl hran.sftp, channelShell_open hran hsome]
  unfold Shell.channelShell
  dsimp only
  rw [if_neg hnone]
  generalize shell.runPending io.status = pending
  cases hread : pending.readInput io.status io.read with
  | none => exact ⟨rfl, rfl, rfl⟩
  | some r =>
    unfold afterInput
    simp only [Option.bind_eq_bind, Option.bind_some]
    cases hsend : r.1.sendReply (io.write 0) with
    | none => exact ⟨rfl, rfl, rfl⟩
    | some r' =>
      simp only [Option.bind_some]
      by_cases hclose : r'.1.closeAfterReply = true ∧ r'.1.reply = []
      · rw [if_pos hclose, if_pos hclose]
        exact ⟨rfl, rfl, rfl⟩
      · rw [if_neg hclose, if_neg hclose]
        exact ⟨rfl, rfl, rfl⟩

/-- The round that runs a command sends what the command has said. -/
theorem outputs_pending (hx : x.session = some shell) (hopen : shell.channel.isSome) (hsftp : shell.sftp = none) (io : ChannelRound)
    (rounds : List ChannelRound) (hran : Closing (shell.runPending io.status)) :
    let ran : SshConnection F := { x with session := some (shell.runPending io.status) }
    let es := (io :: rounds).map SshEvent.round
    sentBytes (Mealy.outputs SshConnection.serve x es) = sentBytes (Mealy.outputs SshConnection.serve ran es) ∧
      exitStatuses (Mealy.outputs SshConnection.serve x es) = exitStatuses (Mealy.outputs SshConnection.serve ran es) ∧
      (Mealy.Along SshConnection.serve SshConnection.QuietEvent x es ↔
        Mealy.Along SshConnection.serve SshConnection.QuietEvent ran es) := by
  obtain ⟨hnext, hsent, hclosed⟩ := serve_pending hx hopen hsftp io hran
  have hquiet : x.QuietEvent (.round io) ↔
      ({ x with session := some (shell.runPending io.status) } : SshConnection F).QuietEvent (.round io) := by
    have hidle : shell.Quiet io ↔ (shell.runPending io.status).Quiet io := by
      unfold Shell.Quiet
      rw [runPending_idle hran.execPending]
    constructor
    · rintro hquiet shell' io' hshell' hio'
      obtain rfl := Option.some.inj hshell'
      obtain rfl := SshEvent.round.inj hio'
      exact hidle.mp (hquiet shell io hx rfl)
    · rintro hquiet shell' io' hshell' hio'
      obtain rfl := Option.some.inj (hx.symm.trans hshell')
      obtain rfl := SshEvent.round.inj hio'
      exact hidle.mpr (hquiet _ io rfl rfl)
  simp only [List.map_cons, Mealy.outputs_cons, sentBytes_cons, exitStatuses_cons, Mealy.Along, hnext, hsent, hclosed, hquiet,
    and_self]

end ExecAux

open ExecAux

/-- When a channel with a command runs only that. On an open channel that no `sftp` subsystem has, the reply bytes and exit statuses
after an exec request are those without input, whatever the rounds, if all input that is read while the channel is open is
harmless. In runs whose writes go through and that close the channel, only then. -/
theorem exec_runs_only_command_iff (x : SshConnection F) (shell : Shell F) (command : Option Str) (rounds : List ChannelRound)
    (hsession : x.session = some shell) (hchannel : shell.channel.isSome) (hsftp : shell.sftp = none) :
    let start := (x.serve (.serv (.sessionExec command) true)).1
    let served := Mealy.outputs SshConnection.serve start (rounds.map .round)
    let silent := Mealy.outputs SshConnection.serve start ((rounds.map ChannelRound.silent).map .round)
    let quiet := Mealy.Along SshConnection.serve SshConnection.QuietEvent start (rounds.map .round)
    (quiet → sentBytes served = sentBytes silent ∧ exitStatuses served = exitStatuses silent) ∧
      ((∀ io ∈ rounds, ∃ count, io.write 0 = .written count) → exitStatuses served ≠ [] →
        (sentBytes served = sentBytes silent ∧ exitStatuses served = exitStatuses silent ↔ quiet)) := by
  have hstart : (x.serve (.serv (.sessionExec command) true)).1.session =
      some { shell with
        line := asBytes (command.getD []), pty := false, closeAfterReply := true, execPending := true } := by
    unfold SshConnection.serve
    rw [hsession]
    rfl
  intro start
  change start.session = _ at hstart
  generalize start = start at hstart
  dsimp only
  cases rounds with
  | nil => exact ⟨fun _ => ⟨rfl, rfl⟩, fun _ hclosed => absurd rfl hclosed⟩
  | cons io rounds =>
    obtain ⟨exit, text, hrun, -⟩ := runCommand_closing { shell with
        line := [], pty := false, closeAfterReply := true, execPending := false } ⟨rfl, rfl, rfl, hsftp⟩
      (asBytes (command.getD [])) io.status
    generalize hwaiting : ({ shell with
      line := asBytes (command.getD []), pty := false, closeAfterReply := true, execPending := true } : Shell F) = waiting at hstart
    have hpending : waiting.runPending io.status = { shell with
        line := [], pty := false, closeAfterReply := true, execPending := false, exitStatus := exit,
        reply := shell.reply ++ text } := by
      rw [← hwaiting]
      exact hrun
    have hran : Closing (waiting.runPending io.status) := by
      rw [hpending]
      exact ⟨rfl, rfl, rfl, hsftp⟩
    have hopen : waiting.channel.isSome := by rw [← hwaiting]; exact hchannel
    have hnone : waiting.sftp = none := by rw [← hwaiting]; exact hsftp
    obtain ⟨hsent, hclosed, hquiet⟩ := outputs_pending hstart hopen hnone io rounds hran
    obtain ⟨hsent', hclosed', -⟩ := outputs_pending hstart hopen hnone io.silent (rounds.map ChannelRound.silent) hran
    have hsilent : io.silent.status = io.status := rfl
    have hcons : io.silent :: rounds.map ChannelRound.silent = (io :: rounds).map ChannelRound.silent := rfl
    rw [hsilent, hcons] at hsent' hclosed'
    rw [hsent, hclosed, hquiet, hsent', hclosed']
    generalize hz : ({ start with session := some (waiting.runPending io.status) } : SshConnection F) = z
    have hsession : z.session = some (waiting.runPending io.status) := by rw [← hz]
    have hsame (halong : Mealy.Along SshConnection.serve SshConnection.QuietEvent z ((io :: rounds).map .round)) :=
      outputs_quiet (io :: rounds) (.inr ⟨waiting.runPending io.status, _, _, hran, hsession, hsession⟩) halong
    refine ⟨hsame, fun hwritten hcloses => ⟨fun hboth => ?_, hsame⟩⟩
    obtain ⟨hlength, hexits⟩ := outputs_silent (io :: rounds) hran hsession hwritten
    rw [← hboth.1] at hlength
    rw [← hboth.2] at hexits
    rcases outputs_closed (io :: rounds) hran hsession hwritten hcloses with hmore | ⟨-, ⟨hne, hzero⟩ | ⟨-, halong⟩⟩
    · exact absurd hlength (Nat.not_le_of_lt hmore)
    · rw [hzero] at hexits
      exact absurd (hexits 0 List.mem_cons_self).symm hne
    · exact halong

/-- An open channel on the empty card. -/
def openChannel : SshConnection Ram.fat := { session := some { channel := some 0 }, volume := {} }

/-- A blank line changes nothing after a command that is known. -/
theorem exec_runs_only_command_iff_ping :
    let start := (openChannel.serve (.serv (.sessionExec (some "ping".toList)) true)).1
    let rounds : List ChannelRound := [{ read := .data [13], write := fun _ => .written 2 }, { write := fun _ => .written 3 }]
    sentBytes (Mealy.outputs SshConnection.serve start (rounds.map .round)) = messageBytes "pong\n" ∧
      Mealy.Along SshConnection.serve SshConnection.QuietEvent start (rounds.map .round) := by
  intro start rounds
  have hrun := exec_runs_only_command_iff openChannel { channel := some 0 } (some "ping".toList) rounds rfl rfl rfl
  have hwritten : ∀ io ∈ rounds, ∃ count, io.write 0 = .written count := by
    intro io hio
    rcases List.mem_cons.mp hio with rfl | hio
    · exact ⟨2, rfl⟩
    · exact ⟨3, by rw [List.mem_singleton.mp hio]⟩
  refine ⟨by decide +kernel, ?_⟩
  refine (hrun.2 hwritten ?_).mp ⟨?_, ?_⟩
  · decide +kernel
  · decide +kernel
  · decide +kernel

/-- Input on a channel whose command is `ping`: its reply is followed by that of a command the client did not ask for, and the exit
status is that command's. -/
theorem stdin_runs_as_command :
    let start := (openChannel.serve (.serv (.sessionExec (some "ping".toList)) true)).1
    let io : ChannelRound := { read := .data (messageBytes "foo\n"), write := fun _ => .written 100 }
    let served := Mealy.outputs SshConnection.serve start [.round io]
    let silent := Mealy.outputs SshConnection.serve start [.round io.silent]
    (sentBytes served = messageBytes "pong\nunknown command: foo\n" ∧ exitStatuses served = [127]) ∧
      (sentBytes silent = messageBytes "pong\n" ∧ exitStatuses silent = [0]) := by
  refine ⟨⟨?_, ?_⟩, ?_, ?_⟩
  · decide +kernel
  · decide +kernel
  · decide +kernel
  · decide +kernel

end Ratputer
