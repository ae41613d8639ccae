import Ratputer.Theorems.SshExec

/-!
# The reply that waits

A round reads input whether or not the replies before it have drained, so a client that keeps its window closed makes the reply
grow. It is bounded exactly under the rule that the `sftp` subsystem follows: nothing is read while more than a fixed number of
bytes wait.
-/

namespace Ratputer

variable {V : Type} {F : Fat V}

/-- The bytes of the reply that the channel has not taken. -/
def SshConnection.pending (x : SshConnection F) : Nat :=
  match x.session with
  | some shell => shell.reply.length
  | none => 0

/-- A shell that takes input, with no command waiting. -/
structure Shell.Serving (shell : Shell F) : Prop where
  sftp : shell.sftp = none
  execPending : shell.execPending = false
  line : shell.line.length ≤ MAX_LINE

/-- The values are those of their machine types. -/
structure ShellStatus.Fits (status : ShellStatus) : Prop where
  heapFree : status.heapFree < 2 ^ 64
  heapFreeMin : status.heapFreeMin < 2 ^ 64
  uptimeMs : status.uptimeMs < 2 ^ 64
  loopMaxMs : status.loopMaxMs < 2 ^ 64

/-- An event that reads input only while at most `K` bytes of the reply wait. -/
def SshConnection.ReadsBelow (K : Nat) (x : SshConnection F) (e : SshEvent V) : Prop :=
  ∀ shell io bytes, x.session = some shell → e = .round io → shell.channel.isSome → io.read = .data bytes → bytes ≠ [] →
    shell.reply.length ≤ K

/-- A bound on what a byte of input adds to the reply: that of the longest line with its line ending, reply and prompt. -/
def MAX_REPLY : Nat := 1175

namespace ReplyAux

open SshConnection

variable {shell shell' : Shell F} {x : SshConnection F} {status : ShellStatus}

/-! ## What a command adds -/

/-- Line ends become twice as long at most. -/
theorem length_crlf_le (pty : Bool) (text : List UInt8) :
    (text.flatMap fun byte => if byte = 10 ∧ pty then [13, byte] else [byte]).length ≤ 2 * text.length := by
  induction text with
  | nil => exact Nat.le_refl _
  | cons byte text ih =>
    rw [List.flatMap_cons, List.length_append, List.length_cons]
    split
    · rw [List.length_cons, List.length_singleton]
      omega
    · rw [List.length_singleton]
      omega

/-- The status of the device fits in 146 bytes. -/
theorem length_statusLine_le (h : status.Fits) : (statusLine status).length ≤ 146 := by
  have := Octets.length_toDigits_le h.heapFree
  have := Octets.length_toDigits_le h.heapFreeMin
  have := Octets.length_toDigits_le h.uptimeMs
  have := Octets.length_toDigits_le h.loopMaxMs
  have huptime : "uptime_ms=".toList.length = 10 := by decide
  have hfree : " heap_free=".toList.length = 11 := by decide
  have hmin : " heap_free_min=".toList.length = 15 := by decide
  have hloop : " loop_max_ms=".toList.length = 13 := by decide
  unfold statusLine
  rw [List.length_append, List.length_append, List.length_append, List.length_append, List.length_append, List.length_append,
    List.length_append, List.length_append, huptime, hfree, hmin, hloop, List.length_singleton]
  omega

/-- The characters of a command's reply: no more than the command's and those of `status`. -/
theorem length_commandReply_le (h : status.Fits) {command : Str} (hc : command.length ≤ MAX_LINE) :
    (shell.commandReply command status).2.length ≤ 146 := by
  unfold Shell.commandReply
  by_cases hnil : command = []
  · rw [if_pos hnil]
    exact Nat.zero_le _
  by_cases hhelp : command = "help".toList
  · rw [if_neg hnil, if_pos hhelp]
    exact (by decide : ("commands: help status ping exit\n".toList).length ≤ 146)
  by_cases hping : command = "ping".toList
  · rw [if_neg hnil, if_neg hhelp, if_pos hping]
    exact (by decide : ("pong\n".toList).length ≤ 146)
  by_cases hstatus : command = "status".toList
  · rw [if_neg hnil, if_neg hhelp, if_neg hping, if_pos hstatus]
    exact length_statusLine_le h
  rw [if_neg hnil, if_neg hhelp, if_neg hping, if_neg hstatus]
  by_cases hexit : command = "exit".toList ∨ command = "logout".toList
  · rw [if_pos hexit]
    exact (by decide : ("bye\n".toList).length ≤ 146)
  · have hunknown : "unknown command: ".toList.length = 17 := by decide
    rw [if_neg hexit, List.length_append, List.length_append, hunknown, List.length_singleton]
    unfold MAX_LINE at hc
    omega

/-- Trimming makes no line longer. -/
theorem length_trim_le (s : Str) : (trim s).length ≤ s.length := by
  unfold trim
  have h := (List.dropWhile_sublist isWhitespace (l := (s.dropWhile isWhitespace).reverse)).length_le
  have h' := (List.dropWhile_sublist isWhitespace (l := s)).length_le
  rw [List.length_reverse] at h ⊢
  omega

/-- A line has no more characters than octets. -/
theorem length_decode_le (line : List UInt8) : ((Utf8.decode line).getD []).length ≤ line.length := by
  cases h : Utf8.decode line with
  | none => exact Nat.zero_le _
  | some cs =>
    have hlen := Utf8.length_le_length_encode cs
    rw [Utf8.encode_of_decode line cs h] at hlen
    exact hlen

/-- A command's own reply is not queued yet. -/
theorem commandReply_fields (shell : Shell F) (command : Str) (status : ShellStatus) :
    (shell.commandReply command status).1.reply = shell.reply ∧ (shell.commandReply command status).1.line = shell.line ∧
      (shell.commandReply command status).1.sftp = shell.sftp ∧
      (shell.commandReply command status).1.execPending = shell.execPending := by
  unfold Shell.commandReply
  repeat' split
  all_goals exact ⟨rfl, rfl, rfl, rfl⟩

/-- A prompt takes five bytes at most. -/
theorem pushPrompt_fields (shell : Shell F) :
    shell.pushPrompt.reply.length ≤ shell.reply.length + 5 ∧ shell.pushPrompt.line = shell.line ∧
      shell.pushPrompt.sftp = shell.sftp ∧ shell.pushPrompt.execPending = shell.execPending := by
  unfold Shell.pushPrompt
  split
  · exact ⟨by omega, rfl, rfl, rfl⟩
  · have hprompt : (messageBytes "rat$ ").length = 5 := by decide
    refine ⟨?_, rfl, rfl, rfl⟩
    rw [List.length_append, hprompt]

/-- Text and a prompt: at most two octets for one of the text. -/
theorem push_fields (shell : Shell F) (text : List UInt8) :
    (shell.pushText text).pushPrompt.reply.length ≤ shell.reply.length + 2 * text.length + 5 ∧
      (shell.pushText text).pushPrompt.line = shell.line ∧ (shell.pushText text).pushPrompt.sftp = shell.sftp ∧
      (shell.pushText text).pushPrompt.execPending = shell.execPending := by
  obtain ⟨hreply, hline, hsftp, hpending⟩ := pushPrompt_fields (shell.pushText text)
  refine ⟨?_, hline, hsftp, hpending⟩
  have htext : (shell.pushText text).reply.length ≤ shell.reply.length + 2 * text.length := by
    unfold Shell.pushText
    rw [List.length_append]
    have := length_crlf_le shell.pty text
    omega
  omega

/-- A command queues its reply and its prompt. -/
theorem runCommand_fields (shell : Shell F) (h : status.Fits) {line : List UInt8} (hline : line.length ≤ MAX_LINE) :
    (shell.runCommand line status).reply.length ≤ shell.reply.length + 1173 ∧
      (shell.runCommand line status).line = shell.line ∧ (shell.runCommand line status).sftp = shell.sftp ∧
      (shell.runCommand line status).execPending = shell.execPending := by
  unfold Shell.runCommand
  dsimp only
  generalize hcommand : (trim ((Utf8.decode line).getD [])).map toAsciiLowercase = command
  have hlength : command.length ≤ MAX_LINE := by
    rw [← hcommand, List.length_map]
    exact ((length_trim_le _).trans (length_decode_le line)).trans hline
  have htext : (Shell.commandReply { shell with exitStatus := 0 } command status).2.length ≤ 146 :=
    length_commandReply_le h hlength
  obtain ⟨hreply, hline', hsftp, hpending⟩ := commandReply_fields { shell with exitStatus := 0 } command status
  generalize Shell.commandReply { shell with exitStatus := 0 } command status = r at *
  obtain ⟨hpush, hpush', hpush'', hpush'''⟩ := push_fields r.1 (asBytes r.2)
  have hbytes : (asBytes r.2).length ≤ 4 * r.2.length := Utf8.length_encode_le r.2
  rw [hreply] at hpush
  dsimp only at hpush
  exact ⟨by omega, hpush'.trans hline', hpush''.trans hsftp, hpush'''.trans hpending⟩

/-! ## What input adds -/

/-- A byte of input queues a reply at most. -/
theorem inputByte_serving (h : status.Fits) (hs : shell.Serving) (byte : UInt8) :
    (shell.inputByte status byte).Serving ∧ (shell.inputByte status byte).reply.length ≤ shell.reply.length + MAX_REPLY := by
  have hcommand (reply : List UInt8) (hreply : reply.length ≤ shell.reply.length + 2) :
      (Shell.runCommand { shell with line := [], reply } shell.line status).Serving ∧
        (Shell.runCommand { shell with line := [], reply } shell.line status).reply.length ≤ shell.reply.length + MAX_REPLY := by
    obtain ⟨hlength, hline, hsftp, hpending⟩ := runCommand_fields { shell with line := [], reply } h hs.line
    refine ⟨⟨hsftp.trans hs.sftp, hpending.trans hs.execPending, ?_⟩, ?_⟩
    · rw [hline]
      exact Nat.zero_le _
    · dsimp only at hlength
      unfold MAX_REPLY
      omega
  have hedit (line reply : List UInt8) (hline : line.length ≤ MAX_LINE) (hreply : reply.length ≤ shell.reply.length + 3) :
      ({ shell with line, reply } : Shell F).Serving ∧ reply.length ≤ shell.reply.length + MAX_REPLY := by
    refine ⟨⟨hs.sftp, hs.execPending, hline⟩, ?_⟩
    unfold MAX_REPLY
    omega
  have hecho (text : List UInt8) (ht : text.length ≤ 3) : (shell.reply ++ text).length ≤ shell.reply.length + 3 := by
    rw [List.length_append]
    omega
  unfold Shell.inputByte
  dsimp only
  split
  · split
    · exact hcommand _ (by rw [List.length_append]; exact Nat.le_refl _)
    · exact hcommand _ (by omega)
  split
  · split
    · exact ⟨hs, by omega⟩
    have hline : shell.line.dropLast.length ≤ MAX_LINE := by
      rw [List.length_dropLast]
      exact (Nat.sub_le _ _).trans hs.line
    split
    · exact hedit _ _ hline (hecho _ (by decide))
    · exact hedit _ _ hline (by omega)
  split
  · obtain ⟨hlength, hline, hsftp, hpending⟩ := push_fields ({ shell with line := [] } : Shell F) (messageBytes "^C\n")
    have hnote : (messageBytes "^C\n").length = 3 := by decide
    refine ⟨⟨hsftp.trans hs.sftp, hpending.trans hs.execPending, ?_⟩, ?_⟩
    · rw [hline]
      exact Nat.zero_le _
    · rw [hnote] at hlength
      dsimp only at hlength
      unfold MAX_REPLY
      omega
  split
  · exact ⟨⟨hs.sftp, hs.execPending, hs.line⟩, by dsimp only; omega⟩
  split
  · rename_i hprint
    have hline : (shell.line ++ [byte]).length ≤ MAX_LINE := by
      rw [List.length_append, List.length_singleton]
      exact hprint.2.2
    split
    · exact hedit _ _ hline (hecho [byte] (by rw [List.length_singleton]; omega))
    · exact hedit _ _ hline (by omega)
  · exact ⟨hs, by omega⟩

/-- Input queues a reply a byte at most. -/
theorem shellInput_serving (h : status.Fits) (hs : shell.Serving) (bytes : List UInt8) :
    (shell.shellInput bytes status).Serving ∧
      (shell.shellInput bytes status).reply.length ≤ shell.reply.length + bytes.length * MAX_REPLY := by
  induction bytes generalizing shell with
  | nil => exact ⟨hs, by rw [List.length_nil, Nat.zero_mul]; exact Nat.le_refl _⟩
  | cons byte bytes ih =>
    obtain ⟨hbyte, hlength⟩ := inputByte_serving h hs byte
    obtain ⟨hbytes, hlength'⟩ := ih hbyte
    refine ⟨hbytes, hlength'.trans ?_⟩
    rw [List.length_cons, Nat.succ_mul]
    omega

/-! ## Rounds -/

/-- What a round reads extends the reply by what 128 bytes may add, and nothing does that is not read. -/
theorem readInput_serving (h : status.Fits) (hs : shell.Serving) {read : ChannelRead} {got : Bool}
    (hread : shell.readInput status read = some (shell', got)) :
    shell'.Serving ∧ (shell'.reply.length ≤ shell.reply.length ∨
      (∃ bytes, read = .data bytes ∧ bytes ≠ []) ∧ shell'.reply.length ≤ shell.reply.length + 128 * MAX_REPLY) := by
  cases read with
  | data bytes =>
    injection hread with hread
    injection hread with hread _
    obtain ⟨hserving, hlength⟩ := shellInput_serving h hs (bytes.take 128)
    rw [hread] at hserving hlength
    refine ⟨hserving, ?_⟩
    by_cases hnil : bytes = []
    · rw [hnil, List.take_nil, List.length_nil, Nat.zero_mul] at hlength
      exact .inl hlength
    · refine .inr ⟨⟨bytes, rfl, hnil⟩, hlength.trans ?_⟩
      have htake : (bytes.take 128).length ≤ 128 := List.length_take_le ..
      have := Nat.mul_le_mul_right MAX_REPLY htake
      omega
  | eof =>
    injection hread with hread
    injection hread with hread _
    rw [← hread]
    exact ⟨⟨hs.sftp, hs.execPending, hs.line⟩, .inl (Nat.le_refl _)⟩
  | error => nomatch hread

/-- Sending only shortens what is queued. -/
theorem sendReply_serving (hs : shell.Serving) {write : ChannelWrite} {sent : List UInt8}
    (hsend : shell.sendReply write = some (shell', sent)) : shell'.Serving ∧ shell'.reply.length ≤ shell.reply.length := by
  unfold Shell.sendReply at hsend
  split at hsend
  · injection hsend with hsend
    injection hsend with hsend _
    rw [← hsend]
    exact ⟨hs, Nat.le_refl _⟩
  · split at hsend
    · injection hsend with hsend
      injection hsend with hsend _
      rw [← hsend]
      exact ⟨⟨hs.sftp, hs.execPending, hs.line⟩, (List.drop_sublist ..).length_le⟩
    · injection hsend with hsend
      injection hsend with hsend _
      rw [← hsend]
      exact ⟨⟨hs.sftp, hs.execPending, hs.line⟩, Nat.zero_le _⟩
    · nomatch hsend

/-- A round extends the reply only if it reads, and then by no more than what 128 bytes may add. -/
theorem channelShell_serving (h : status.Fits) (hs : shell.Serving) {read : ChannelRead} {write : ChannelWrite} {served : Served}
    (hround : shell.channelShell status read write = some (shell', served)) :
    shell'.Serving ∧ (shell'.reply.length ≤ shell.reply.length ∨
      (shell.channel.isSome ∧ ∃ bytes, read = .data bytes ∧ bytes ≠ []) ∧
        shell'.reply.length ≤ shell.reply.length + 128 * MAX_REPLY) := by
  unfold Shell.channelShell at hround
  rw [ExecAux.runPending_idle hs.execPending] at hround
  dsimp only at hround
  split at hround
  · injection hround with hround
    injection hround with hround _
    rw [← hround]
    exact ⟨hs, .inl (Nat.le_refl _)⟩
  · rename_i hopen
    simp only [Option.bind_eq_bind, Option.pure_def, Option.bind_eq_some_iff] at hround
    obtain ⟨⟨shell₁, got⟩, hread, ⟨shell₂, sent⟩, hsend, hround⟩ := hround
    obtain ⟨hserving₁, hlength₁⟩ := readInput_serving h hs hread
    obtain ⟨hserving₂, hlength₂⟩ := sendReply_serving hserving₁ hsend
    have hlast : shell'.Serving ∧ shell'.reply.length = shell₂.reply.length := by
      dsimp only at hround
      split at hround
      · injection hround with hround
        injection hround with hround _
        rw [← hround]
        exact ⟨⟨hserving₂.sftp, hserving₂.execPending, hserving₂.line⟩, rfl⟩
      · injection hround with hround
        injection hround with hround _
        rw [← hround]
        exact ⟨hserving₂, rfl⟩
    refine ⟨hlast.1, ?_⟩
    rcases hlength₁ with hkept | ⟨hdata, hgrown⟩
    · exact .inl (by omega)
    · refine .inr ⟨⟨?_, hdata⟩, by omega⟩
      rw [← Option.not_isNone, Bool.not_eq_true']
      exact Bool.not_eq_true _ ▸ hopen

/-- The shell of the connection takes input, and at most `B` bytes of its reply wait. -/
def Within (B : Nat) (x : SshConnection F) : Prop :=
  ∀ shell, x.session = some shell → shell.Serving ∧ shell.reply.length ≤ B

/-- What is pending is within the bound. -/
theorem pending_le {B : Nat} (h : Within B x) : x.pending ≤ B := by
  unfold pending
  split
  · exact (h _ ‹_›).2
  · exact Nat.zero_le _

/-- The bound on the reply is kept where nothing is read above `K`. -/
theorem within_serve {K B : Nat} (hB : K + 128 * MAX_REPLY ≤ B) (h : Within B x) {io : ChannelRound} (hstatus : io.status.Fits)
    (hreads : x.ReadsBelow K (.round io)) : Within B (x.serve (.round io)).1 := by
  cases hsession : x.session with
  | none =>
    unfold serve
    rw [hsession]
    exact h
  | some shell =>
    obtain ⟨hs, hlength⟩ := h shell hsession
    rw [ExecAux.serve_round hsession hs.sftp]
    cases hround : shell.channelShell io.status io.read (io.write 0) with
    | none => exact fun _ hover => nomatch hover
    | some r =>
      intro shell' hshell'
      obtain rfl := Option.some.inj hshell'
      obtain ⟨hserving, hkept | ⟨⟨hopen, bytes, hdata, hne⟩, hgrown⟩⟩ := channelShell_serving hstatus hs hround
      · exact ⟨hserving, hkept.trans hlength⟩
      · have := hreads shell io bytes hsession rfl hopen hdata hne
        exact ⟨hserving, by omega⟩

/-- After a run whose rounds read below `K` it is too. -/
theorem pending_final_le {K B : Nat} (hB : K + 128 * MAX_REPLY ≤ B) (h : Within B x) {rounds : List ChannelRound}
    (hstatus : ∀ io ∈ rounds, io.status.Fits) (hreads : Mealy.Along serve (ReadsBelow K) x (rounds.map .round)) :
    (Mealy.final serve x (rounds.map .round)).pending ≤ B := by
  induction rounds generalizing x with
  | nil => exact pending_le h
  | cons io rounds ih =>
    exact ih (within_serve hB h (hstatus io List.mem_cons_self) hreads.1) (fun io' hio' => hstatus io' (List.mem_cons_of_mem io hio'))
      hreads.2

end ReplyAux

open ReplyAux SshConnection

/-- When the reply that waits is bounded. Of the schedules of a shell channel, whatever its reply and line are at first, those of a
set that is closed under prefixes keep the reply below one bound if and only if there is one number such that none of them reads
input while more bytes than that wait. -/
theorem reply_bounded_iff (x : SshConnection F) (shell : Shell F) (hsession : x.session = some shell) (hserving : shell.Serving)
    (S : Set (List ChannelRound)) (hstart : ∀ rounds ∈ S, ∀ before, before <+: rounds → before ∈ S)
    (hstatus : ∀ rounds ∈ S, ∀ io ∈ rounds, io.status.Fits) :
    (∃ B, ∀ rounds ∈ S, (Mealy.final serve x (rounds.map .round)).pending ≤ B) ↔
      ∃ K, ∀ rounds ∈ S, Mealy.Along serve (ReadsBelow K) x (rounds.map .round) := by
  constructor
  · rintro ⟨B, hB⟩
    refine ⟨B, fun rounds hrounds => Mealy.along_iff_forall.mpr ?_⟩
    rintro before e after heq shell' io bytes hsession' - - - -
    obtain ⟨rounds₁, rounds₂, rfl, rfl, -⟩ := List.map_eq_append_iff.mp heq
    have hpending := hB rounds₁ (hstart _ hrounds rounds₁ (List.prefix_append ..))
    unfold pending at hpending
    rw [hsession'] at hpending
    exact hpending
  · rintro ⟨K, hK⟩
    refine ⟨max shell.reply.length (K + 128 * MAX_REPLY), fun rounds hrounds => ?_⟩
    refine pending_final_le (Nat.le_max_right ..) ?_ (hstatus rounds hrounds) (hK rounds hrounds)
    intro shell' hshell'
    obtain rfl := Option.some.inj (hsession.symm.trans hshell')
    exact ⟨hserving, Nat.le_max_left ..⟩

/-- A connection whose shell has sent its banner. -/
def shellChannel : SshConnection Ram.fat := { session := some { channel := some 0 }, volume := {} }

/-- A line ending that comes while the window is closed. -/
def blankLine : ChannelRound := { read := .data [13] }

/-- An empty line queues a prompt. -/
theorem serve_blankLine (reply : List UInt8) :
    (serve { session := some { channel := some 0, reply }, volume := {} } (.round blankLine) : SshConnection Ram.fat × Served).1 =
      { session := some { channel := some 0, reply := reply ++ messageBytes "rat$ " }, volume := {} } := by
  have hprompt : reply ++ messageBytes "rat$ " ≠ [] := List.append_ne_nil_of_right_ne_nil _ (by decide)
  have hread : Shell.readInput ({ channel := some 0, reply } : Shell Ram.fat) blankLine.status blankLine.read =
      some ({ channel := some 0, reply := (reply ++ []) ++ messageBytes "rat$ " }, true) := rfl
  rw [List.append_nil] at hread
  have hsend : Shell.sendReply ({ channel := some 0, reply := reply ++ messageBytes "rat$ " } : Shell Ram.fat)
      (blankLine.write 0) = some ({ channel := some 0, reply := reply ++ messageBytes "rat$ " }, []) := by
    unfold Shell.sendReply
    rw [if_neg hprompt]
    rfl
  rw [ExecAux.serve_round rfl rfl]
  unfold Shell.channelShell
  rw [ExecAux.runPending_idle rfl]
  simp only [hread, Option.isNone_some, Bool.false_eq_true, if_false, Option.bind_eq_bind, Option.bind_some, hsend, false_and]
  rfl

/-- A round in which the channel takes a prompt. -/
def promptTaken : ChannelRound := { write := fun _ => .written 5 }

/-- The prompt is taken. -/
theorem serve_promptTaken :
    (serve { session := some { channel := some 0, reply := messageBytes "rat$ " }, volume := {} } (.round promptTaken) :
      SshConnection Ram.fat × Served).1 = shellChannel := by
  rw [ExecAux.serve_round rfl rfl]
  rfl

/-- The schedules that read only while nothing of the reply waits. -/
def ReadsDrained : Set (List ChannelRound) :=
  { rounds | (∀ io ∈ rounds, io.status = {}) ∧ Mealy.Along serve (ReadsBelow 0) shellChannel (rounds.map .round) }

/-- Lines that are each read when the prompt of the line before has been taken. -/
theorem lines_read_drained (n : Nat) : (List.replicate n [blankLine, promptTaken]).flatten ∈ ReadsDrained := by
  refine ⟨fun io hio => ?_, ?_⟩
  · obtain ⟨line, hline, hio⟩ := List.mem_flatten.mp hio
    rw [List.eq_of_mem_replicate hline] at hio
    rcases List.mem_pair.mp hio with rfl | rfl
    · rfl
    · rfl
  induction n with
  | zero => trivial
  | succ n ih =>
    have hstart : (serve shellChannel (.round blankLine)).1 =
        { session := some { channel := some 0, reply := messageBytes "rat$ " }, volume := {} } := serve_blankLine []
    rw [List.replicate_succ, List.flatten_cons]
    refine ⟨?_, ?_, ?_⟩
    · rintro shell io bytes hshell - - - -
      cases hshell
      exact Nat.le_refl 0
    · rintro shell io bytes - hio - hdata hne
      cases hio
      exact absurd (ChannelRead.data.inj hdata).symm hne
    · rw [hstart, serve_promptTaken]
      exact ih

/-- Schedules that read while nothing waits, such as any number of line endings whose prompts are taken between them. -/
theorem reply_bounded_iff_drained :
    (∃ B, ∀ rounds ∈ ReadsDrained, (Mealy.final serve shellChannel (rounds.map .round)).pending ≤ B) ∧
      ∀ n, (List.replicate n [blankLine, promptTaken]).flatten ∈ ReadsDrained := by
  refine ⟨(reply_bounded_iff shellChannel { channel := some 0 } rfl ⟨rfl, rfl, Nat.zero_le _⟩ ReadsDrained ?_ ?_).mpr
    ⟨0, fun rounds hrounds => hrounds.2⟩, lines_read_drained⟩
  · rintro rounds ⟨hstatus, halong⟩ before ⟨after, rfl⟩
    rw [List.map_append] at halong
    exact ⟨fun io hio => hstatus io (List.mem_append_left _ hio), (Mealy.along_append.mp halong).1⟩
  · intro rounds hrounds io hio
    rw [hrounds.1 io hio]
    exact ⟨by decide, by decide, by decide, by decide⟩

/-- There is no bound: every line ending adds a prompt, and nothing is sent. -/
theorem reply_unbounded :
    ¬ ∃ B, ∀ rounds : List ChannelRound, (∀ io ∈ rounds, io.write 0 = .written 0) →
      (Mealy.final serve shellChannel (rounds.map .round)).pending ≤ B := by
  have hrun (n : Nat) (reply : List UInt8) :
      n + reply.length ≤ (Mealy.final serve ({ session := some { channel := some 0, reply }, volume := {} } : SshConnection Ram.fat)
        ((List.replicate n blankLine).map .round)).pending := by
    induction n generalizing reply with
    | zero => exact (Nat.zero_add _).le
    | succ n ih =>
      rw [List.replicate_succ, List.map_cons, Mealy.final_cons, serve_blankLine]
      refine (ih _).trans' ?_
      have hprompt : (messageBytes "rat$ ").length = 5 := by decide
      rw [List.length_append, hprompt]
      omega
  rintro ⟨B, hB⟩
  have hbound := hB (List.replicate (B + 1) blankLine) fun io hio => by
    rw [List.eq_of_mem_replicate hio]
    rfl
  exact absurd ((hrun (B + 1) []).trans hbound) (Nat.not_le_of_lt (Nat.lt_succ_self B))

end Ratputer
