import Ratputer.Sftp.Channel

/-!
# The SSH session

The channel of `ssh.rs`: the events that the SSH library reports, the shell with its commands, and the rounds that move channel
data, on one connection. The library is outside the model: what it reports to be read and written, and whether it takes an
answer, is part of the event. The log, the name of the peer and what only the timeouts of the connection read are left out.
-/

namespace Ratputer

variable {V : Type} {F : Fat V}

def MAX_LINE : Nat := 128

/-- Values the shell's `status` command reports. -/
structure ShellStatus where
  heapFree : Nat := 0
  heapFreeMin : Nat := 0
  uptimeMs : Nat := 0
  loopMaxMs : Nat := 0
  deriving Repr, DecidableEq

/-- Everything of a session except the library's part. -/
structure Shell (F : Fat V) where
  channel : Option Nat := none
  /-- Terminal requested: echo input and translate newlines. -/
  pty : Bool := false
  /-- Close the channel once the reply is sent. -/
  closeAfterReply : Bool := false
  line : List UInt8 := []
  reply : List UInt8 := []
  /-- Run `line` on the next channel poll. -/
  execPending : Bool := false
  /-- Reported to the client when the channel closes (127 = unknown). -/
  exitStatus : Nat := 0
  /-- The channel runs the `sftp` subsystem instead of the shell. -/
  sftp : Option (Sftp F) := none

/-- The events of the SSH library. A request's command is `none` where the library cannot read it. -/
inductive ServEvent
  | hostkeys
  | firstAuth
  | passwordAuth (userOk passwordOk : Bool)
  | pubkeyAuth
  | authenticated
  | openSession (channel : Nat)
  | sessionPty
  | sessionShell
  | sessionExec (command : Option Str)
  | sessionSubsystem (command : Option Str)
  | sessionEnv
  | defunct
  | pollAgain
  deriving Repr, DecidableEq

/-- What the server answers to an event. -/
inductive ServAnswer
  | hostkeys | setAuthMethods | allow | accept | reject | succeed | fail
  deriving Repr, DecidableEq

/-- What `read_channel` reports. -/
inductive ChannelRead
  | data (bytes : List UInt8)
  | eof
  | error
  deriving Repr, DecidableEq

/-- What `write_channel` reports. -/
inductive ChannelWrite
  | written (count : Nat)
  | eof
  | error
  deriving Repr, DecidableEq

/-- What one event of a connection shows: the answer to a request, the bytes that `write_channel` takes, the exit status with
which the channel is closed, whether anything moved, and whether the session ends. -/
structure Served where
  answer : Option ServAnswer := none
  sent : List UInt8 := []
  closed : Option Nat := none
  moved : Bool := false
  ended : Bool := false
  deriving Repr, DecidableEq

/-! ## Commands -/

/-- Rust's `char::is_whitespace`. -/
def isWhitespace (c : Char) : Bool :=
  let n := c.toNat
  9 ≤ n && n ≤ 13 || 0x2000 ≤ n && n ≤ 0x200a || n ∈ [0x20, 0x85, 0xa0, 0x1680, 0x2028, 0x2029, 0x202f, 0x205f, 0x3000]

def trim (s : Str) : Str := ((s.dropWhile isWhitespace).reverse.dropWhile isWhitespace).reverse

/-- The reply of the `status` command. -/
def statusLine (status : ShellStatus) : Str :=
  "uptime_ms=".toList ++ Nat.toDigits 10 status.uptimeMs ++ " heap_free=".toList ++ Nat.toDigits 10 status.heapFree ++
    " heap_free_min=".toList ++ Nat.toDigits 10 status.heapFreeMin ++ " loop_max_ms=".toList ++
    Nat.toDigits 10 status.loopMaxMs ++ ['\n']

namespace Shell

variable (shell : Shell F)

def pushText (text : List UInt8) : Shell F :=
  { shell with reply := shell.reply ++ text.flatMap fun byte => if byte = 10 ∧ shell.pty then [13, byte] else [byte] }

def pushPrompt : Shell F :=
  if shell.closeAfterReply then shell else { shell with reply := shell.reply ++ messageBytes "rat$ " }

/-- The state that a command leaves and its reply. -/
def commandReply (command : Str) (status : ShellStatus) : Shell F × Str :=
  if command = [] then (shell, [])
  else if command = "help".toList then (shell, "commands: help status ping exit\n".toList)
  else if command = "ping".toList then (shell, "pong\n".toList)
  else if command = "status".toList then (shell, statusLine status)
  else if command = "exit".toList ∨ command = "logout".toList then ({ shell with closeAfterReply := true }, "bye\n".toList)
  else ({ shell with exitStatus := 127 }, "unknown command: ".toList ++ command ++ ['\n'])

def runCommand (line : List UInt8) (status : ShellStatus) : Shell F :=
  let command := (trim ((Utf8.decode line).getD [])).map toAsciiLowercase
  let (shell, reply) := commandReply { shell with exitStatus := 0 } command status
  (shell.pushText (asBytes reply)).pushPrompt

/-- One byte of input: line editing, with echo on a terminal, and command execution. -/
def inputByte (status : ShellStatus) (byte : UInt8) : Shell F :=
  if byte = 0x0d ∨ byte = 0x0a then
    let shell := if shell.pty then { shell with reply := shell.reply ++ [0x0d, 0x0a] } else shell
    runCommand { shell with line := [] } shell.line status
  else if byte = 0x08 ∨ byte = 0x7f then
    if shell.line = [] then shell
    else
      { shell with
        line := shell.line.dropLast
        reply := if shell.pty then shell.reply ++ [0x08, 0x20, 0x08] else shell.reply }
  else if byte = 0x03 then (pushText { shell with line := [] } (messageBytes "^C\n")).pushPrompt
  else if byte = 0x04 then { shell with closeAfterReply := true }
  else if 0x20 ≤ byte ∧ byte ≤ 0x7e ∧ shell.line.length < MAX_LINE then
    { shell with
      line := shell.line ++ [byte]
      reply := if shell.pty then shell.reply ++ [byte] else shell.reply }
  else shell

def shellInput (bytes : List UInt8) (status : ShellStatus) : Shell F :=
  bytes.foldl (fun shell byte => shell.inputByte status byte) shell

/-! ## Events -/

/-- The session goes on if the library takes the answer. -/
def answered (taken : Bool) (answer : ServAnswer) : Option (Shell F × Option ServAnswer) :=
  if taken then some (shell, some answer) else none

/-- The state after an event and the answer; `none` ends the session. -/
def handleEvent (volume : V) (event : ServEvent) (taken : Bool) : Option (Shell F × Option ServAnswer) :=
  match event with
  | .hostkeys => shell.answered taken .hostkeys
  | .firstAuth => shell.answered taken .setAuthMethods
  | .passwordAuth userOk passwordOk => shell.answered taken (if userOk && passwordOk then .allow else .reject)
  | .pubkeyAuth => shell.answered taken .reject
  | .authenticated => some (shell, none)
  | .openSession channel =>
    if shell.channel.isNone then answered { shell with channel := some channel } taken .accept
    else shell.answered taken .reject
  | .sessionPty => answered { shell with pty := true } taken .succeed
  | .sessionShell =>
    (shell.pushText (messageBytes "RATPUTER SSH - type 'help' for commands\n")).pushPrompt.answered taken .succeed
  | .sessionExec command =>
    -- no terminal: plain newlines, no prompt, close after the reply
    answered { shell with
      line := asBytes (command.getD [])
      pty := false
      closeAfterReply := true
      execPending := true } taken .succeed
  | .sessionSubsystem command =>
    if command = some "sftp".toList ∧ shell.sftp.isNone then answered { shell with sftp := some (.new volume) } taken .succeed
    else shell.answered taken .fail
  | .sessionEnv => shell.answered taken .fail
  | .defunct => none
  | .pollAgain => some (shell, none)

/-! ## Channel data -/

/-- Run the command of an exec request. -/
def runPending (status : ShellStatus) : Shell F :=
  if shell.execPending then runCommand { shell with execPending := false, line := [] } shell.line status else shell

/-- Read input from the channel, at most 128 bytes. -/
def readInput (status : ShellStatus) : ChannelRead → Option (Shell F × Bool)
  | .data bytes => some (shell.shellInput (bytes.take 128) status, bytes ≠ [])
  | .eof => some ({ shell with closeAfterReply := true }, false)
  | .error => none

/-- Offer the reply to the channel: what is left, and the bytes taken. -/
def sendReply (write : ChannelWrite) : Option (Shell F × List UInt8) :=
  if shell.reply = [] then some (shell, [])
  else
    match write with
    | .written count => some ({ shell with reply := shell.reply.drop count }, shell.reply.take count)
    | .eof => some ({ shell with reply := [] }, [])
    | .error => none

/-- The interactive shell or exec channel; `none` ends the session. -/
def channelShell (status : ShellStatus) (read : ChannelRead) (write : ChannelWrite) : Option (Shell F × Served) := do
  let pending := shell.runPending status
  if pending.channel.isNone then return (pending, { moved := shell.execPending })
  let (shell', got) ← pending.readInput status read
  let (shell', sent) ← shell'.sendReply write
  let moved := shell.execPending || got || sent ≠ []
  if shell'.closeAfterReply ∧ shell'.reply = [] then
    return ({ shell' with channel := none }, { sent, closed := some shell'.exitStatus, moved := true })
  return (shell', { sent, moved })

end Shell

/-- What one round of a poll finds: the card, the time, and what the library reports of the channel. -/
structure ChannelRound where
  mounted : Bool := true
  ctx : Ctx := {}
  status : ShellStatus := {}
  read : ChannelRead := .data []
  write : Nat → ChannelWrite := fun _ => .written 0

/-- A connection and the mounted volume. Without a session it is over. -/
structure SshConnection (F : Fat V) where
  session : Option (Shell F) := some {}
  volume : V

/-- What a connection is driven with: events of the library, the start of a poll, rounds of channel data, and changes of the card
by others between polls. -/
inductive SshEvent (V : Type)
  | serv (event : ServEvent) (taken : Bool)
  | beginPoll
  | round (io : ChannelRound)
  | card (volume : V)

namespace SshConnection

variable (x : SshConnection F)

/-- The connection whose session has ended. -/
def finish : SshConnection F × Served := ({ x with session := none }, { ended := true })

/-- A round of the SFTP subsystem. -/
def channelSftp (shell : Shell F) (s : Sftp F) (io : ChannelRound) : SshConnection F × Served :=
  let bytes := match io.read with
    | .data bytes => bytes
    | _ => []
  let read := match io.read with
    | .data bytes => ReadChannel.data bytes.length
    | .eof => .eof
    | .error => .error
  let write := fun n => match io.write n with
    | .written count => some count
    | _ => none
  let r := SftpChannel.channelSftp { unread := bytes, sftp := some { s with volume := x.volume } } io.mounted io.ctx read write
  match r.1.sftp with
  | some s => ({ session := some { shell with sftp := some s }, volume := s.volume }, { sent := r.2.sent, moved := r.2.moved })
  | none =>
    match r.1.exitStatus with
    | some status =>
      ({ x with session := some { shell with sftp := none, channel := none } }, { closed := some status, moved := r.2.moved })
    | none => { x with volume := r.1.left.getD x.volume }.finish

/-- Channel data in both directions. -/
def channelRound (shell : Shell F) (io : ChannelRound) : SshConnection F × Served :=
  match shell.sftp with
  | some s => if shell.channel.isSome then x.channelSftp shell s io else (x, {})
  | none =>
    match shell.channelShell io.status io.read (io.write 0) with
    | some (shell, served) => ({ x with session := some shell }, served)
    | none => x.finish

def serve (e : SshEvent V) : SshConnection F × Served :=
  match e, x.session with
  | .card volume, _ => ({ x with volume }, {})
  | _, none => (x, {})
  | .serv event taken, some shell =>
    match shell.handleEvent x.volume event taken with
    | some (shell, answer) => ({ x with session := some shell }, { answer })
    | none => x.finish
  | .beginPoll, some shell => ({ x with session := some { shell with sftp := shell.sftp.map Sftp.beginPoll } }, {})
  | .round io, some shell => x.channelRound shell io

end SshConnection

end Ratputer
