import Ratputer.Sftp.Session

/-!
# The SFTP subsystem channel

`channelSftp` of `ssh.rs`: one round moves channel data into the session, steps it and sends what it replies. The SSH library
is outside the model. It holds the channel data that the client has sent and that is not read yet; what `read_channel` and
`write_channel` report is part of the event.
-/

namespace Ratputer

variable {V : Type} {F : Fat V}

/-- Steps of one round. -/
def SFTP_STEPS : Nat := 8

/-- What `read_channel` reports: bytes read, the client's end of file, or another error. -/
inductive ReadChannel
  | data (count : Nat)
  | eof
  | error
  deriving Repr, DecidableEq

/-- The channel of an SFTP session. Without a session it is closed with an exit status, or given up. -/
structure SftpChannel (F : Fat V) where
  /-- Channel data that the library holds. -/
  unread : List UInt8 := []
  sftp : Option (Sftp F)
  exitStatus : Option Nat := none
  /-- The volume as a session that was given up has left it. -/
  left : Option V := none

/-- What one event moved: bytes handed to the session, bytes taken by `write_channel`, and whether the round reports progress. -/
structure Traffic where
  fed : List UInt8 := []
  sent : List UInt8 := []
  moved : Bool := false
  deriving Repr, DecidableEq

namespace Sftp

variable (s : Sftp F)

/-- Offer the output to the channel, which takes `written` bytes or reports an error; whether it took any. -/
def send (written : Option Nat) : Option (Sftp F × List UInt8 × Bool) :=
  if s.output = [] then some (s, [], false)
  else
    match written with
    | none => none
    | some count => some (s.consumeOutput count, s.output.take count, 0 < count)

/-- Process, then send replies, until the channel cannot take more; an error, with the volume as it is then, when the session is
given up. -/
def process (mounted : Bool) (ctx : Ctx) (write : Nat → Option Nat) : Nat → Sftp F → Traffic → Except V (Sftp F × Traffic)
  | 0, s, traffic => .ok (s, traffic)
  | steps + 1, s, traffic =>
    let (s, stepped) := s.step mounted ctx
    match s.send (write steps) with
    | none => .error s.volume
    | some (s, bytes, wrote) =>
      if s.server.fatal then .error s.volume
      else
        let traffic := { traffic with sent := traffic.sent ++ bytes, moved := traffic.moved || stepped || wrote }
        if !stepped && !wrote then .ok (s, traffic)
        -- a full output buffer needs the socket before more fits
        else if s.output ≠ [] ∧ wrote = false then .ok (s, traffic)
        else process mounted ctx write steps s traffic

end Sftp

namespace SftpChannel

variable (x : SftpChannel F)

/-- A channel whose SFTP subsystem was just started. -/
def opened (volume : V) : SftpChannel F := { sftp := some (.new volume) }

/-- The channel after the session is given up. -/
def giveUp (volume : V) : SftpChannel F := { x with sftp := none, left := some volume }

/-- Step the session and keep what becomes of it. -/
def process (s : Sftp F) (bytes : List UInt8) (mounted : Bool) (ctx : Ctx) (write : Nat → Option Nat) :
    SftpChannel F × Traffic :=
  match Sftp.process mounted ctx write SFTP_STEPS s { fed := bytes, moved := bytes ≠ [] } with
  | .ok (s, traffic) => ({ x with sftp := some s }, traffic)
  | .error volume => (x.giveUp volume, { fed := bytes })

/-- One round. Requests are read as far as the session's input has room; not reading leaves them with the library. -/
def channelSftp (mounted : Bool) (ctx : Ctx) (read : ReadChannel) (write : Nat → Option Nat) : SftpChannel F × Traffic :=
  match x.sftp with
  | none => (x, {})
  | some s =>
    if 0 < s.inputSpace then
      match read with
      | .data count =>
        let bytes := x.unread.take (min count (min s.inputSpace 1024))
        process { x with unread := x.unread.drop bytes.length } (s.feed bytes) bytes mounted ctx write
      -- the client ended the subsystem: report success and close the channel
      | .eof => ({ x with sftp := none, exitStatus := some 0 }, { moved := true })
      | .error => (x.giveUp s.volume, {})
    else x.process s [] mounted ctx write

/-- What the channel is driven with: data from the client, the start of a poll, and rounds of a poll. -/
inductive Event
  | receive (bytes : List UInt8)
  | beginPoll
  | round (mounted : Bool) (ctx : Ctx) (read : ReadChannel) (write : Nat → Option Nat)

def serve : Event → SftpChannel F × Traffic
  | .receive bytes => ({ x with unread := x.unread ++ bytes }, {})
  | .beginPoll => ({ x with sftp := x.sftp.map Sftp.beginPoll }, {})
  | .round mounted ctx read write => x.channelSftp mounted ctx read write

end SftpChannel

end Ratputer
