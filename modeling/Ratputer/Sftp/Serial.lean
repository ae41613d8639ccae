import Ratputer.Sftp.Session

/-!
# The serial server

What the session computes from the client's stream, whatever the schedule: the same server with the whole rest of the stream
at hand, a fresh card budget for every step, and its output collected at once. Each step is a deterministic function of the
state, which is undefined where the server can do no more.
-/

namespace Ratputer

variable {V : Type}

/-- The serial server: its world with nothing queued, the stream still to be parsed, and the bytes sent so far. -/
structure Serial (F : Fat V) where
  world : World F
  rest : List UInt8
  sent : List UInt8

variable {F : Fat V}

namespace World

/-- Take away the queued output. -/
def clear (w : World F) : World F := { w with server := { w.server with out := [] } }

end World

namespace Sftp

/-- What the session amounts to when `future` is yet to be fed and `taken` has been sent. -/
def serial (s : Sftp F) (future taken : List UInt8) : Serial F :=
  { world := s.toWorld.clear
    rest := (s.input ++ future).drop s.skip
    sent := taken ++ s.server.out }

/-- A step did something: it reports progress, or it gives the session up. -/
def Moved (s : Sftp F) (r : Sftp F × Bool) : Prop := r.2 = true ∨ r.1.server.fatal ≠ s.server.fatal

instance (s : Sftp F) (r : Sftp F × Bool) : Decidable (s.Moved r) := inferInstanceAs (Decidable (_ ∨ _))

end Sftp

namespace Serial

/-- The session that the serial server steps. -/
def session (x : Serial F) : Sftp F := { toWorld := x.world, input := x.rest }

/-- One step on the whole rest of the stream. -/
def step (mounted : Bool) (ctx : Ctx) (x : Serial F) : Option (Serial F) :=
  let r := x.session.step mounted ctx
  if x.session.Moved r then some (r.1.serial [] x.sent) else none

/-- The server at the start of a client stream. -/
def start (volume : V) (stream : List UInt8) : Serial F := (Sftp.new volume).serial stream []

end Serial

end Ratputer
