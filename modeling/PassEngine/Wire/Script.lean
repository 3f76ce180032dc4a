import PassEngine.Wire.Channel

namespace PassEngine.Wire

inductive Play where
  | buffer (bytes : Bytes)
  /-- It keeps silent until the other side stops waiting. -/
  | silence
  | leave
  deriving DecidableEq

/-- A peer that plays its part whatever it is told, and leaves when the part is over. -/
structure Script where
  plays : List Play
  hasLeft : Bool := false
  heard : List Message := []

namespace Script

def send (s : Script) (e : Envelope) : Except ProtocolError Unit × Script :=
  match e.encode with
  | .error err => (.error err, s)
  | .ok _ =>
    if s.hasLeft then (.error .disconnected, s)
    else (.ok (), { s with heard := s.heard ++ [e.body] })

def receive (s : Script) : Received × Script :=
  match s.plays with
  | .buffer bytes :: rest => (Pipe.openBuffer bytes, { s with plays := rest })
  | .silence :: rest => (.error .timeout, { s with plays := rest })
  | .leave :: _ | [] => (.error .disconnected, { s with plays := [], hasLeft := true })

def channel : Channel Script where
  send := send
  receive := receive

end Script

end PassEngine.Wire
