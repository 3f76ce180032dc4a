import PassEngine.Wire.Frame

namespace PassEngine.Wire

structure Channel (σ : Type) where
  send : σ → Envelope → Except ProtocolError Unit × σ
  receive : σ → Except ProtocolError Envelope × σ

abbrev Received := Except ProtocolError Envelope

/-- The envelopes in a stream. Nothing is read after the first failure. -/
def receivedFrom (s : Source) : List Received :=
  untilError ((readFrames s).map fun body => body.bind Envelope.decode)
where
  untilError : List Received → List Received
    | [] => []
    | .ok e :: rest => .ok e :: untilError rest
    | .error e :: _ => [.error e]

/-- A connection over a pair of byte streams: what has been or will be read, what was written, and
after how many frames writing fails. -/
structure Stream where
  incoming : List Received := []
  written : List Envelope := []
  failure : Option (Nat × IoFault) := none

namespace Stream

def ofSource (s : Source) : Stream where
  incoming := receivedFrom s

/-- How a failure to write is told: a reader that is gone counts as disconnected. -/
def writeError : IoFault → ProtocolError
  | .brokenPipe | .connectionReset => .disconnected
  | f => .io f

def send (s : Stream) (e : Envelope) : Except ProtocolError Unit × Stream :=
  match e.encode with
  | .error err => (.error err, s)
  | .ok _ =>
    match s.failure with
    | some (room, f) =>
      if room ≤ s.written.length then (.error (writeError f), s)
      else (.ok (), { s with written := s.written ++ [e] })
    | none => (.ok (), { s with written := s.written ++ [e] })

def receive (s : Stream) : Received × Stream :=
  match s.incoming with
  | [] => (.error .disconnected, s)
  | r :: rest => (r, { s with incoming := rest })

def channel : Channel Stream where
  send := send
  receive := receive

end Stream

/-- One direction of a connection inside a process: frames on their way, and which ends are gone. -/
structure Pipe where
  frames : List Bytes := []
  senderGone : Bool := false
  receiverGone : Bool := false
  deriving DecidableEq

namespace Pipe

def push (p : Pipe) (bytes : Bytes) : Except ProtocolError Unit × Pipe :=
  if p.receiverGone then (.error .disconnected, p)
  else (.ok (), { p with frames := p.frames ++ [bytes] })

def send (p : Pipe) (e : Envelope) : Except ProtocolError Unit × Pipe :=
  match e.encode with
  | .error err => (.error err, p)
  | .ok bytes => p.push bytes

/-- The envelope of the first frame in a buffer. An empty buffer says that the peer is gone. -/
def openBuffer (bytes : Bytes) : Received :=
  match (readFrame (.ofBytes bytes)).1 with
  | .ok (some body) => Envelope.decode body
  | .ok none => .error .disconnected
  | .error e => .error e

def receive (p : Pipe) : Received × Pipe :=
  match p.frames with
  | bytes :: rest => (openBuffer bytes, { p with frames := rest })
  | [] => (.error (if p.senderGone then .disconnected else .timeout), p)

end Pipe

structure Duplex where
  toFirst : Pipe := {}
  toSecond : Pipe := {}
  deriving DecidableEq

namespace Duplex

def swap (d : Duplex) : Duplex := ⟨d.toSecond, d.toFirst⟩

def channel : Channel Duplex where
  send d e := let (r, p) := d.toSecond.send e; (r, { d with toSecond := p })
  receive d := let (r, p) := d.toFirst.receive; (r, { d with toFirst := p })

def pushRaw (d : Duplex) (bytes : Bytes) : Except ProtocolError Unit × Duplex :=
  let (r, p) := d.toSecond.push bytes
  (r, { d with toSecond := p })

def dropFirst (d : Duplex) : Duplex where
  toFirst := { d.toFirst with receiverGone := true }
  toSecond := { d.toSecond with senderGone := true }

end Duplex

end PassEngine.Wire
