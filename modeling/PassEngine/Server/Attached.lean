import PassEngine.Server.Session

namespace PassEngine.Server

open Wire

inductive Status where
  | running (s : Session)
  | ended (result : Except ProtocolError SessionEnd)

/-- A server at the other end of a connection, which answers before the host can ask again: what it
is doing, and the frames it has sent that the host has not received. -/
structure Attached where
  status : Status
  replies : List Bytes := []

namespace Attached

def start (roster : Roster) : Attached where
  status := .running (.greeting roster)

def frames (m : Option Message) : List Bytes :=
  (m.bind fun m => m.encode.toOption).toList

def hear (a : Attached) (r : Received) : Attached :=
  match a.status with
  | .ended _ => a
  | .running s =>
    let reaction := Session.deliver Message.checkSize (s.react r)
    let replies := a.replies ++ frames reaction.message?
    match reaction with
    | .reply _ next => { status := .running next, replies }
    | .stop _ result => { status := .ended result, replies }

def send (a : Attached) (e : Envelope) : Except ProtocolError Unit × Attached :=
  match e.encode, a.status with
  | .error err, _ => (.error err, a)
  | .ok _, .ended _ => (.error .disconnected, a)
  | .ok bytes, .running _ => (.ok (), a.hear (Pipe.openBuffer bytes))

def receive (a : Attached) : Received × Attached :=
  match a.replies, a.status with
  | bytes :: rest, _ => (Pipe.openBuffer bytes, { a with replies := rest })
  | [], .ended _ => (.error .disconnected, a)
  | [], .running _ => (.error .timeout, a)

def channel : Channel Attached where
  send := send
  receive := receive

/-- How the session ends if the host goes away now. -/
def result (a : Attached) : Except ProtocolError SessionEnd :=
  match a.status with
  | .ended result => result
  | .running _ => .ok .disconnected

end Attached

end PassEngine.Server
