import PassEngine.Inline.Pass
import PassEngine.Pass.Batch
import PassEngine.Server.Config
import PassEngine.Wire.Channel

namespace PassEngine.Server

open Wire

def name : String := "pin-server 0.1.0"

/-- The passes that every server has, bound as the configuration says. -/
def builtin (c : ServerConfig) : Registry :=
  (({} : Registry).register c.inlinePoint "inline" 0 (Inline.pass c.inline)).2

/-- How a session ended: by `goodbye`, by `abort`, or because the host went away. -/
inductive SessionEnd where
  | closed
  | aborted
  | disconnected
  deriving DecidableEq, Repr

inductive Session where
  | greeting (roster : Roster)
  | serving (scheduler : Scheduler)

/-- What a session does about something received: it sends a message and goes on, or it ends, with a
last message if there is one. -/
inductive Reaction where
  | reply (m : Message) (next : Session)
  | stop (last : Option Message) (result : Except ProtocolError SessionEnd)

def Reaction.message? : Reaction → Option Message
  | reply m _ => some m
  | stop last _ => last

namespace Session

def payload : Except SchedulerError BatchOutcome → Payload
  | .ok .noChange => .noChange
  | .ok (.changed m) => .module m
  | .ok (.failed pass fault) => .error .passFailure fault.message (some pass)
  | .error .aborted => .error .protocol SchedulerError.aborted.message none
  | .error e => .error .malformedResult e.message none

/-- The host must greet first, and speak this version of the dialect. -/
def greet (roster : Roster) : Message → Reaction
  | .hello _ version =>
    if version = dialectVersion then
      .reply (.welcome name roster.describe) (.serving (.ofRoster roster))
    else
      let reason :=
        s!"dialect version {version} is not supported (server speaks {dialectVersion})"
      .stop (some (.abort reason)) (.error (.versionMismatch dialectVersion version))
  | m => .stop none (.error (.unexpected "hello" m))

def serve (s : Scheduler) : Message → Reaction
  | .invoke point m =>
    let (outcome, s) := s.dispatch point m
    .reply (.result point (payload outcome)) (.serving s)
  | .abort _ => .stop none (.ok .aborted)
  | .goodbye => .stop none (.ok .closed)
  | m => .stop none (.error (.unexpected "invoke" m))

def ending : ProtocolError → Except ProtocolError SessionEnd
  | .disconnected => .ok .disconnected
  | e => .error e

def react (s : Session) (r : Received) : Reaction :=
  match r with
  | .error e => .stop none (ending e)
  | .ok e =>
    match s with
    | .greeting roster => greet roster e.body
    | .serving scheduler => serve scheduler e.body

/-- A message that cannot be sent ends the session. -/
def deliver (send : Message → Except ProtocolError Unit) (r : Reaction) : Reaction :=
  match r.message?.map send with
  | some (.error e) => .stop none (ending e)
  | _ => r

/-- A whole session, from what is received to what is sent and how it ends, where `send` tells
whether a message can be sent. After the last thing received the host is gone. -/
def run (send : Message → Except ProtocolError Unit) (s : Session) :
    List Received → List Message × Except ProtocolError SessionEnd
  | [] => ([], .ok .disconnected)
  | r :: rest =>
    match deliver send (s.react r) with
    | .reply m next => let (sent, result) := run send next rest; (m :: sent, result)
    | .stop last result => (last.toList, result)

end Session

end PassEngine.Server
