import PassEngine.Bridge.Lower
import PassEngine.Bridge.Raise
import PassEngine.Wire.Dialogue

namespace PassEngine.Host

open Wire

/-- What becomes of a failure after which the host could go on: a warning, or an error that stops
it. -/
inductive ErrorPolicy where
  | warn
  | fatal
  deriving DecidableEq, Repr

structure Config where
  client : String := "pinc 0.1.0"
  policy : ErrorPolicy := .warn
  deriving DecidableEq, Repr

inductive Outcome where
  | unchanged
  /-- The server's module was good and has taken the place of the host's. -/
  | applied
  /-- The server failed, or its module was of no use. -/
  | rejected
  /-- The host's module cannot be put in the dialect, so the server was not asked. -/
  | skipped
  deriving DecidableEq, Repr

inductive HostError where
  | protocol (e : ProtocolError)
  | plugin (e : PluginError)
  | refused (reason : String)
  | sessionClosed
  deriving DecidableEq, Repr

def HostError.message : HostError → String
  | protocol e => e.message
  | plugin e => e.message
  | refused reason => s!"server refused the session: {reason}"
  | sessionClosed => "session already ended after a protocol failure"

/-- The host's side of a session. The host's module is the one that counts; the server only ever
works on a copy. -/
structure Session where
  config : Config
  module : Native.Module
  passes : List String
  reporter : Reporter := {}
  /-- The two sides may be out of step, so nothing more is asked of the server. -/
  isClosed : Bool := false
  deriving DecidableEq

namespace Session

def connect (config : Config) (m : Native.Module) : Dialogue (Except HostError Session) := do
  match ← .say (.hello config.client dialectVersion) with
  | .error e => return .error (.protocol e)
  | .ok () =>
    match ← .listen with
    | .error e => return .error (.protocol e)
    | .ok envelope =>
      match envelope.body with
      | .welcome _ passes => return .ok { config, module := m, passes }
      | .abort reason => return .error (.refused reason)
      | other => return .error (.protocol (.unexpected "welcome" other))

def report (s : Session) (point : Point) (severity : Severity) (e : PluginError) : Session :=
  { s with reporter := s.reporter.report (e.toDiagnostic severity (some point)) }

def recover (s : Session) (point : Point) (e : PluginError) (outcome : Outcome) :
    Except HostError Outcome × Session :=
  match s.config.policy with
  | .warn => (.ok outcome, s.report point .warning e)
  | .fatal => (.error (.plugin e), s.report point .error e)

/-- Gives up after a failure of the protocol. The server is told, unless it is gone. -/
def giveUp (s : Session) (point : Point) (e : ProtocolError) :
    Dialogue (Except HostError Outcome × Session) := do
  if e ≠ .disconnected then
    let _ ← .say (.abort s!"host gave up at {point.name}: {e.message}")
  return (.error (.protocol e), { s.report point .error e.toPluginError with isClosed := true })

/-- Asks the server to run its passes at a point, and waits for the result for that very point. -/
def invoke (point : Point) (m : Dialect.Module) : Dialogue (Except ProtocolError Payload) := do
  match ← .say (.invoke point m) with
  | .error e => return .error e
  | .ok () =>
    match ← .listen with
    | .error e => return .error e
    | .ok envelope =>
      match envelope.body with
      | .result place payload =>
        if place = point then return .ok payload
        else return .error (.unexpectedMessage "result" s!"result for {place.name}")
      | other => return .error (.unexpected "result" other)

def pluginError (point : Point) (code : ErrorCode) (message : String) (pass : Option String) :
    PluginError :=
  match code with
  | .passFailure => .passFailure point (pass.getD "") message
  | .malformedResult => .malformedResult point message
  | .unsupportedConstruct => .unsupportedConstruct (pass.getD "") message
  | .protocol => .protocol message

def accept (s : Session) (point : Point) : Payload → Except HostError Outcome × Session
  | .noChange => (.ok .unchanged, s)
  | .module returned =>
    match returned.raise with
    | .ok m => (.ok .applied, { s with module := m })
    | .error e => s.recover point (e.toPluginError point) .rejected
  | .error code message pass =>
    let e := pluginError point code message pass
    if code.isRecoverable then s.recover point e .rejected
    else (.error (.plugin e), { s.report point .error e with isClosed := true })

def reach (s : Session) (point : Point) : Dialogue (Except HostError Outcome × Session) := do
  if s.isClosed then return (.error .sessionClosed, s)
  match s.module.lower with
  | .error e => return s.recover point e.toPluginError .skipped
  | .ok m =>
    match ← invoke point m with
    | .ok payload => return s.accept point payload
    | .error e => s.giveUp point e

/-- Takes leave of the server, unless nothing more may be said to it. -/
def finish (s : Session) : Dialogue Unit := do
  if !s.isClosed then
    let _ ← .say .goodbye

end Session

end PassEngine.Host
