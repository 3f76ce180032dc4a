import PassEngine.Wire.Message

namespace PassEngine.Wire

inductive IoFault where
  /-- The stream ended inside a header. -/
  | unexpectedEnd
  /-- The stream ended inside a body. -/
  | unfilled
  | brokenPipe
  | connectionReset
  | permissionDenied
  /-- Any other failure, by what it says of itself. -/
  | other (text : String)
  deriving DecidableEq, Repr

def IoFault.text : IoFault → String
  | unexpectedEnd => "unexpected end of file"
  | unfilled => "failed to fill whole buffer"
  | brokenPipe => "broken pipe"
  | connectionReset => "connection reset"
  | permissionDenied => "permission denied"
  | other text => text

/-- Why a body is no envelope: it is not good JSON text, or says something else. -/
inductive CodecFault where
  | grammar
  | shape
  deriving DecidableEq, Repr

def CodecFault.text : CodecFault → String
  | grammar => "not acceptable JSON text"
  | shape => "not the shape of an envelope"

inductive ProtocolError where
  | versionMismatch (expected found : UInt32)
  | timeout
  | disconnected
  | io (fault : IoFault)
  | codec (fault : CodecFault)
  | frameTooLarge (len max : Nat)
  | unexpectedMessage (expected found : String)
  deriving DecidableEq, Repr

namespace ProtocolError

def message : ProtocolError → String
  | versionMismatch expected found =>
    s!"schema version mismatch: expected {expected}, found {found}"
  | timeout => "no response within the invoke budget"
  | disconnected => "peer disconnected"
  | io fault => s!"transport I/O error: {fault.text}"
  | codec fault => s!"malformed frame: {fault.text}"
  | frameTooLarge len max => s!"frame of {len} bytes exceeds the {max} byte limit"
  | unexpectedMessage expected found => s!"expected {expected}, got {found}"

def unexpected (expected : String) (found : Message) : ProtocolError :=
  unexpectedMessage expected found.kind

def toPluginError (e : ProtocolError) : PluginError :=
  .protocol e.message

end ProtocolError

end PassEngine.Wire
