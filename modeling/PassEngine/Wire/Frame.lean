import PassEngine.Json.Parser
import PassEngine.Json.Printer
import PassEngine.Wire.Source

namespace PassEngine.Wire

def maxFrameLength : Nat := 64 * 1024 * 1024

/-- A length as four bytes, the highest first. -/
def header (len : Nat) : Bytes :=
  [UInt8.ofNat (len >>> 24), UInt8.ofNat (len >>> 16), UInt8.ofNat (len >>> 8), UInt8.ofNat len]

def headerLength (bytes : Bytes) : Nat :=
  bytes.foldl (fun n b => 256 * n + b.toNat) 0

/-- A body behind its length. -/
def frame (body : Bytes) : Bytes :=
  header body.length ++ body

def textBytes (s : String) : Bytes :=
  s.toUTF8.data.toList

def bytesText? (bytes : Bytes) : Option String :=
  String.fromUTF8? ⟨bytes.toArray⟩

namespace Envelope

def encodeBody (e : Envelope) : Bytes :=
  textBytes e.toJson.toCompact

def encode (e : Envelope) : Except ProtocolError Bytes :=
  let body := e.encodeBody
  if maxFrameLength < body.length then .error (.frameTooLarge body.length maxFrameLength)
  else .ok (frame body)

/-- The version that a body claims, zero if it claims none. -/
def claimedVersion (j : Json) : UInt32 :=
  ((j.get? "schema_version").bind Json.readUInt32).getD 0

/-- Reads a body. The whole text must be good before its version is looked at, and the version must
be right before anything else is. -/
def decode (body : Bytes) : Except ProtocolError Envelope := do
  let some j := (bytesText? body).bind Json.read | throw (.codec .grammar)
  if !j.isSound then throw (.codec .grammar)
  let j := j.lastWins
  if claimedVersion j ≠ schemaVersion then
    throw (.versionMismatch schemaVersion (claimedVersion j))
  match read j with
  | some e => return e
  | none => throw (.codec .shape)

end Envelope

namespace Message

def encode (m : Message) : Except ProtocolError Bytes :=
  Envelope.encode { body := m }

def checkSize (m : Message) : Except ProtocolError Unit :=
  m.encode.map fun _ => ()

end Message

/-- Reads the body of one frame, `none` if the stream ends between frames, and says what is left to
read. -/
def readFrame (s : Source) : Except ProtocolError (Option Bytes) × Source :=
  match s.fill 4 with
  | .ended 0 => (.ok none, [])
  | .ended _ => (.error (.io .unexpectedEnd), [])
  | .failed f rest => (.error (.io f), rest)
  | .full head rest =>
    let len := headerLength head
    if maxFrameLength < len then (.error (.frameTooLarge len maxFrameLength), rest)
    else match rest.fill len with
      | .ended _ => (.error (.io .unfilled), [])
      | .failed f rest => (.error (.io f), rest)
      | .full body rest => (.ok (some body), rest)

/-- The bodies of the frames in a stream, up to and with the first failure. A frame takes at least
four bytes, so as many steps as there are bytes suffice. -/
def readFrames (s : Source) : List (Except ProtocolError Bytes) :=
  go (s.bytes.length + 1) s
where
  go : Nat → Source → List (Except ProtocolError Bytes)
    | 0, _ => []
    | fuel + 1, s =>
      match readFrame s with
      | (.ok none, _) => []
      | (.ok (some body), rest) => .ok body :: go fuel rest
      | (.error e, _) => [.error e]

end PassEngine.Wire
