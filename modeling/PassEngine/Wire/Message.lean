import PassEngine.Diagnostic
import PassEngine.Dialect.Encoding

namespace PassEngine.Wire

open Json (slots readString readUInt32 readList readName looseUnit)

/-- The version of the set of operations that both sides must agree on. -/
def dialectVersion : UInt32 := 1

/-- The envelope's revision in the high half, the dialect's version in the low half. -/
def schemaVersion : UInt32 := ((1 : UInt32) <<< 16) ||| dialectVersion

inductive Payload where
  | noChange
  | module (m : Dialect.Module)
  | error (code : ErrorCode) (message : String) (pass : Option String)
  deriving DecidableEq

/-- What host and server say to each other. The host opens with `hello`, sends `invoke` as often as
it likes and ends with `goodbye` or `abort`; the server answers with `welcome` and `result`. -/
inductive Message where
  | hello (client : String) (dialectVersion : UInt32)
  | welcome (server : String) (passes : List String)
  | invoke (point : Point) (m : Dialect.Module)
  | result (point : Point) (payload : Payload)
  | abort (reason : String)
  | goodbye
  deriving DecidableEq

structure Envelope where
  version : UInt32 := schemaVersion
  body : Message
  deriving DecidableEq

/-- A record that says which variant it is, parted into tag and fields. Written as an array it has
the tag first. -/
def untag (tag : String) : Json → Option (Json × Json)
  | .obj members => do
    let (_, j) ← members.find? (·.1 == tag)
    return (j, .obj (members.filter (·.1 != tag)))
  | .arr (j :: items) => some (j, .arr items)
  | _ => none

/-- The fields of a variant that has none. An object may hold anything. -/
def noFields : Json → Option Unit
  | .obj _ => some ()
  | .arr [] => some ()
  | _ => none

namespace Payload

def toJson : Payload → Json
  | noChange => .obj [("kind", .str "no-change")]
  | module m => .obj (("kind", .str "module") :: m.members)
  | error code message pass =>
    .obj [("kind", .str "error"), ("code", .str code.name), ("message", .str message),
      ("pass", .ofOption .str pass)]

/-- A payload's kind may be given by its position too. -/
def kindName : Json → Option String
  | .str kind => some kind
  | .int 0 => some "no-change"
  | .int 1 => some "module"
  | .int 2 => some "error"
  | _ => none

def read (j : Json) : Option Payload := do
  let (kind, fields) ← untag "kind" j
  match ← kindName kind with
  | "no-change" =>
    noFields fields
    return noChange
  | "module" => return module (← Dialect.Module.read fields)
  | "error" =>
    let [code, message, pass] ← slots ["code", "message", "pass"] fields | none
    return error (← code.required (readName looseUnit ErrorCode.names))
      (← message.required readString) (← pass.optional readString)
  | _ => none

end Payload

def readPoint : Json → Option Point := readName looseUnit Point.names

namespace Message

def kind : Message → String
  | hello .. => "hello"
  | welcome .. => "welcome"
  | invoke .. => "invoke"
  | result .. => "result"
  | abort .. => "abort"
  | goodbye => "goodbye"

def fields : Message → List (String × Json)
  | hello client version => [("client", .str client), ("dialect_version", .ofUInt32 version)]
  | welcome server passes => [("server", .str server), ("passes", .ofList .str passes)]
  | invoke point m => [("inject_point", .str point.name), ("module", m.toJson)]
  | result point payload => [("inject_point", .str point.name), ("payload", payload.toJson)]
  | abort reason => [("reason", .str reason)]
  | goodbye => []

def toJson (m : Message) : Json :=
  .obj (("type", .str m.kind) :: m.fields)

def read (j : Json) : Option Message := do
  let (kind, fields) ← untag "type" j
  match ← readString kind with
  | "hello" =>
    let [client, version] ← slots ["client", "dialect_version"] fields | none
    return hello (← client.required readString) (← version.required readUInt32)
  | "welcome" =>
    let [server, passes] ← slots ["server", "passes"] fields | none
    return welcome (← server.required readString) (← passes.required (readList readString))
  | "invoke" =>
    let [point, m] ← slots ["inject_point", "module"] fields | none
    return invoke (← point.required readPoint) (← m.required Dialect.Module.read)
  | "result" =>
    let [point, payload] ← slots ["inject_point", "payload"] fields | none
    return result (← point.required readPoint) (← payload.required Payload.read)
  | "abort" =>
    let [reason] ← slots ["reason"] fields | none
    return abort (← reason.required readString)
  | "goodbye" =>
    noFields fields
    return goodbye
  | _ => none

end Message

namespace Envelope

def toJson (e : Envelope) : Json :=
  .obj [("schema_version", .ofUInt32 e.version), ("body", e.body.toJson)]

def read (j : Json) : Option Envelope := do
  let [version, body] ← slots ["schema_version", "body"] j | none
  return { version := ← version.required readUInt32, body := ← body.required Message.read }

end Envelope

end PassEngine.Wire
