import PassEngine.Cli.Host

namespace PassEngine.Cli.Main

open Wire

def ioReason : IO.Error → String
  | .noFileOrDirectory .. => notFound
  | e => toString e

/-- Reads files ahead of the command that wants them. -/
def readFiles (paths : List String) : IO Files := do
  let texts ← paths.mapM fun (path : String) => do
    try return (path, Except.ok (← IO.FS.readFile path))
    catch e => return (path, Except.error (ioReason e))
  return fun path => (texts.lookup path).getD (.error notFound)

/-- Reads as many bytes as asked for, fewer only at the end of the stream. -/
partial def readBytes (input : IO.FS.Stream) (n : Nat) : IO Bytes := do
  if n = 0 then return []
  let piece ← input.read n.toUSize
  if piece.isEmpty then return []
  return piece.toList ++ (← readBytes input (n - piece.size))

def readFrameBytes (input : IO.FS.Stream) : IO Bytes := do
  let head ← readBytes input 4
  let length := headerLength head
  if head.length < 4 || maxFrameLength < length then return head
  return head ++ (← readBytes input length)

def writeBytes (output : IO.FS.Stream) (bytes : Bytes) : IO Unit := do
  output.write ⟨bytes.toArray⟩
  output.flush

partial def serveSession (input output : IO.FS.Stream) (a : Server.Attached) : IO Result := do
  match a.status with
  | .ended (.ok _) => return {}
  | .ended (.error e) => return .failure Cli.Server.programName e.message
  | .running _ =>
    let a := a.hear (Pipe.openBuffer (← readFrameBytes input))
    for reply in a.replies do
      writeBytes output reply
    serveSession input output { a with replies := [] }

def settle (r : Result) : IO UInt32 := do
  writeBytes (← IO.getStdout) r.stdout
  try
    if let some (path, text) := r.written then
      IO.FS.writeFile path text
    IO.eprint r.stderr
    return r.exit.toUInt32
  catch e =>
    IO.eprint (Result.complaint Cli.Host.programName (ioReason e))
    return 1

def runServer (c : ServerCommand) : IO UInt32 := do
  let files ← readFiles c.files
  match c.action, Cli.Server.loadRoster files c.config with
  | .serve, .ok roster =>
    settle (← serveSession (← IO.getStdin) (← IO.getStdout) (.start roster))
  | _, _ => settle (Cli.Server.run c files [])

/-- The only program that can be started as a server is the pass server itself. -/
def programs (files : Files) (path : String) : Option Program :=
  if path = Cli.Server.programName || path.endsWith ("/" ++ Cli.Server.programName) then
    some (Cli.Server.program files)
  else none

def runHost (c : HostCommand) : IO UInt32 := do
  let files ← readFiles c.files
  settle (Cli.Host.execute c files (programs files))

end PassEngine.Cli.Main

open PassEngine.Cli

def main (args : List String) : IO UInt32 := do
  match HostCommand.parse args, ServerCommand.parse args with
  | some c, _ => Main.runHost c
  | none, some c => Main.runServer c
  | none, none =>
    IO.eprintln "usage: run INPUT | translate INPUT | [--config FILE] (serve | list-passes)"
    return 2
