import PassEngine.Cli.Command
import PassEngine.Cli.Files
import PassEngine.Cli.Result
import PassEngine.Server.Attached
import PassEngine.Text.Pad

namespace PassEngine.Cli

open Wire

structure Program where
  State : Type
  start : Option String → State
  channel : Channel State
  stderr : State → String

namespace Server

def programName : String := "pin-server"

def loadRoster (files : Files) (config : Option String) : Except LoadError Roster :=
  (files.loadConfig config).map fun c => (Server.builtin c).freeze

/-- One line for each pass, in the order in which they run. -/
def listing (r : Roster) : String :=
  String.join (r.records.map fun b =>
    let name := Text.pad .left ' ' 20 b.name
    let point := Text.pad .left ' ' 16 b.point.name
    s!"{name} {point} priority {b.priority.toInt}\n")

def serve (roster : Roster) (received : List Received) : Result :=
  let (sent, result) := (Server.Session.greeting roster).run Message.checkSize received
  let stdout := (sent.filterMap fun m => m.encode.toOption).flatten
  match result with
  | .ok _ => { stdout }
  | .error e => { Result.failure programName e.message with stdout }

def run (c : ServerCommand) (files : Files) (input : Source) : Result :=
  match loadRoster files c.config with
  | .error e => .failure programName e.message
  | .ok roster =>
    match c.action with
    | .listPasses => .print (listing roster)
    | .serve => serve roster (receivedFrom input)

/-- The pass server as a program of its own, which is gone at once if its configuration is bad. -/
def program (files : Files) : Program where
  State := Except LoadError Server.Attached
  start config := (loadRoster files config).map .start
  channel := {
    send
      | .ok a, e => let (r, a) := a.send e; (r, .ok a)
      | .error l, _ => (.error .disconnected, .error l)
    receive
      | .ok a => let (r, a) := a.receive; (r, .ok a)
      | .error l => (.error .disconnected, .error l) }
  stderr
    | .error l => Result.complaint programName l.message
    | .ok ⟨.ended (.error e), _⟩ => Result.complaint programName e.message
    | .ok _ => ""

end Server

end PassEngine.Cli
