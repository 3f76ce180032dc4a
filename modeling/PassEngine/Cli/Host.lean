import PassEngine.Cli.Server
import PassEngine.Dialect.Printer
import PassEngine.Host.Pipeline
import PassEngine.Native.Printer

namespace PassEngine.Cli.Host

open Wire PassEngine.Host

def programName : String := "pinc"

def conversation (config : Config) (m : Native.Module) (points : List Point) :
    Dialogue (Except HostError (Except HostError PipelineReport × Session)) := do
  match ← Session.connect config m with
  | .error e => return .error e
  | .ok s =>
    let (report, s) ← s.walk points
    s.finish
    return .ok (report, s)

/-- What is said after the walk. The module is printed and written only if the walk came to its
end. -/
def conclude (o : RunOptions) (report : Except HostError PipelineReport) (s : Session) : Result :=
  let diagnostics := String.join (s.reporter.diagnostics.map fun d => d.text ++ "\n")
  match report with
  | .error e => { exit := 1, stderr := diagnostics ++ Result.complaint programName e.message }
  | .ok r =>
    let reached :=
      s!"{r.reached.length} point(s) reached, {r.appliedCount} applied; {s.reporter.summary}\n"
    let written := (o.output.map fun path => s!"module written to: {path}\n").getD ""
    { exit := if s.reporter.hasErrors then 1 else 0
      stdout := if o.printsModule then textBytes (s.module.text ++ "\n") else []
      stderr := diagnostics ++ reached ++ written
      written := o.output.map (·, s.module.save) }

def runOver {σ : Type} (c : Channel σ) (start : σ) (stderr : σ → String) (o : RunOptions)
    (m : Native.Module) : Result :=
  let config : Config := { policy := if o.isFatal then .fatal else .warn }
  let (outcome, last) := (conversation config m o.points).run c start
  let result := match outcome with
    | .error e => Result.failure programName e.message
    | .ok (report, s) => conclude o report s
  { result with stderr := stderr last ++ result.stderr }

def run (o : RunOptions) (files : Files) (programs : String → Option Program) : Result :=
  match files.loadModule o.input, files.loadConfig o.config with
  | .error e, _ | .ok _, .error e => .failure programName e.message
  | .ok m, .ok config =>
    match o.server with
    | none =>
      runOver Server.Attached.channel (.start (Server.builtin config).freeze) (fun _ => "") o m
    | some path =>
      match programs path with
      | none => .failure programName s!"I/O error: {notFound}"
      | some p => runOver p.channel (p.start o.config) p.stderr o m

def lower (input : String) (files : Files) : Result :=
  match files.loadModule input with
  | .error e => .failure programName e.message
  | .ok m =>
    match m.lower with
    | .error e => .failure programName e.message
    | .ok d => .print d.text

def execute (c : HostCommand) (files : Files) (programs : String → Option Program) : Result :=
  match c with
  | .run o => run o files programs
  | .lower input => lower input files

end PassEngine.Cli.Host
