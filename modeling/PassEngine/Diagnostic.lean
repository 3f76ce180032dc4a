import PassEngine.Json.Shape
import PassEngine.Naming
import PassEngine.Point
import PassEngine.Text.Pad

namespace PassEngine

inductive ErrorCode where
  | unsupportedConstruct
  | malformedResult
  | passFailure
  | protocol
  deriving DecidableEq, Repr, Inhabited

namespace ErrorCode

def name : ErrorCode → String
  | unsupportedConstruct => "unsupported-construct"
  | malformedResult => "malformed-result"
  | passFailure => "pass-failure"
  | protocol => "protocol"

def names : Naming ErrorCode where
  all := [unsupportedConstruct, malformedResult, passFailure, protocol]
  name := name
  find_name c := by cases c <;> decide

/-- The host can go on after every failure but one of the protocol, which leaves the two copies of
the module out of step. -/
def isRecoverable (c : ErrorCode) : Bool :=
  c != protocol

end ErrorCode

inductive Severity where
  | error
  | warning
  | note
  deriving DecidableEq, Repr, Inhabited

namespace Severity

def text : Severity → String
  | error => "error"
  | warning => "warning"
  | note => "note"

def names : Naming Severity where
  all := [error, warning, note]
  name
    | error => "Error"
    | warning => "Warning"
    | note => "Note"
  find_name s := by cases s <;> decide

end Severity

structure Diagnostic where
  severity : Severity
  code : ErrorCode
  message : String
  point : Option Point := none
  pass : Option String := none
  notes : List String := []
  deriving DecidableEq, Repr

namespace Diagnostic

def atPoint (d : Diagnostic) (p : Point) : Diagnostic :=
  { d with point := some p }

def withNote (d : Diagnostic) (note : String) : Diagnostic :=
  { d with notes := d.notes ++ [note] }

private def place (d : Diagnostic) : String :=
  let point := match d.point with
    | some p => s!" at {p.name}"
    | none => ""
  let pass := match d.pass with
    | some name => s!" in pass '{name}'"
    | none => ""
  point ++ pass

def text (d : Diagnostic) : String :=
  s!"{d.severity.text}[{d.code.name}]{d.place}: {d.message}" ++
    String.join (d.notes.map fun note => s!"\n  note: {note}")

def toJson (d : Diagnostic) : Json :=
  .obj [("severity", .str (Severity.names.name d.severity)),
    ("code", .str d.code.name),
    ("message", .str d.message),
    ("inject_point", .ofOption (fun p => .str p.name) d.point),
    ("pass", .ofOption .str d.pass),
    ("notes", .ofList .str d.notes)]

def read (j : Json) : Option Diagnostic := do
  let [severity, code, message, point, pass, notes] ←
    Json.slots ["severity", "code", "message", "inject_point", "pass", "notes"] j | none
  return {
    severity := ← severity.required (Json.readName Json.strictUnit Severity.names)
    code := ← code.required (Json.readName Json.strictUnit ErrorCode.names)
    message := ← message.required Json.readString
    point := ← point.optional (Json.readName Json.strictUnit Point.names)
    pass := ← pass.optional Json.readString
    notes := ← notes.required (Json.readList Json.readString) }

end Diagnostic

inductive PluginError where
  | unsupportedConstruct (function construct : String)
  | malformedResult (point : Point) (reason : String)
  | passFailure (point : Point) (pass message : String)
  | protocol (message : String)
  deriving DecidableEq, Repr

namespace PluginError

def code : PluginError → ErrorCode
  | unsupportedConstruct .. => .unsupportedConstruct
  | malformedResult .. => .malformedResult
  | passFailure .. => .passFailure
  | protocol .. => .protocol

def isRecoverable (e : PluginError) : Bool :=
  e.code.isRecoverable

def message : PluginError → String
  | unsupportedConstruct function construct =>
    s!"unsupported construct in '{function}': {construct}"
  | malformedResult point reason => s!"malformed result at {point.name}: {reason}"
  | passFailure point pass message => s!"pass '{pass}' failed at {point.name}: {message}"
  | protocol message => s!"protocol error: {message}"

/-- The diagnostic for an error. An error that knows its own point keeps it. -/
def toDiagnostic (e : PluginError) (severity : Severity) (point : Option Point) : Diagnostic :=
  let point := match e with
    | malformedResult own _ | passFailure own _ _ => some own
    | _ => point
  let pass := match e with
    | passFailure _ pass _ => some pass
    | _ => none
  { severity, code := e.code, message := e.message, point, pass }

end PluginError

/-- The diagnostics of one session, oldest first, with a count of the errors and of the warnings. -/
structure Reporter where
  diagnostics : List Diagnostic := []
  errorCount : Nat := 0
  warningCount : Nat := 0
  deriving DecidableEq, Repr

namespace Reporter

/-- Counts one more diagnostic of this severity. Notes are not counted. -/
def tally (r : Reporter) : Severity → Reporter
  | .error => { r with errorCount := r.errorCount + 1 }
  | .warning => { r with warningCount := r.warningCount + 1 }
  | .note => r

def report (r : Reporter) (d : Diagnostic) : Reporter :=
  { r.tally d.severity with diagnostics := r.diagnostics ++ [d] }

def noteLast (r : Reporter) (note : String) : Reporter :=
  match r.diagnostics.getLast? with
  | some d => { r with diagnostics := r.diagnostics.dropLast ++ [d.withNote note] }
  | none => r

def hasErrors (r : Reporter) : Bool := 0 < r.errorCount

def summary (r : Reporter) : String :=
  let errors := s!"{r.errorCount} error{Text.plural r.errorCount}"
  let warnings := s!"{r.warningCount} warning{Text.plural r.warningCount}"
  match r.errorCount, r.warningCount with
  | 0, 0 => "No errors or warnings"
  | 0, _ => warnings
  | _, 0 => errors
  | _, _ => s!"{errors} and {warnings}"

@[simp] theorem diagnostics_report (r : Reporter) (d : Diagnostic) :
    (r.report d).diagnostics = r.diagnostics ++ [d] := rfl

end Reporter

end PassEngine
