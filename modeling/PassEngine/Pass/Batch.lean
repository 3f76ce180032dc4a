import PassEngine.Diagnostic
import PassEngine.Pass.Registry

namespace PassEngine

/-- A pass at work in a session, with the turns it has had, the latest first. -/
structure ActivePass where
  point : Point
  pass : Pass
  visits : List Visit := []

def Registration.activate (r : Registration) : ActivePass where
  point := r.point
  pass := r.pass

inductive PassFault where
  | gateCrashed (c : Crash)
  | crashed (c : Crash)
  | hiddenChange
  | error (e : PassError)
  deriving DecidableEq, Repr

def PassFault.message : PassFault → String
  | gateCrashed c => s!"panicked in gate: {c.message}"
  | crashed c => s!"panicked: {c.message}"
  | hiddenChange => "reported no change but modified the module"
  | error e => e.message

inductive Turn where
  | unchanged
  | changed (m : Dialect.Module)
  | failed (fault : PassFault)
  deriving DecidableEq

namespace ActivePass

/-- Judges a pass by the module that it leaves, not by what it says alone. -/
def judge (before : Dialect.Module) (report : PassReport) (after : Dialect.Module) : Turn :=
  match report with
  | .noChange => if after = before then .unchanged else .failed .hiddenChange
  | .changed =>
    match after.fault? with
    | none => .changed after
    | some e => .failed (.error (.invalid e))
  | .failed e => .failed (.error e)
  | .crashed c => .failed (.crashed c)

def visited (a : ActivePass) (point : Point) (m : Dialect.Module) (ran : Bool) : ActivePass :=
  { a with visits := ⟨point, m, ran⟩ :: a.visits }

def turn (a : ActivePass) (point : Point) (m : Dialect.Module) : Turn × ActivePass :=
  match a.pass.gate a.visits point m with
  | .error c => (.failed (.gateCrashed c), a.visited point m false)
  | .ok false => (.unchanged, a.visited point m false)
  | .ok true =>
    let (report, after) := a.pass.optimize a.visits point m
    (judge m report after, a.visited point m true)

end ActivePass

/-- What came of a batch. One that failed left the module as it was. -/
inductive BatchOutcome where
  | noChange
  | changed (m : Dialect.Module)
  | failed (pass : String) (fault : PassFault)
  deriving DecidableEq

/-- Lets the passes bound to a point work one after the other, up to the first that fails. `edited`
tells whether an earlier pass has changed the module. -/
def runBatch (point : Point) (edited : Bool) (m : Dialect.Module) :
    List ActivePass → BatchOutcome × List ActivePass
  | [] => (if edited then .changed m else .noChange, [])
  | a :: rest =>
    if a.point = point then
      match a.turn point m with
      | (.failed fault, a) => (.failed a.pass.name fault, a :: rest)
      | (.changed m, a) => let (outcome, rest) := runBatch point true m rest; (outcome, a :: rest)
      | (.unchanged, a) => let (outcome, rest) := runBatch point edited m rest; (outcome, a :: rest)
    else let (outcome, rest) := runBatch point edited m rest; (outcome, a :: rest)

inductive SchedulerError where
  | aborted
  | malformedInput (point : Point) (e : Dialect.VerifyError)
  deriving DecidableEq, Repr

def SchedulerError.message : SchedulerError → String
  | aborted => "session was aborted"
  | malformedInput point e => s!"module received at {point.name} is malformed: {e.message}"

/-- Where a scheduler stands: waiting, looking at a module that has come in, at work on it, or at an
end for good. -/
inductive SchedulerState where
  | idle
  | atPoint (point : Point)
  | dispatching (point : Point)
  | aborted
  deriving DecidableEq, Repr

/-- The passes of a session, which does no more work once it is aborted. -/
structure Scheduler where
  passes : List ActivePass
  state : SchedulerState := .idle

namespace Scheduler

def ofRoster (r : Roster) : Scheduler where
  passes := r.records.map Registration.activate

def enter (s : Scheduler) (state : SchedulerState) : Scheduler :=
  { s with state }

def abort (s : Scheduler) : Scheduler :=
  s.enter .aborted

def work (s : Scheduler) (point : Point) (m : Dialect.Module) :
    Except SchedulerError BatchOutcome × Scheduler :=
  let (outcome, passes) := runBatch point false m s.passes
  (.ok outcome, { s with passes, state := .idle })

/-- Looks at a module before any pass does. A bad one is refused, and there is nothing to do where
no pass is bound. -/
def examine (s : Scheduler) (point : Point) (m : Dialect.Module) :
    Except SchedulerError BatchOutcome × Scheduler :=
  match m.fault? with
  | some e => (.error (.malformedInput point e), s.enter .idle)
  | none =>
    if s.passes.any (·.point = point) then (s.enter (.dispatching point)).work point m
    else (.ok .noChange, s.enter .idle)

def dispatch (s : Scheduler) (point : Point) (m : Dialect.Module) :
    Except SchedulerError BatchOutcome × Scheduler :=
  if s.state = .aborted then (.error .aborted, s)
  else (s.enter (.atPoint point)).examine point m

end Scheduler

end PassEngine
