import PassEngine.Host.Session

namespace PassEngine.Host

structure PipelineReport where
  reached : List (Point × Outcome) := []
  deriving DecidableEq, Repr

def PipelineReport.appliedCount (r : PipelineReport) : Nat :=
  r.reached.countP fun (_, outcome) => outcome = .applied

namespace Session

/-- Reaches points one after the other, up to the first error. -/
def reachAll (s : Session) :
    List Point → Wire.Dialogue (Except HostError (List (Point × Outcome)) × Session)
  | [] => return (.ok [], s)
  | p :: rest => do
    match ← s.reach p with
    | (.error e, s) => return (.error e, s)
    | (.ok outcome, s) =>
      let (reached, s) ← s.reachAll rest
      return (reached.map ((p, outcome) :: ·), s)

/-- Walks the host's pipeline and stops at the points asked for, whatever order they were given in.
If none are, it stops at every point. -/
def walk (s : Session) (points : List Point) :
    Wire.Dialogue (Except HostError PipelineReport × Session) := do
  let (reached, s) ← s.reachAll
    (Point.pipeline.filter fun p => points.isEmpty || points.contains p)
  return (reached.map (⟨·⟩), s)

end Session

end PassEngine.Host
