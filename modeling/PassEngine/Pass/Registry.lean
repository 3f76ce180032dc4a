import PassEngine.Pass.Basic
import PassEngine.Text.Quoted

namespace PassEngine

/-- A pass bound to a point. At one point the lower priority goes first, and of equal ones the one
that was registered first. -/
structure Registration where
  name : String
  point : Point
  priority : Int32
  seq : Nat
  pass : Pass

structure RegistryError where
  name : String
  deriving DecidableEq, Repr

def RegistryError.message (e : RegistryError) : String :=
  s!"a pass named '{e.name}' is already registered"

/-- The registrations so far, oldest first, and the number that the next one gets. -/
structure Registry where
  records : List Registration := []
  nextSeq : Nat := 0

/-- A registry that takes no more passes, in the order in which they run. -/
structure Roster where
  records : List Registration

namespace Registration

def le (a b : Registration) : Bool :=
  a.priority < b.priority || a.priority == b.priority && a.seq ≤ b.seq

def text (r : Registration) : String :=
  s!"PassRecord \x7b name: {Text.quoted r.name}, inject_point: {r.point.constant}, " ++
    s!"key: OrderKey \x7b priority: {r.priority.toInt}, seq: {r.seq} \x7d \x7d"

end Registration

namespace Registry

/-- A name can be registered once. -/
def register (r : Registry) (point : Point) (name : String) (priority : Int32) (pass : Pass) :
    Except RegistryError Unit × Registry :=
  if r.records.any (·.name == name) then (.error ⟨name⟩, r)
  else (.ok (), { records := r.records ++ [{ name, point, priority, seq := r.nextSeq, pass }]
                  nextSeq := r.nextSeq + 1 })

def freeze (r : Registry) : Roster :=
  ⟨r.records.mergeSort Registration.le⟩

end Registry

namespace Roster

def boundTo (r : Roster) (point : Point) : List Registration :=
  r.records.filter (·.point == point)

/-- All passes with their points, in the order of the pipeline. -/
def describe (r : Roster) : List String :=
  (Point.pipeline.flatMap r.boundTo).map fun b => s!"{b.point.name}:{b.name}"

end Roster

end PassEngine
