import PassEngine.Dialect.Module

namespace PassEngine.Dialect

/-- A direct call, by the positions of its function, block and operation, with the position of the
function that it calls. -/
structure CallSite where
  caller : Nat
  block : Nat
  op : Nat
  callee : Nat
  deriving DecidableEq, Repr

/-- The direct calls of a module, function by function in block and operation order, with the number
of calls to each function beside them. -/
structure CallGraph where
  sites : List (List CallSite)
  incoming : List Nat
  deriving DecidableEq, Repr

namespace CallGraph

def empty (size : Nat) : CallGraph where
  sites := List.replicate size []
  incoming := List.replicate size 0

/-- Puts a call after the others of its function, and counts it for the function that it calls. -/
def note (g : CallGraph) (site : CallSite) : CallGraph where
  sites := g.sites.modify site.caller (· ++ [site])
  incoming := g.incoming.modify site.callee (· + 1)

def noteOp (table : NameTable Nat) (caller block : Nat) (g : CallGraph) (o : Op × Nat) :
    CallGraph :=
  match o.1.callee?.bind table.get? with
  | some callee => g.note { caller, block, op := o.2, callee }
  | none => g

def noteBlock (table : NameTable Nat) (caller : Nat) (g : CallGraph) (b : Block × Nat) :
    CallGraph :=
  b.1.ops.zipIdx.foldl (noteOp table caller b.2) g

def noteFunction (table : NameTable Nat) (g : CallGraph) (f : Function × Nat) : CallGraph :=
  f.1.blocks.zipIdx.foldl (noteBlock table f.2) g

/-- The graph of the calls whose symbols the module defines. -/
def build (m : Module) : CallGraph :=
  m.functions.zipIdx.foldl (noteFunction m.symbolTable) (empty m.functions.length)

def size (g : CallGraph) : Nat := g.sites.length

def sitesIn (g : CallGraph) (caller : Nat) : List CallSite :=
  (g.sites[caller]?).getD []

def allSites (g : CallGraph) : List CallSite := g.sites.flatten

def sitesOf (g : CallGraph) (callee : Nat) : List CallSite :=
  g.allSites.filter (·.callee == callee)

def callCount (g : CallGraph) (callee : Nat) : Nat :=
  (g.incoming[callee]?).getD 0

def insertAscending (n : Nat) : List Nat → List Nat
  | [] => [n]
  | k :: ks =>
    if n < k then n :: k :: ks
    else if n = k then k :: ks
    else k :: insertAscending n ks

/-- The functions called from one function, in order and each once. -/
def callees (g : CallGraph) (caller : Nat) : List Nat :=
  (g.sitesIn caller).foldr (fun site => insertAscending site.callee) []

/-- How many nodes a search will still add to its queue: what the unvisited ones lead to. -/
def ahead (next : Nat → List Nat) (visited : List Bool) : Nat :=
  (visited.mapIdx fun node seen => if seen then 0 else (next node).length).foldr (· + ·) 0

theorem ahead_set (next : Nat → List Nat) {visited : List Bool} {node : Nat}
    (h : visited[node]? = some false) :
    ahead next (visited.set node true) + (next node).length = ahead next visited := by
  induction visited generalizing next node with
  | nil => simp at h
  | cons seen visited ih =>
    cases node with
    | zero =>
      obtain rfl : seen = false := by simpa using h
      simp [ahead, List.mapIdx_cons, Nat.add_comm]
    | succ node =>
      have hrest := ih (fun n => next (n + 1)) (by simpa using h)
      simp only [ahead, List.set_cons_succ, List.mapIdx_cons, List.foldr_cons] at hrest ⊢
      omega

/-- Looks for `goal` breadth first. The nodes in `queue` are taken in turn, and what the unvisited
ones among them lead to is queued. A node that has no mark in `visited` ends the search with no
answer. -/
def search (next : Nat → List Nat) (goal : Nat) (visited : List Bool) :
    (queue : List Nat) → Option Bool
  | [] => some false
  | node :: queue =>
    if node = goal then some true
    else
      match _hvisited : visited[node]? with
      | none => none
      | some true => search next goal visited queue
      | some false => search next goal (visited.set node true) (queue ++ next node)
termination_by queue => queue.length + ahead next visited
decreasing_by
  · simp
  · have := ahead_set next _hvisited
    simp only [List.length_append, List.length_cons]
    omega

def reaches? (g : CallGraph) (start goal : Nat) : Option Bool :=
  search g.callees goal (List.replicate g.size false) (g.callees start)

/-- Whether one or more calls in a row lead from one function to another. The search of a graph that
was built from a module always has an answer. -/
def reaches (g : CallGraph) (start goal : Nat) : Bool :=
  (g.reaches? start goal).getD false

def isRecursive (g : CallGraph) (f : Nat) : Bool :=
  g.reaches f f

end CallGraph

end PassEngine.Dialect
