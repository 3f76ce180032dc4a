import PassEngine.Ir.Ident
import Std.Data.TreeMap

namespace PassEngine

/-- A block as far as control flow goes: its id and where it may go next. -/
structure FlowNode where
  id : BlockId
  targets : List BlockId
  deriving DecidableEq, Repr

def addOnce (ids : List BlockId) (id : BlockId) : List BlockId :=
  if id ∈ ids then ids else ids ++ [id]

def FlowNode.succs (n : FlowNode) : List BlockId :=
  n.targets.foldl addOnce []

/-- Predecessors under the ids of the blocks that they lead to. -/
abbrev PredTable := Std.TreeMap BlockId (List BlockId)

namespace PredTable

/-- Records an edge, unless the table has no entry for where it leads. -/
def record (source : BlockId) (t : PredTable) (target : BlockId) : PredTable :=
  t.modify target (addOnce · source)

/-- The predecessors of the nodes. All nodes of one id have one entry. -/
def ofNodes (nodes : List FlowNode) : PredTable :=
  nodes.foldl (fun t n => n.succs.foldl (record n.id) t)
    (nodes.foldl (fun t n => t.insert n.id []) ∅)

end PredTable

/-- Predecessors node by node, beside the id of the node. -/
abbrev PredList := List (BlockId × List BlockId)

namespace PredList

/-- Records an edge at the first node of the id where it leads, if there is one. -/
def record (source : BlockId) : PredList → (target : BlockId) → PredList
  | [], _ => []
  | (id, preds) :: rest, target =>
    if id = target then (id, addOnce preds source) :: rest
    else (id, preds) :: record source rest target

def ofNodes (nodes : List FlowNode) : PredList :=
  nodes.foldl (fun l n => n.succs.foldl (record n.id) l) (nodes.map fun n => (n.id, []))

end PredList

end PassEngine
