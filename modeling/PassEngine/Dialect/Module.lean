import PassEngine.Dialect.Op
import PassEngine.Ir.Edges
import PassEngine.Ir.Symbol
import PassEngine.NameTable

namespace PassEngine.Dialect

/-- Operations in a row, of which the last one ends the block, with the recorded edges. -/
structure Block where
  id : BlockId
  ops : List Op := []
  preds : List BlockId := []
  succs : List BlockId := []
  deriving DecidableEq, Repr

/-- A function. Control enters at its first block. An external function has its body elsewhere. -/
structure Function where
  symbol : String
  params : List (ValueId × Ty) := []
  ret : Ty
  isVararg : Bool := false
  hint : InlineHint := .none
  isExternal : Bool := false
  location : Option Location := none
  blocks : List Block := []
  deriving DecidableEq, Repr

inductive GlobalInit where
  | int (n : Int64)
  | array (ns : List Int64)
  | global (name : String)
  | func (name : String)
  | undef
  deriving DecidableEq, Repr, Inhabited

structure Global where
  symbol : String
  ty : Ty
  isConstant : Bool
  init : Option GlobalInit
  linkage : Linkage
  deriving DecidableEq, Repr

structure Module where
  name : String
  functions : List Function := []
  globals : List Global := []
  typeDefs : NameTable Ty := .empty
  deriving DecidableEq

namespace Block

def terminator? (b : Block) : Option Op :=
  b.ops.getLast?.filter Op.isTerminator

def flow (b : Block) : FlowNode where
  id := b.id
  targets := (b.terminator?.map Op.successors).getD []

/-- Gives each block its edges. A block takes its predecessors out of the table, so that a later one
of the same id finds none. -/
def linkAll (t : PredTable) : List Block → List Block
  | [] => []
  | b :: rest =>
    { b with preds := t.getD b.id [], succs := b.flow.succs } :: linkAll (t.erase b.id) rest

def mapOps (f : Op → Op) (b : Block) : Block :=
  { b with ops := b.ops.map f }

end Block

namespace Function

def ops (f : Function) : List Op :=
  f.blocks.flatMap Block.ops

def hasBody (f : Function) : Bool :=
  !f.isExternal && !f.blocks.isEmpty

/-- The number of operations that count: annotations do not. -/
def size (f : Function) : Nat :=
  f.ops.countP fun o => !o.isAnnotation

def block? (f : Function) (id : BlockId) : Option Block :=
  f.blocks.find? (·.id == id)

def blockIndex? (f : Function) (id : BlockId) : Option Nat :=
  f.blocks.findIdx? (·.id == id)

def op? (f : Function) (block op : Nat) : Option Op := do
  (← f.blocks[block]?).ops[op]?

/-- The values defined: parameters first, then the results of the operations in order. -/
def definitions (f : Function) : List ValueId :=
  f.params.map (·.1) ++ f.ops.filterMap Op.result

/-- The first number above every value's. -/
def nextValue (f : Function) : Nat :=
  firstAbove (f.definitions.map ValueId.index)

def nextBlock (f : Function) : Nat :=
  firstAbove (f.blocks.map fun b => b.id.index)

def relinked (f : Function) : Function :=
  { f with blocks := Block.linkAll (.ofNodes (f.blocks.map Block.flow)) f.blocks }

/-- Adds an operation to the first block with this id, if there is one. -/
def push? (f : Function) (id : BlockId) (o : Op) : Option Function := do
  let i ← f.blockIndex? id
  return { f with blocks := f.blocks.modify i fun b => { b with ops := b.ops ++ [o] } }

def mapOps (g : Op → Op) (f : Function) : Function :=
  { f with blocks := f.blocks.map (Block.mapOps g) }

end Function

namespace Module

def function? (m : Module) (symbol : String) : Option Function :=
  m.functions.find? (·.symbol == symbol)

/-- The position of the function that each symbol stands for, which is the last one of that name. -/
def symbolTable (m : Module) : NameTable Nat :=
  .ofList (m.functions.zipIdx.map fun (f, i) => (f.symbol, i))

end Module

end PassEngine.Dialect
