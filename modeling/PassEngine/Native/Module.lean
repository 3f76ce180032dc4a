import PassEngine.Ir.Edges
import PassEngine.Ir.Symbol
import PassEngine.NameTable
import PassEngine.Native.Instruction

namespace PassEngine.Native

structure Block where
  id : BlockId
  instructions : List Instruction := []
  preds : List BlockId := []
  succs : List BlockId := []
  deriving DecidableEq, Repr

structure Function where
  name : String
  returnType : Ty
  params : List (ValueId × Ty) := []
  blocks : List Block := []
  isExternal : Bool := false
  isVararg : Bool := false
  inlineHint : InlineHint := .none
  location : Option Location := none
  deriving DecidableEq, Repr

structure Global where
  name : String
  ty : Ty
  isConstant : Bool
  initial : Option Value
  linkage : Linkage
  deriving DecidableEq, Repr

structure Module where
  name : String
  functions : List Function := []
  globals : List Global := []
  typeDefs : NameTable Ty := .empty
  deriving DecidableEq

namespace Block

def hasTerminator (b : Block) : Bool :=
  b.instructions.getLast?.any Instruction.isTerminator

def flow (b : Block) : FlowNode where
  id := b.id
  targets := (b.instructions.getLast?.map Instruction.successors).getD []

end Block

namespace Function

def block? (f : Function) (id : BlockId) : Option Block :=
  f.blocks.find? (·.id == id)

/-- Records the edges that the last instructions of the blocks make. -/
def relinked (f : Function) : Function :=
  let link (b : Block) (entry : BlockId × List BlockId) : Block :=
    { b with preds := entry.2, succs := b.flow.succs }
  { f with blocks := f.blocks.zipWith link (.ofNodes (f.blocks.map Block.flow) : PredList) }

end Function

namespace Module

def functionIndex? (m : Module) (name : String) : Option Nat :=
  m.functions.findIdx? (·.name == name)

def globalIndex? (m : Module) (name : String) : Option Nat :=
  m.globals.findIdx? (·.name == name)

end Module

end PassEngine.Native
