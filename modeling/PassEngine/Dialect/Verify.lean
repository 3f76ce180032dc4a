import PassEngine.Dialect.Module

namespace PassEngine.Dialect

inductive VerifyError where
  | duplicateFunction (function : String)
  | declarationWithBody (function : String)
  | missingBody (function : String)
  | duplicateBlock (function : String) (block : BlockId)
  | missingTerminator (function : String) (block : BlockId)
  | misplacedTerminator (function : String) (block : BlockId) (index : Nat)
  | unknownBlock (function : String) (block target : BlockId)
  | duplicateDefinition (function : String) (value : ValueId)
  | undefinedValue (function : String) (block : BlockId) (value : ValueId)
  | danglingCall (function callee : String)
  deriving DecidableEq, Repr

def blockText (b : BlockId) : String :=
  s!"^bb{b.index}"

def VerifyError.message : VerifyError → String
  | duplicateFunction f => s!"function @{f} is defined more than once"
  | declarationWithBody f => s!"declaration @{f} has a body"
  | missingBody f => s!"function @{f} has no blocks"
  | duplicateBlock f b => s!"@{f}: block {blockText b} is defined more than once"
  | missingTerminator f b => s!"@{f}: block {blockText b} does not end in a terminator"
  | misplacedTerminator f b index =>
    s!"@{f}: block {blockText b} has a terminator at position {index} before its end"
  | unknownBlock f b target =>
    s!"@{f}: block {blockText b} references unknown block {blockText target}"
  | duplicateDefinition f v => s!"@{f}: value {v.text} is defined more than once"
  | undefinedValue f b v => s!"@{f}: block {blockText b} uses undefined value {v.text}"
  | danglingCall f callee => s!"@{f}: call to unknown function @{callee}"

/-- The first element that stands in the list before. -/
def firstRepeat? {α : Type} [DecidableEq α] (xs : List α) : Option α :=
  go [] xs
where
  go (seen : List α) : List α → Option α
    | [] => none
    | x :: rest => if x ∈ seen then some x else go (x :: seen) rest

namespace Function

/-- The smallest value that is defined more than once. -/
def redefined? (f : Function) : Option ValueId :=
  let defs := f.definitions
  ((defs.filter fun v => 1 < defs.count v).map ValueId.index).min?.map ValueId.mk

def opFault? (f : Function) (symbols : List String) (b : Block) (index : Nat) (o : Op) :
    Option VerifyError :=
  (if o.isTerminator ∧ index + 1 ≠ b.ops.length then
    some (.misplacedTerminator f.symbol b.id index) else none) <|>
  (o.blocks.find? fun t => t ∉ f.blocks.map Block.id).map (.unknownBlock f.symbol b.id) <|>
  (o.uses.find? fun v => v ∉ f.definitions).map (.undefinedValue f.symbol b.id) <|>
  (o.callee?.filter fun c => c ∉ symbols).map (.danglingCall f.symbol)

def blockFault? (f : Function) (symbols : List String) (b : Block) : Option VerifyError :=
  (if b.terminator?.isNone then some (.missingTerminator f.symbol b.id) else none) <|>
  b.ops.zipIdx.findSome? (fun (o, i) => f.opFault? symbols b i o) <|>
  ((b.preds ++ b.succs).find? fun t => t ∉ f.blocks.map Block.id).map
    (.unknownBlock f.symbol b.id)

def fault? (f : Function) (symbols : List String) : Option VerifyError :=
  if f.isExternal then
    if f.blocks.isEmpty then none else some (.declarationWithBody f.symbol)
  else if f.blocks.isEmpty then some (.missingBody f.symbol)
  else
    (firstRepeat? (f.blocks.map Block.id)).map (.duplicateBlock f.symbol) <|>
    f.redefined?.map (.duplicateDefinition f.symbol) <|>
    f.blocks.findSome? (f.blockFault? symbols)

end Function

namespace Module

def symbols (m : Module) : List String :=
  m.functions.map Function.symbol

/-- The first thing that is wrong with a module. -/
def fault? (m : Module) : Option VerifyError :=
  (firstRepeat? m.symbols).map .duplicateFunction <|>
  m.functions.findSome? (·.fault? m.symbols)

def verify (m : Module) : Except VerifyError Unit :=
  match m.fault? with
  | some e => .error e
  | none => .ok ()

end Module

end PassEngine.Dialect
