import PassEngine.Dialect.Module

namespace PassEngine.Inline

open Dialect

inductive SpliceError where
  | overflow
  | outOfRange
  | notACall
  | undefinedValue (callee : String) (value : ValueId)
  | noBody (callee : String)
  deriving DecidableEq, Repr

/-- What the ids of a copied body become. Of several entries for an id the first one counts. -/
structure Renaming where
  values : List (ValueId × Operand)
  blocks : List (BlockId × BlockId)
  deriving DecidableEq, Repr

namespace Renaming

def value? (r : Renaming) (v : ValueId) : Option Operand :=
  (r.values.find? (·.1 == v)).map (·.2)

def block (r : Renaming) (b : BlockId) : BlockId :=
  ((r.blocks.find? (·.1 == b)).map (·.2)).getD b

def operand (r : Renaming) (o : Operand) : Operand :=
  match o with
  | .value v => (r.value? v).getD o
  | _ => o

def op (r : Renaming) (o : Op) : Op where
  result := o.result.bind fun v => (r.value? v).bind Operand.value?
  ty := o.ty
  kind := (o.kind.mapOperands r.operand).mapBlocks r.block

end Renaming

/-- A counter at a number. It has room for the numbers of ids only. -/
def counterAt (n : Nat) : Except SpliceError UInt32 :=
  if n < idCount then return .ofNat n else throw .overflow

/-- Hands out as many ids as asked for, in a row. The counter goes on by one after each of them, so
that it cannot hand out the last id that there is. -/
def draw (next : UInt32) : (count : Nat) → Except SpliceError (List UInt32)
  | 0 => return []
  | count + 1 => do
    let after ← counterAt (next.toNat + 1)
    return next :: (← draw after count)

/-- The ids made up for the copy of a body: for the block after it, for each of its blocks and for
each result of its operations. -/
structure FreshIds where
  cont : BlockId
  blocks : List BlockId
  values : List ValueId
  deriving DecidableEq, Repr

def freshIds (caller callee : Function) : Except SpliceError FreshIds := do
  let nextValue ← counterAt caller.nextValue
  let cont ← counterAt caller.nextBlock
  let nextBlock ← counterAt (cont.toNat + 1)
  let blocks ← draw nextBlock callee.blocks.length
  let values ← draw nextValue (callee.ops.filterMap Op.result).length
  return { cont := ⟨cont⟩, blocks := blocks.map BlockId.mk, values := values.map ValueId.mk }

/-- Maps parameters to arguments, results to fresh values and blocks to fresh blocks. A later entry
goes before an earlier one, and a result before a parameter. -/
def Renaming.ofIds (callee : Function) (args : List Operand) (values : List ValueId)
    (blocks : List BlockId) : Renaming :=
  let results := callee.ops.filterMap Op.result
  { values := ((callee.params.map (·.1)).zip args ++
      results.zip (values.map Operand.value)).reverse
    blocks := ((callee.blocks.map Block.id).zip blocks).reverse }

/-- The copy of an operation in the caller, where returning means going on at `cont`. -/
def copyOp (r : Renaming) (cont : BlockId) (o : Op) : Op :=
  let copy := r.op o
  match copy.kind with
  | .ret _ => .void (.br cont)
  | _ => copy

def copyBlock (r : Renaming) (cont : BlockId) (b : Block) : Block where
  id := r.block b.id
  ops := b.ops.map (copyOp r cont)

def returns (r : Renaming) (callee : Function) : List (Operand × BlockId) :=
  callee.blocks.flatMap fun b => b.ops.filterMap fun o =>
    match o.kind with
    | .ret value => some ((value.map r.operand).getD .undef, r.block b.id)
    | _ => none

/-- How the value of the call is found afterwards: by an operation that defines it anew, or by
another operand in its place. -/
inductive Merge where
  | nothing
  | phi (o : Op)
  | replace (result : ValueId) (operand : Operand)
  deriving DecidableEq, Repr

def merge (call : Op) (rets : List (Operand × BlockId)) : Merge :=
  match call.result, rets with
  | none, _ => .nothing
  | some v, [] => .replace v .undef
  | some v, [(operand, _)] => .replace v operand
  | some v, rets => .phi ⟨some v, call.ty, .phi rets⟩

def continuation (cont : BlockId) (m : Merge) (tail : List Op) : Block where
  id := cont
  ops := match m with
    | .phi o => o :: tail
    | _ => tail

/-- In the successors of the split block, phis see the continuation in its place. -/
def redirectPhis (targets : List BlockId) (split cont : BlockId) (b : Block) : Block :=
  if b.id ∈ targets then
    b.mapOps fun o =>
      if o.kind.isPhi then o.mapBlocks fun p => if p = split then cont else p else o
  else b

def substitute (m : Merge) (b : Block) : Block :=
  match m with
  | .replace v operand => b.mapOps (Op.mapOperands fun o => if o = .value v then operand else o)
  | _ => b

/-- Replaces the call at a position by a copy of the called body. The block of the call is split, so
that the copy lies between its two halves. -/
def splice (caller : Function) (block op : Nat) (callee : Function) :
    Except SpliceError Function := do
  let some b := caller.blocks[block]? | throw .outOfRange
  let some call := b.ops[op]? | throw .outOfRange
  let .call _ args _ := call.kind | throw .notACall
  let ids ← freshIds caller callee
  let cont := ids.cont
  let r := Renaming.ofIds callee args ids.values ids.blocks
  if let some v := (callee.ops.flatMap Op.uses).find? fun v => (r.value? v).isNone then
    throw (.undefinedValue callee.symbol v)
  let some entry := callee.blocks.head? | throw (.noBody callee.symbol)
  let merged := merge call (returns r callee)
  let first := { b with ops := b.ops.take op ++ [.void (.br (r.block entry.id))] }
  let last := continuation cont merged (b.ops.drop (op + 1))
  let blocks := caller.blocks.take block ++ first :: callee.blocks.map (copyBlock r cont) ++
    last :: caller.blocks.drop (block + 1)
  let blocks := blocks.map (redirectPhis last.flow.targets b.id cont)
  return Function.relinked { caller with blocks := blocks.map (substitute merged) }

end PassEngine.Inline
