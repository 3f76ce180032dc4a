import PassEngine.Native.Module

namespace PassEngine.Native

/-- A function under construction, the block that instructions go to, and the numbers not yet given
to a value or a block of it. -/
structure Builder where
  function : Option Function := none
  block : Option BlockId := none
  nextValue : UInt32 := 0
  nextBlock : UInt32 := 0
  deriving DecidableEq, Repr

inductive BuildError where
  | noFunction
  | noBlock
  | blockGone
  | unknownBlock (id : BlockId) (function : String)
  deriving DecidableEq, Repr

def BuildError.message : BuildError → String
  | noFunction => "No current function"
  | noBlock => "No current block"
  | blockGone => "Current block not found"
  | unknownBlock id function => s!"Block L{id.index} not found in '{function}'"

/-- A building step. One that fails keeps the numbers it has given out. -/
abbrev Build := ExceptT BuildError (StateM Builder)

namespace Builder

def newValue : Build ValueId := do
  let id := (← get).nextValue
  modify fun b => { b with nextValue := id + 1 }
  return ⟨id⟩

def newBlockId : Build BlockId := do
  let id := (← get).nextBlock
  modify fun b => { b with nextBlock := id + 1 }
  return ⟨id⟩

def currentFunction : Build Function := do
  match (← get).function with
  | some f => return f
  | none => throw .noFunction

/-- Starts a function, whose values and blocks are numbered from zero. One that was not finished is
given up. -/
def start (f : Function) : Build Unit :=
  set { function := some f : Builder }

def addParameter (ty : Ty) : Build ValueId := do
  let id ← newValue
  let f ← currentFunction
  modify fun b => { b with function := some { f with params := f.params ++ [(id, ty)] } }
  return id

def addBlock : Build BlockId := do
  let id ← newBlockId
  let f ← currentFunction
  modify fun b =>
    { b with function := some { f with blocks := f.blocks ++ [{ id }] }, block := some id }
  return id

def switchTo (id : BlockId) : Build Unit := do
  let f ← currentFunction
  if (f.block? id).isNone then throw (.unknownBlock id f.name)
  modify fun b => { b with block := some id }

/-- Adds an instruction to the first block with this id. -/
def append (id : BlockId) (i : Instruction) : List Block → Option (List Block)
  | [] => none
  | b :: bs =>
    if b.id = id then some ({ b with instructions := b.instructions ++ [i] } :: bs)
    else (append id i bs).map (b :: ·)

def emit (i : Instruction) : Build Unit := do
  let f ← currentFunction
  let some id := (← get).block | throw .noBlock
  let some blocks := append id i f.blocks | throw .blockGone
  modify fun b => { b with function := some { f with blocks } }

def define (make : ValueId → Instruction) : Build ValueId := do
  let id ← newValue
  emit (make id)
  return id

/-- Emits an instruction that defines a new value unless its type is void. -/
def defineUnlessVoid (ty : Ty) (make : Option ValueId → Instruction) : Build (Option ValueId) := do
  let result ← if ty = .void then pure none else some <$> newValue
  emit (make result)
  return result

def binary (op : BinaryOp) (lhs rhs : Value) (ty : Ty) : Build ValueId :=
  define fun r => .binary r op lhs rhs ty

def unary (op : UnaryOp) (operand : Value) (ty : Ty) : Build ValueId :=
  define fun r => .unary r op operand ty

def load (ptr : Value) (ty : Ty) : Build ValueId :=
  define fun r => .load r ptr ty

def store (value ptr : Value) : Build Unit :=
  emit (.store value ptr)

def alloca (ty : Ty) (count : Option Value) : Build ValueId :=
  define fun r => .alloca r ty count (.ptr ty)

def elementPtr (ptr : Value) (indices : List Value) (ty : Ty) : Build ValueId :=
  define fun r => .elementPtr r ptr indices ty

def call (target : Value) (args : List Value) (ty : Ty) : Build (Option ValueId) :=
  defineUnlessVoid ty fun r => .call r target args ty false

def intrinsic (name : String) (args : List Value) (ty : Ty) : Build (Option ValueId) :=
  defineUnlessVoid ty fun r => .intrinsic r name args ty

def cast (value : Value) (ty : Ty) : Build ValueId :=
  define fun r => .cast r value ty

def select (cond onTrue onFalse : Value) (ty : Ty) : Build ValueId :=
  define fun r => .select r cond onTrue onFalse ty

def phi (incoming : List (Value × BlockId)) (ty : Ty) : Build ValueId :=
  define fun r => .phi r incoming ty

def ret (value : Option Value) : Build Unit :=
  emit (.ret value)

def br (dest : BlockId) : Build Unit :=
  emit (.br dest)

def condBr (cond : Value) (onTrue onFalse : BlockId) : Build Unit :=
  emit (.condBr cond onTrue onFalse)

def debugLoc (loc : Location) : Build Unit :=
  emit (.debugLoc loc)

def comment (text : String) : Build Unit :=
  emit (.comment text)

def inlineAsm (assembly : String) : Build Unit :=
  emit (.inlineAsm assembly [] [] [])

def isTerminated (b : Builder) : Bool :=
  match b.function, b.block with
  | some f, some id => (f.block? id).any Block.hasTerminator
  | _, _ => false

def finish : Build (Option Function) := do
  let f := (← get).function
  modify fun b => { b with function := none, block := none }
  return f.map Function.relinked

end Builder

end PassEngine.Native
