import PassEngine.Diagnostic
import PassEngine.Dialect.Module
import PassEngine.Native.Module

namespace PassEngine

/-- What the host's IR has and the dialect lacks. -/
inductive Construct where
  | temporaryInitializer
  | externalBody
  | constantArray
  | inlinedIndirectCall
  | inlineAssembly
  deriving DecidableEq, Repr

def Construct.text : Construct → String
  | temporaryInitializer => "temporary used as global initializer"
  | externalBody => "external function with a body"
  | constantArray => "constant array used as operand"
  | inlinedIndirectCall => "indirect call marked as inlined"
  | inlineAssembly => "inline assembly"

structure Unsupported where
  symbol : String
  construct : Construct
  deriving DecidableEq, Repr

namespace Unsupported

def toPluginError (e : Unsupported) : PluginError :=
  .unsupportedConstruct e.symbol e.construct.text

def message (e : Unsupported) : String :=
  e.toPluginError.message

end Unsupported

namespace Native

namespace Ty

mutual

def lower : Ty → Dialect.Ty
  | void => .void
  | i1 => .bool
  | i8 => .int 8
  | i16 => .int 16
  | i32 => .int 32
  | i64 => .int 64
  | ptr target => .ptr target.lower
  | array size element => .array size element.lower
  | func ret params vararg => .func ret.lower (lowerList params) vararg
  | struct name fields packed => .struct name (lowerList fields) packed
  | label => .label

def lowerList : List Ty → List Dialect.Ty
  | [] => []
  | t :: ts => t.lower :: lowerList ts

end

end Ty

namespace Value

def lower : Value → Except Construct Dialect.Operand
  | temp id => .ok (.value id)
  | const n => .ok (.const n)
  | global name => .ok (.global name)
  | function name => .ok (.func name)
  | undef => .ok .undef
  | constArray _ => .error .constantArray

def lowerInit : Value → Except Construct Dialect.GlobalInit
  | const n => .ok (.int n)
  | constArray ns => .ok (.array ns)
  | global name => .ok (.global name)
  | function name => .ok (.func name)
  | undef => .ok .undef
  | temp _ => .error .temporaryInitializer

end Value

namespace Instruction

def lowerBinary (op : BinaryOp) (lhs rhs : Dialect.Operand) : Dialect.OpKind :=
  match op with
  | .arith op => .binary op lhs rhs
  | .compare op => .cmp op lhs rhs

def lowerUnary (op : UnaryOp) (operand : Dialect.Operand) : Dialect.OpKind :=
  match op with
  | .negate op => .unary op operand
  | .convert op => .convert op operand

/-- A call of a function by its name is direct, and only such a call may be marked as inlined. -/
def lowerCall (target : Value) (args : List Dialect.Operand) (knownInlined : Bool) :
    Except Construct Dialect.OpKind :=
  match target with
  | .function callee => .ok (.call callee args knownInlined)
  | target =>
    if knownInlined then .error .inlinedIndirectCall
    else do return .callIndirect (← target.lower) args

def lower : Instruction → Except Construct Dialect.Op
  | binary result op lhs rhs ty => do
    return ⟨some result, ty.lower, lowerBinary op (← lhs.lower) (← rhs.lower)⟩
  | unary result op operand ty => do
    return ⟨some result, ty.lower, lowerUnary op (← operand.lower)⟩
  | load result ptr ty => do return ⟨some result, ty.lower, .load (← ptr.lower)⟩
  | store value ptr => do return .void (.store (← value.lower) (← ptr.lower))
  | elementPtr result ptr indices ty => do
    return ⟨some result, ty.lower, .elementPtr (← ptr.lower) (← indices.mapM Value.lower)⟩
  | alloca result allocated count ty => do
    return ⟨some result, ty.lower, .alloca allocated.lower (← count.mapM Value.lower)⟩
  | call result target args ty knownInlined => do
    return ⟨result, ty.lower, ← lowerCall target (← args.mapM Value.lower) knownInlined⟩
  | ret value => do return .void (.ret (← value.mapM Value.lower))
  | br dest => .ok (.void (.br dest))
  | condBr cond onTrue onFalse => do return .void (.condBr (← cond.lower) onTrue onFalse)
  | phi result incoming ty => do
    return ⟨some result, ty.lower, .phi (← incoming.mapM fun (v, b) => do return (← v.lower, b))⟩
  | cast result value ty => do return ⟨some result, ty.lower, .cast (← value.lower)⟩
  | select result cond onTrue onFalse ty => do
    return ⟨some result, ty.lower, .select (← cond.lower) (← onTrue.lower) (← onFalse.lower)⟩
  | intrinsic result name args ty => do
    return ⟨result, ty.lower, .intrinsic name (← args.mapM Value.lower)⟩
  | debugLoc loc => .ok (.void (.debugLoc loc))
  | comment text => .ok (.void (.comment text))
  | inlineAsm .. => .error .inlineAssembly

end Instruction

namespace Block

def lower (b : Block) : Except Construct Dialect.Block := do
  return { id := b.id, ops := ← b.instructions.mapM Instruction.lower, preds := b.preds,
           succs := b.succs }

end Block

namespace Function

/-- The body of a function, which an external one must not have. -/
def lowerBlocks (f : Function) : Except Construct (List Dialect.Block) :=
  if f.isExternal ∧ f.blocks ≠ [] then .error .externalBody else f.blocks.mapM Block.lower

def lower (f : Function) : Except Unsupported Dialect.Function := do
  return {
    symbol := f.name
    params := f.params.map fun (id, ty) => (id, ty.lower)
    ret := f.returnType.lower
    isVararg := f.isVararg
    hint := f.inlineHint
    isExternal := f.isExternal
    location := f.location
    blocks := ← f.lowerBlocks.mapError (Unsupported.mk f.name) }

end Function

namespace Global

def lower (g : Global) : Except Unsupported Dialect.Global := do
  return {
    symbol := g.name
    ty := g.ty.lower
    isConstant := g.isConstant
    init := ← (g.initial.mapM Value.lowerInit).mapError (Unsupported.mk g.name)
    linkage := g.linkage }

end Global

namespace Module

/-- The dialect's form of a module. The globals are looked at before the functions. -/
def lower (m : Module) : Except Unsupported Dialect.Module := do
  let globals ← m.globals.mapM Global.lower
  let functions ← m.functions.mapM Function.lower
  return { name := m.name, functions, globals, typeDefs := m.typeDefs.map Ty.lower }

end Module

end Native

end PassEngine
