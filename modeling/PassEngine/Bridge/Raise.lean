import PassEngine.Diagnostic
import PassEngine.Dialect.Verify
import PassEngine.Native.Module

namespace PassEngine

inductive OpFault where
  | missingResult
  | unwantedResult
  | indirectSymbol
  deriving DecidableEq, Repr

def OpFault.text : OpFault → String
  | missingResult => "missing result value"
  | unwantedResult => "operation cannot define a value"
  | indirectSymbol => "indirect call through a function symbol"

/-- Why a module of the dialect has no native form. -/
inductive RaiseError where
  | malformed (e : Dialect.VerifyError)
  | invalidType (bits : UInt8)
  | invalidOperation (function op : String) (fault : OpFault)
  deriving DecidableEq, Repr

namespace RaiseError

def message : RaiseError → String
  | malformed e => s!"malformed dialect module: {e.message}"
  | invalidType bits => s!"integer width {bits} has no native type"
  | invalidOperation function op fault => s!"invalid {op} in '{function}': {fault.text}"

def toPluginError (e : RaiseError) (point : Point) : PluginError :=
  .malformedResult point e.message

end RaiseError

namespace Dialect

namespace Ty

mutual

def raise : Ty → Except RaiseError Native.Ty
  | void => .ok .void
  | bool => .ok .i1
  | int bits =>
    if bits = 8 then .ok .i8
    else if bits = 16 then .ok .i16
    else if bits = 32 then .ok .i32
    else if bits = 64 then .ok .i64
    else .error (.invalidType bits)
  | ptr pointee => do return .ptr (← pointee.raise)
  | array len elem => do return .array len (← elem.raise)
  | func ret params vararg => do
    let ret ← ret.raise
    return .func ret (← raiseList params) vararg
  | struct name fields packed => do return .struct name (← raiseList fields) packed
  | label => .ok .label

def raiseList : List Ty → Except RaiseError (List Native.Ty)
  | [] => .ok []
  | t :: ts => do
    let t ← t.raise
    return t :: (← raiseList ts)

end

end Ty

namespace Operand

def raise : Operand → Native.Value
  | value id => .temp id
  | const n => .const n
  | global name => .global name
  | func name => .function name
  | undef => .undef

end Operand

namespace GlobalInit

def raise : GlobalInit → Native.Value
  | int n => .const n
  | array ns => .constArray ns
  | global name => .global name
  | func name => .function name
  | undef => .undef

end GlobalInit

namespace Op

def need (o : Op) (function : String) : Except RaiseError ValueId :=
  match o.result with
  | some id => .ok id
  | none => .error (.invalidOperation function o.kind.name .missingResult)

def needNone (o : Op) (function : String) : Except RaiseError Unit :=
  match o.result with
  | some _ => .error (.invalidOperation function o.kind.name .unwantedResult)
  | none => .ok ()

def raise (function : String) (o : Op) : Except RaiseError Native.Instruction := do
  match o.kind with
  | .binary op lhs rhs =>
    return .binary (← o.need function) (.arith op) lhs.raise rhs.raise (← o.ty.raise)
  | .cmp op lhs rhs =>
    return .binary (← o.need function) (.compare op) lhs.raise rhs.raise (← o.ty.raise)
  | .unary op operand =>
    return .unary (← o.need function) (.negate op) operand.raise (← o.ty.raise)
  | .convert op operand =>
    return .unary (← o.need function) (.convert op) operand.raise (← o.ty.raise)
  | .load ptr => return .load (← o.need function) ptr.raise (← o.ty.raise)
  | .store value ptr =>
    o.needNone function
    return .store value.raise ptr.raise
  | .elementPtr base indices =>
    return .elementPtr (← o.need function) base.raise (indices.map Operand.raise) (← o.ty.raise)
  | .alloca allocated count =>
    return .alloca (← o.need function) (← allocated.raise) (count.map Operand.raise) (← o.ty.raise)
  | .call callee args knownInlined =>
    return .call o.result (.function callee) (args.map Operand.raise) (← o.ty.raise) knownInlined
  | .callIndirect (.func _) _ => throw (.invalidOperation function o.kind.name .indirectSymbol)
  | .callIndirect target args =>
    return .call o.result target.raise (args.map Operand.raise) (← o.ty.raise) false
  | .intrinsic name args =>
    return .intrinsic o.result name (args.map Operand.raise) (← o.ty.raise)
  | .cast operand => return .cast (← o.need function) operand.raise (← o.ty.raise)
  | .select cond onTrue onFalse =>
    return .select (← o.need function) cond.raise onTrue.raise onFalse.raise (← o.ty.raise)
  | .phi incoming =>
    return .phi (← o.need function) (incoming.map fun (v, b) => (v.raise, b)) (← o.ty.raise)
  | .ret value =>
    o.needNone function
    return .ret (value.map Operand.raise)
  | .br dest =>
    o.needNone function
    return .br dest
  | .condBr cond onTrue onFalse =>
    o.needNone function
    return .condBr cond.raise onTrue onFalse
  | .debugLoc loc => return .debugLoc loc
  | .comment text => return .comment text

end Op

namespace Block

def raise (function : String) (b : Block) : Except RaiseError Native.Block := do
  return { id := b.id, instructions := ← b.ops.mapM (Op.raise function), preds := b.preds,
           succs := b.succs }

end Block

namespace Function

def raise (f : Function) : Except RaiseError Native.Function := do
  let returnType ← f.ret.raise
  let params ← f.params.mapM fun (id, ty) => do return (id, ← ty.raise)
  let blocks ← f.blocks.mapM (Block.raise f.symbol)
  return {
    name := f.symbol
    returnType
    params
    blocks
    isExternal := f.isExternal
    isVararg := f.isVararg
    inlineHint := f.hint
    location := f.location }

end Function

namespace Global

def raise (g : Global) : Except RaiseError Native.Global := do
  return {
    name := g.symbol
    ty := ← g.ty.raise
    isConstant := g.isConstant
    initial := g.init.map GlobalInit.raise
    linkage := g.linkage }

end Global

namespace Module

/-- The native form of a module that passes verification. -/
def raise (m : Module) : Except RaiseError Native.Module := do
  m.verify.mapError .malformed
  let typeDefs ← m.typeDefs.traverse Ty.raise
  let globals ← m.globals.mapM Global.raise
  let functions ← m.functions.mapM Function.raise
  return { name := m.name, functions, globals, typeDefs }

end Module

end Dialect

end PassEngine
