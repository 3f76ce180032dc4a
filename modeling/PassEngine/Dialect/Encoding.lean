import PassEngine.Dialect.Module

namespace PassEngine.Dialect

open Json (slots tagged variant readString readBool readInt64 readList readPair readName looseUnit)

namespace Operand

def toJson : Operand → Json
  | value id => tagged "Value" id.toJson
  | const n => tagged "Const" (.ofInt64 n)
  | global name => tagged "Global" (.str name)
  | func name => tagged "Func" (.str name)
  | undef => .str "Undef"

def read (j : Json) : Option Operand := do
  match ← variant j with
  | ("Undef", body) => if body.all looseUnit then some undef else none
  | ("Value", some body) => return value (← ValueId.read body)
  | ("Const", some body) => return const (← readInt64 body)
  | ("Global", some body) => return global (← readString body)
  | ("Func", some body) => return func (← readString body)
  | _ => none

end Operand

def arithNames : Naming Arith where
  all := Arith.all
  name
    | .add => "Add"
    | .sub => "Sub"
    | .mul => "Mul"
    | .divSigned => "DivS"
    | .divUnsigned => "DivU"
    | .remSigned => "RemS"
    | .remUnsigned => "RemU"
    | .and => "And"
    | .or => "Or"
    | .xor => "Xor"
    | .shiftLeft => "Shl"
    | .shiftLogical => "ShrL"
    | .shiftArith => "ShrA"
  find_name op := by cases op <;> decide

def convertNames : Naming Convert where
  all := Convert.all
  name
    | .zeroExtend => "ZeroExtend"
    | .signExtend => "SignExtend"
    | .truncate => "Truncate"
    | .ptrToInt => "PtrToInt"
    | .intToPtr => "IntToPtr"
  find_name op := by cases op <;> decide

namespace OpKind

def edgeJson (edge : Operand × BlockId) : Json :=
  .arr [edge.1.toJson, edge.2.toJson]

def toJson : OpKind → Json
  | binary op lhs rhs =>
    tagged "Binary" (.obj [("op", .str (arithNames.name op)), ("lhs", lhs.toJson),
      ("rhs", rhs.toJson)])
  | cmp op lhs rhs =>
    tagged "Cmp" (.obj [("pred", .str (Compare.names.name op)), ("lhs", lhs.toJson),
      ("rhs", rhs.toJson)])
  | unary op operand =>
    tagged "Unary" (.obj [("op", .str (Negation.names.name op)), ("operand", operand.toJson)])
  | convert op operand =>
    tagged "Convert" (.obj [("kind", .str (convertNames.name op)), ("operand", operand.toJson)])
  | load ptr => tagged "Load" (.obj [("ptr", ptr.toJson)])
  | store value ptr => tagged "Store" (.obj [("value", value.toJson), ("ptr", ptr.toJson)])
  | elementPtr base indices =>
    tagged "ElementPtr" (.obj [("base", base.toJson), ("indices", .ofList Operand.toJson indices)])
  | alloca ty count =>
    tagged "Alloca" (.obj [("alloc_ty", ty.toJson), ("count", .ofOption Operand.toJson count)])
  | call callee args knownInlined =>
    tagged "Call" (.obj [("callee", .str callee), ("args", .ofList Operand.toJson args),
      ("known_inlined", .bool knownInlined)])
  | callIndirect target args =>
    tagged "CallIndirect" (.obj [("target", target.toJson), ("args", .ofList Operand.toJson args)])
  | intrinsic name args =>
    tagged "Intrinsic" (.obj [("name", .str name), ("args", .ofList Operand.toJson args)])
  | cast operand => tagged "Cast" (.obj [("operand", operand.toJson)])
  | select cond onTrue onFalse =>
    tagged "Select" (.obj [("cond", cond.toJson), ("on_true", onTrue.toJson),
      ("on_false", onFalse.toJson)])
  | phi incoming => tagged "Phi" (.obj [("incoming", .ofList edgeJson incoming)])
  | ret value => tagged "Ret" (.obj [("value", .ofOption Operand.toJson value)])
  | br dest => tagged "Br" (.obj [("dest", dest.toJson)])
  | condBr cond onTrue onFalse =>
    tagged "CondBr" (.obj [("cond", cond.toJson), ("on_true", onTrue.toJson),
      ("on_false", onFalse.toJson)])
  | debugLoc loc => tagged "DebugLoc" (.obj [("loc", loc.toJson)])
  | comment text => tagged "Comment" (.obj [("text", .str text)])

def readBody (tag : String) (body : Json) : Option OpKind := do
  match tag with
  | "Binary" =>
    let [op, lhs, rhs] ← slots ["op", "lhs", "rhs"] body | none
    return binary (← op.required (readName looseUnit arithNames)) (← lhs.required Operand.read)
      (← rhs.required Operand.read)
  | "Cmp" =>
    let [op, lhs, rhs] ← slots ["pred", "lhs", "rhs"] body | none
    return cmp (← op.required (readName looseUnit Compare.names)) (← lhs.required Operand.read)
      (← rhs.required Operand.read)
  | "Unary" =>
    let [op, operand] ← slots ["op", "operand"] body | none
    return unary (← op.required (readName looseUnit Negation.names))
      (← operand.required Operand.read)
  | "Convert" =>
    let [op, operand] ← slots ["kind", "operand"] body | none
    return convert (← op.required (readName looseUnit convertNames))
      (← operand.required Operand.read)
  | "Load" =>
    let [ptr] ← slots ["ptr"] body | none
    return load (← ptr.required Operand.read)
  | "Store" =>
    let [value, ptr] ← slots ["value", "ptr"] body | none
    return store (← value.required Operand.read) (← ptr.required Operand.read)
  | "ElementPtr" =>
    let [base, indices] ← slots ["base", "indices"] body | none
    return elementPtr (← base.required Operand.read) (← indices.required (readList Operand.read))
  | "Alloca" =>
    let [ty, count] ← slots ["alloc_ty", "count"] body | none
    return alloca (← ty.required Ty.read) (← count.optional Operand.read)
  | "Call" =>
    let [callee, args, knownInlined] ← slots ["callee", "args", "known_inlined"] body | none
    return call (← callee.required readString) (← args.required (readList Operand.read))
      (← knownInlined.required readBool)
  | "CallIndirect" =>
    let [target, args] ← slots ["target", "args"] body | none
    return callIndirect (← target.required Operand.read) (← args.required (readList Operand.read))
  | "Intrinsic" =>
    let [name, args] ← slots ["name", "args"] body | none
    return intrinsic (← name.required readString) (← args.required (readList Operand.read))
  | "Cast" =>
    let [operand] ← slots ["operand"] body | none
    return cast (← operand.required Operand.read)
  | "Select" =>
    let [cond, onTrue, onFalse] ← slots ["cond", "on_true", "on_false"] body | none
    return select (← cond.required Operand.read) (← onTrue.required Operand.read)
      (← onFalse.required Operand.read)
  | "Phi" =>
    let [incoming] ← slots ["incoming"] body | none
    return phi (← incoming.required (readList (readPair Operand.read BlockId.read)))
  | "Ret" =>
    let [value] ← slots ["value"] body | none
    return ret (← value.optional Operand.read)
  | "Br" =>
    let [dest] ← slots ["dest"] body | none
    return br (← dest.required BlockId.read)
  | "CondBr" =>
    let [cond, onTrue, onFalse] ← slots ["cond", "on_true", "on_false"] body | none
    return condBr (← cond.required Operand.read) (← onTrue.required BlockId.read)
      (← onFalse.required BlockId.read)
  | "DebugLoc" =>
    let [loc] ← slots ["loc"] body | none
    return debugLoc (← loc.required Location.read)
  | "Comment" =>
    let [text] ← slots ["text"] body | none
    return comment (← text.required readString)
  | _ => none

def read (j : Json) : Option OpKind := do
  let (tag, some body) ← variant j | none
  readBody tag body

end OpKind

namespace Op

def toJson (o : Op) : Json :=
  .obj [("result", .ofOption ValueId.toJson o.result), ("ty", o.ty.toJson),
    ("kind", o.kind.toJson)]

def read (j : Json) : Option Op := do
  let [result, ty, kind] ← slots ["result", "ty", "kind"] j | none
  return {
    result := ← result.optional ValueId.read
    ty := ← ty.required Ty.read
    kind := ← kind.required OpKind.read }

end Op

namespace Block

def toJson (b : Block) : Json :=
  .obj [("id", b.id.toJson), ("ops", .ofList Op.toJson b.ops),
    ("preds", .ofList BlockId.toJson b.preds), ("succs", .ofList BlockId.toJson b.succs)]

def read (j : Json) : Option Block := do
  let [id, ops, preds, succs] ← slots ["id", "ops", "preds", "succs"] j | none
  return {
    id := ← id.required BlockId.read
    ops := ← ops.required (readList Op.read)
    preds := ← preds.required (readList BlockId.read)
    succs := ← succs.required (readList BlockId.read) }

end Block

namespace Function

def paramJson (p : ValueId × Ty) : Json :=
  .obj [("value", p.1.toJson), ("ty", p.2.toJson)]

def readParam (j : Json) : Option (ValueId × Ty) := do
  let [value, ty] ← slots ["value", "ty"] j | none
  return (← value.required ValueId.read, ← ty.required Ty.read)

/-- What a function's record keeps apart as its attributes. -/
def attrsJson (f : Function) : Json :=
  .obj [("inline", .str (InlineHint.names.name f.hint)), ("external", .bool f.isExternal),
    ("loc", .ofOption Location.toJson f.location)]

def readAttrs (j : Json) : Option (InlineHint × Bool × Option Location) := do
  let [hint, external, loc] ← slots ["inline", "external", "loc"] j | none
  return (← hint.required (readName looseUnit InlineHint.names), ← external.required readBool,
    ← loc.optional Location.read)

def toJson (f : Function) : Json :=
  .obj [("symbol", .str f.symbol), ("params", .ofList paramJson f.params), ("ret", f.ret.toJson),
    ("vararg", .bool f.isVararg), ("attrs", f.attrsJson), ("blocks", .ofList Block.toJson f.blocks)]

def read (j : Json) : Option Function := do
  let [symbol, params, ret, vararg, attrs, blocks] ←
    slots ["symbol", "params", "ret", "vararg", "attrs", "blocks"] j | none
  let (hint, isExternal, location) ← attrs.required readAttrs
  return {
    symbol := ← symbol.required readString
    params := ← params.required (readList readParam)
    ret := ← ret.required Ty.read
    isVararg := ← vararg.required readBool
    hint
    isExternal
    location
    blocks := ← blocks.required (readList Block.read) }

end Function

namespace GlobalInit

def toJson : GlobalInit → Json
  | int n => tagged "Int" (.ofInt64 n)
  | array ns => tagged "Array" (.ofList .ofInt64 ns)
  | global name => tagged "Global" (.str name)
  | func name => tagged "Func" (.str name)
  | undef => .str "Undef"

def read (j : Json) : Option GlobalInit := do
  match ← variant j with
  | ("Undef", body) => if body.all looseUnit then some undef else none
  | ("Int", some body) => return int (← readInt64 body)
  | ("Array", some body) => return array (← readList readInt64 body)
  | ("Global", some body) => return global (← readString body)
  | ("Func", some body) => return func (← readString body)
  | _ => none

end GlobalInit

namespace Global

def toJson (g : Global) : Json :=
  .obj [("symbol", .str g.symbol), ("ty", g.ty.toJson), ("constant", .bool g.isConstant),
    ("init", .ofOption GlobalInit.toJson g.init), ("linkage", .str (Linkage.names.name g.linkage))]

def read (j : Json) : Option Global := do
  let [symbol, ty, isConstant, init, linkage] ←
    slots ["symbol", "ty", "constant", "init", "linkage"] j | none
  return {
    symbol := ← symbol.required readString
    ty := ← ty.required Ty.read
    isConstant := ← isConstant.required readBool
    init := ← init.optional GlobalInit.read
    linkage := ← linkage.required (readName looseUnit Linkage.names) }

end Global

namespace Module

def members (m : Module) : List (String × Json) :=
  [("name", .str m.name), ("functions", .ofList Function.toJson m.functions),
    ("globals", .ofList Global.toJson m.globals), ("type_defs", m.typeDefs.toJson Ty.toJson)]

def toJson (m : Module) : Json := .obj m.members

def read (j : Json) : Option Module := do
  let [name, functions, globals, typeDefs] ←
    slots ["name", "functions", "globals", "type_defs"] j | none
  return {
    name := ← name.required readString
    functions := ← functions.required (readList Function.read)
    globals := ← globals.required (readList Global.read)
    typeDefs := ← typeDefs.required (NameTable.read Ty.read) }

end Module

end PassEngine.Dialect
