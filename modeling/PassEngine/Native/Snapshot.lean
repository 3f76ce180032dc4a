import PassEngine.Json.Parser
import PassEngine.Json.Printer
import PassEngine.Native.Module

namespace PassEngine.Native

open Json (slots tagged variant readString readBool readUInt64 readInt64 readList readPair readName
  readOption strictUnit)

namespace Value

def toJson : Value → Json
  | temp id => tagged "Temp" id.toJson
  | const n => tagged "Constant" (.ofInt64 n)
  | global name => tagged "Global" (.str name)
  | function name => tagged "Function" (.str name)
  | constArray ns => tagged "ConstantArray" (.ofList .ofInt64 ns)
  | undef => .str "Undef"

def read (j : Json) : Option Value := do
  match ← variant j with
  | ("Undef", body) => if body.all strictUnit then some undef else none
  | ("Temp", some body) => return temp (← ValueId.read body)
  | ("Constant", some body) => return const (← readInt64 body)
  | ("Global", some body) => return global (← readString body)
  | ("Function", some body) => return function (← readString body)
  | ("ConstantArray", some body) => return constArray (← readList readInt64 body)
  | _ => none

end Value

namespace AsmOperand

def toJson (o : AsmOperand) : Json :=
  .obj [("constraint", .str o.constraint), ("value", o.value.toJson),
    ("tied_to", .ofOption .ofUInt64 o.tiedTo)]

def read (j : Json) : Option AsmOperand := do
  let [constraint, value, tiedTo] ← slots ["constraint", "value", "tied_to"] j | none
  return {
    constraint := ← constraint.required readString
    value := ← value.required Value.read
    tiedTo := ← tiedTo.optional readUInt64 }

end AsmOperand

namespace Instruction

def edgeJson (edge : Value × BlockId) : Json :=
  .arr [edge.1.toJson, edge.2.toJson]

def toJson : Instruction → Json
  | binary result op lhs rhs ty =>
    tagged "Binary" (.obj [("result", result.toJson), ("op", .str (BinaryOp.names.name op)),
      ("lhs", lhs.toJson), ("rhs", rhs.toJson), ("result_type", ty.toJson)])
  | unary result op operand ty =>
    tagged "Unary" (.obj [("result", result.toJson), ("op", .str (UnaryOp.names.name op)),
      ("operand", operand.toJson), ("result_type", ty.toJson)])
  | load result ptr ty =>
    tagged "Load" (.obj [("result", result.toJson), ("ptr", ptr.toJson),
      ("result_type", ty.toJson)])
  | store value ptr => tagged "Store" (.obj [("value", value.toJson), ("ptr", ptr.toJson)])
  | elementPtr result ptr indices ty =>
    tagged "GetElementPtr" (.obj [("result", result.toJson), ("ptr", ptr.toJson),
      ("indices", .ofList Value.toJson indices), ("result_type", ty.toJson)])
  | alloca result allocated count ty =>
    tagged "Alloca" (.obj [("result", result.toJson), ("alloc_type", allocated.toJson),
      ("count", .ofOption Value.toJson count), ("result_type", ty.toJson)])
  | call result target args ty knownInlined =>
    tagged "Call" (.obj [("result", .ofOption ValueId.toJson result), ("function", target.toJson),
      ("args", .ofList Value.toJson args), ("result_type", ty.toJson),
      ("known_inlined", .bool knownInlined)])
  | ret value => tagged "Return" (.ofOption Value.toJson value)
  | br dest => tagged "Branch" dest.toJson
  | condBr cond onTrue onFalse =>
    tagged "BranchCond" (.obj [("condition", cond.toJson), ("true_label", onTrue.toJson),
      ("false_label", onFalse.toJson)])
  | phi result incoming ty =>
    tagged "Phi" (.obj [("result", result.toJson), ("incoming", .ofList edgeJson incoming),
      ("result_type", ty.toJson)])
  | cast result value ty =>
    tagged "Cast" (.obj [("result", result.toJson), ("value", value.toJson),
      ("target_type", ty.toJson)])
  | select result cond onTrue onFalse ty =>
    tagged "Select" (.obj [("result", result.toJson), ("condition", cond.toJson),
      ("true_value", onTrue.toJson), ("false_value", onFalse.toJson), ("result_type", ty.toJson)])
  | intrinsic result name args ty =>
    tagged "Intrinsic" (.obj [("result", .ofOption ValueId.toJson result), ("intrinsic", .str name),
      ("args", .ofList Value.toJson args), ("result_type", ty.toJson)])
  | debugLoc loc => tagged "DebugLoc" (.obj [("location", loc.toJson)])
  | inlineAsm assembly outputs inputs clobbers =>
    tagged "InlineAsm" (.obj [("assembly", .str assembly),
      ("outputs", .ofList AsmOperand.toJson outputs), ("inputs", .ofList AsmOperand.toJson inputs),
      ("clobbers", .ofList .str clobbers)])
  | comment text => tagged "Comment" (.str text)

def readBody (tag : String) (body : Json) : Option Instruction := do
  match tag with
  | "Binary" =>
    let [result, op, lhs, rhs, ty] ← slots ["result", "op", "lhs", "rhs", "result_type"] body | none
    return binary (← result.required ValueId.read)
      (← op.required (readName strictUnit BinaryOp.names)) (← lhs.required Value.read)
      (← rhs.required Value.read) (← ty.required Ty.read)
  | "Unary" =>
    let [result, op, operand, ty] ← slots ["result", "op", "operand", "result_type"] body | none
    return unary (← result.required ValueId.read)
      (← op.required (readName strictUnit UnaryOp.names)) (← operand.required Value.read)
      (← ty.required Ty.read)
  | "Load" =>
    let [result, ptr, ty] ← slots ["result", "ptr", "result_type"] body | none
    return load (← result.required ValueId.read) (← ptr.required Value.read)
      (← ty.required Ty.read)
  | "Store" =>
    let [value, ptr] ← slots ["value", "ptr"] body | none
    return store (← value.required Value.read) (← ptr.required Value.read)
  | "GetElementPtr" =>
    let [result, ptr, indices, ty] ← slots ["result", "ptr", "indices", "result_type"] body | none
    return elementPtr (← result.required ValueId.read) (← ptr.required Value.read)
      (← indices.required (readList Value.read)) (← ty.required Ty.read)
  | "Alloca" =>
    let [result, allocated, count, ty] ← slots ["result", "alloc_type", "count", "result_type"] body
      | none
    return alloca (← result.required ValueId.read) (← allocated.required Ty.read)
      (← count.optional Value.read) (← ty.required Ty.read)
  | "Call" =>
    let [result, target, args, ty, knownInlined] ←
      slots ["result", "function", "args", "result_type", "known_inlined"] body | none
    return call (← result.optional ValueId.read) (← target.required Value.read)
      (← args.required (readList Value.read)) (← ty.required Ty.read)
      (← knownInlined.defaulted false readBool)
  | "Return" => return ret (← readOption Value.read body)
  | "Branch" => return br (← BlockId.read body)
  | "BranchCond" =>
    let [cond, onTrue, onFalse] ← slots ["condition", "true_label", "false_label"] body | none
    return condBr (← cond.required Value.read) (← onTrue.required BlockId.read)
      (← onFalse.required BlockId.read)
  | "Phi" =>
    let [result, incoming, ty] ← slots ["result", "incoming", "result_type"] body | none
    return phi (← result.required ValueId.read)
      (← incoming.required (readList (readPair Value.read BlockId.read))) (← ty.required Ty.read)
  | "Cast" =>
    let [result, value, ty] ← slots ["result", "value", "target_type"] body | none
    return cast (← result.required ValueId.read) (← value.required Value.read)
      (← ty.required Ty.read)
  | "Select" =>
    let [result, cond, onTrue, onFalse, ty] ←
      slots ["result", "condition", "true_value", "false_value", "result_type"] body | none
    return select (← result.required ValueId.read) (← cond.required Value.read)
      (← onTrue.required Value.read) (← onFalse.required Value.read) (← ty.required Ty.read)
  | "Intrinsic" =>
    let [result, name, args, ty] ← slots ["result", "intrinsic", "args", "result_type"] body | none
    return intrinsic (← result.optional ValueId.read) (← name.required readString)
      (← args.required (readList Value.read)) (← ty.required Ty.read)
  | "DebugLoc" =>
    let [loc] ← slots ["location"] body | none
    return debugLoc (← loc.required Location.read)
  | "InlineAsm" =>
    let [assembly, outputs, inputs, clobbers] ←
      slots ["assembly", "outputs", "inputs", "clobbers"] body | none
    return inlineAsm (← assembly.required readString)
      (← outputs.required (readList AsmOperand.read)) (← inputs.required (readList AsmOperand.read))
      (← clobbers.required (readList readString))
  | "Comment" => return comment (← readString body)
  | _ => none

def read (j : Json) : Option Instruction := do
  let (tag, some body) ← variant j | none
  readBody tag body

end Instruction

namespace Block

def toJson (b : Block) : Json :=
  .obj [("id", b.id.toJson), ("instructions", .ofList Instruction.toJson b.instructions),
    ("predecessors", .ofList BlockId.toJson b.preds),
    ("successors", .ofList BlockId.toJson b.succs)]

def read (j : Json) : Option Block := do
  let [id, instructions, preds, succs] ←
    slots ["id", "instructions", "predecessors", "successors"] j | none
  return {
    id := ← id.required BlockId.read
    instructions := ← instructions.required (readList Instruction.read)
    preds := ← preds.required (readList BlockId.read)
    succs := ← succs.required (readList BlockId.read) }

end Block

namespace Function

def paramJson (p : ValueId × Ty) : Json :=
  .arr [p.1.toJson, p.2.toJson]

def toJson (f : Function) : Json :=
  .obj [("name", .str f.name), ("return_type", f.returnType.toJson),
    ("parameters", .ofList paramJson f.params), ("blocks", .ofList Block.toJson f.blocks),
    ("is_external", .bool f.isExternal), ("is_vararg", .bool f.isVararg),
    ("inline_hint", .str (InlineHint.names.name f.inlineHint)),
    ("source_location", .ofOption Location.toJson f.location)]

def read (j : Json) : Option Function := do
  let [name, returnType, params, blocks, isExternal, isVararg, inlineHint, location] ←
    slots ["name", "return_type", "parameters", "blocks", "is_external", "is_vararg", "inline_hint",
      "source_location"] j | none
  return {
    name := ← name.required readString
    returnType := ← returnType.required Ty.read
    params := ← params.required (readList (readPair ValueId.read Ty.read))
    blocks := ← blocks.required (readList Block.read)
    isExternal := ← isExternal.required readBool
    isVararg := ← isVararg.required readBool
    inlineHint := ← inlineHint.defaulted .none (readName strictUnit InlineHint.names)
    location := ← location.optional Location.read }

end Function

namespace Global

def toJson (g : Global) : Json :=
  .obj [("name", .str g.name), ("var_type", g.ty.toJson), ("is_constant", .bool g.isConstant),
    ("initializer", .ofOption Value.toJson g.initial),
    ("linkage", .str (Linkage.names.name g.linkage))]

def read (j : Json) : Option Global := do
  let [name, ty, isConstant, initial, linkage] ←
    slots ["name", "var_type", "is_constant", "initializer", "linkage"] j | none
  return {
    name := ← name.required readString
    ty := ← ty.required Ty.read
    isConstant := ← isConstant.required readBool
    initial := ← initial.optional Value.read
    linkage := ← linkage.required (readName strictUnit Linkage.names) }

end Global

namespace Module

def toJson (m : Module) : Json :=
  .obj [("name", .str m.name), ("functions", .ofList Function.toJson m.functions),
    ("globals", .ofList Global.toJson m.globals),
    ("type_definitions", m.typeDefs.toJson Ty.toJson)]

def read (j : Json) : Option Module := do
  let [name, functions, globals, typeDefs] ←
    slots ["name", "functions", "globals", "type_definitions"] j | none
  return {
    name := ← name.required readString
    functions := ← functions.required (readList Function.read)
    globals := ← globals.required (readList Global.read)
    typeDefs := ← typeDefs.required (NameTable.read Ty.read) }

def save (m : Module) : String :=
  m.toJson.toPretty

def load (text : String) : Option Module := do
  read (← Json.read text)

end Module

end PassEngine.Native
