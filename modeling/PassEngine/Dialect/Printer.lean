import PassEngine.Dialect.Verify
import PassEngine.Text.Quoted

namespace PassEngine.Dialect

namespace Operand

def text : Operand → String
  | value id => id.text
  | const n => toString n.toInt
  | global name => s!"@{name}"
  | func name => s!"&@{name}"
  | undef => "undef"

def listText (os : List Operand) : String :=
  Text.commaSeparated (os.map text)

end Operand

def arithMnemonic : Arith → String
  | .add => "add"
  | .sub => "sub"
  | .mul => "mul"
  | .divSigned => "divs"
  | .divUnsigned => "divu"
  | .remSigned => "rems"
  | .remUnsigned => "remu"
  | .and => "and"
  | .or => "or"
  | .xor => "xor"
  | .shiftLeft => "shl"
  | .shiftLogical => "shrl"
  | .shiftArith => "shra"

namespace OpKind

def detail : OpKind → String
  | binary op lhs rhs => s!" {arithMnemonic op} {lhs.text}, {rhs.text}"
  | cmp op lhs rhs => s!" {op.mnemonic} {lhs.text}, {rhs.text}"
  | unary op operand => s!" {Negation.names.name op} {operand.text}"
  | convert op operand => s!" {op.mnemonic} {operand.text}"
  | load ptr => s!" {ptr.text}"
  | store value ptr => s!" {value.text}, {ptr.text}"
  | elementPtr base indices => s!" {base.text}[{Operand.listText indices}]"
  | alloca ty (some count) => s!" {ty.text} x {count.text}"
  | alloca ty none => s!" {ty.text}"
  | call callee args knownInlined =>
    let mark := if knownInlined then " \x7bknown_inlined\x7d" else ""
    s!" @{callee}({Operand.listText args}){mark}"
  | callIndirect target args => s!" {target.text}({Operand.listText args})"
  | intrinsic name args => s!" \"{name}\"({Operand.listText args})"
  | cast operand => s!" {operand.text}"
  | select cond onTrue onFalse => s!" {cond.text}, {onTrue.text}, {onFalse.text}"
  | phi incoming =>
    ",".intercalate (incoming.map fun (value, block) => s!" [{value.text}, {blockText block}]")
  | ret (some value) => s!" {value.text}"
  | ret none => ""
  | br dest => s!" {blockText dest}"
  | condBr cond onTrue onFalse => s!" {cond.text}, {blockText onTrue}, {blockText onFalse}"
  | debugLoc loc => s!" \"{loc.text}\""
  | comment text => s!" \"{text}\""

end OpKind

namespace Op

def text (o : Op) : String :=
  let result := match o.result with
    | some id => s!"{id.text} = "
    | none => ""
  let ty := if o.ty = .void then "" else s!" : {o.ty.text}"
  s!"{result}{o.kind.name}{o.kind.detail}{ty}"

end Op

namespace Function

def text (f : Function) : String :=
  let params := Text.commaSeparated (f.params.map fun (id, ty) => s!"{id.text}: {ty.text}")
  let dots := if f.isVararg then ", ..." else ""
  let external := if f.isExternal then ", external" else ""
  let head := s!"  pin.func @{f.symbol}({params}{dots}) -> {f.ret.text}" ++
    s!" attributes \x7binline = {f.hint.text}{external}\x7d"
  if f.blocks.isEmpty then head ++ "\n"
  else
    let body := f.blocks.map fun b =>
      s!"  {blockText b.id}:\n" ++ String.join (b.ops.map fun o => s!"    {o.text}\n")
    head ++ " \x7b\n" ++ String.join body ++ "  \x7d\n"

end Function

namespace GlobalInit

def text : GlobalInit → String
  | int n => s!"Int({n.toInt})"
  | array ns => "Array([" ++ Text.commaSeparated (ns.map fun n => toString n.toInt) ++ "])"
  | global name => s!"Global({Text.quoted name})"
  | func name => s!"Func({Text.quoted name})"
  | undef => "Undef"

end GlobalInit

namespace Global

def text (g : Global) : String :=
  let mark := if g.isConstant then " constant" else ""
  let init := match g.init with
    | some init => s!" = {init.text}"
    | none => ""
  s!"  pin.global {g.linkage.text} @{g.symbol} : {g.ty.text}{mark}{init}\n"

end Global

namespace Module

def text (m : Module) : String :=
  s!"module @{m.name} \x7b\n" ++
    String.join (m.typeDefs.entries.map fun (name, ty) => s!"  pin.type @{name} = {ty.text}\n") ++
    String.join (m.globals.map Global.text) ++ String.join (m.functions.map Function.text) ++
    "\x7d\n"

end Module

end PassEngine.Dialect
