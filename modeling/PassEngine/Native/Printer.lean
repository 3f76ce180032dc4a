import PassEngine.Native.Module

namespace PassEngine.Native

namespace Value

def text : Value → String
  | temp id => id.text
  | const n => toString n.toInt
  | global name | function name => s!"@{name}"
  | constArray ns => "[" ++ Text.commaSeparated (ns.map fun n => toString n.toInt) ++ "]"
  | undef => "undef"

def listText (vs : List Value) : String :=
  Text.commaSeparated (vs.map text)

end Value

def labelText (b : BlockId) : String :=
  s!"%L{b.index}"

namespace Instruction

private def defining (result : Option ValueId) : String :=
  match result with
  | some id => s!"{id.text} = "
  | none => ""

def text : Instruction → String
  | binary result op lhs rhs ty =>
    s!"{result.text} = {op.mnemonic} {ty.text} {lhs.text}, {rhs.text}"
  | unary result op operand ty => s!"{result.text} = {op.mnemonic} {operand.text} to {ty.text}"
  | load result ptr ty => s!"{result.text} = load {ty.text}, {ptr.text}"
  | store value ptr => s!"store {value.text}, {ptr.text}"
  | elementPtr result ptr indices _ =>
    s!"{result.text} = getelementptr {Value.listText (ptr :: indices)}"
  | alloca result allocated count _ =>
    let count := match count with
      | some n => s!", {n.text}"
      | none => ""
    s!"{result.text} = alloca {allocated.text}{count}"
  | call result target args _ knownInlined =>
    let mark := if knownInlined then " ; inlined" else ""
    s!"{defining result}call {target.text}({Value.listText args}){mark}"
  | ret (some value) => s!"ret {value.text}"
  | ret none => "ret void"
  | br dest => s!"br label {labelText dest}"
  | condBr cond onTrue onFalse =>
    s!"br {cond.text}, label {labelText onTrue}, label {labelText onFalse}"
  | phi result incoming ty =>
    let edges := incoming.map fun (value, block) => s!"[{value.text}, {labelText block}]"
    s!"{result.text} = phi {ty.text} {Text.commaSeparated edges}"
  | cast result value ty => s!"{result.text} = cast {value.text} to {ty.text}"
  | select result cond onTrue onFalse ty =>
    s!"{result.text} = select {cond.text}, {ty.text} {onTrue.text}, {ty.text} {onFalse.text}"
  | intrinsic result name args _ => s!"{defining result}call @{name}({Value.listText args})"
  | debugLoc loc => s!"!dbg {loc.text}"
  | inlineAsm assembly .. => s!"asm \"{assembly}\""
  | comment text => s!"; {text}"

end Instruction

namespace Function

def text (f : Function) : String :=
  let keyword := if f.isExternal then "declare" else "define"
  let params := Text.commaSeparated (f.params.map fun (id, ty) => s!"{ty.text} {id.text}")
  let dots := if f.isVararg then ", ..." else ""
  let hint := if f.inlineHint = .none then "" else s!" #{f.inlineHint.text}"
  let head := s!"{keyword} {f.returnType.text} @{f.name}({params}{dots}){hint}"
  if f.isExternal then head ++ "\n"
  else
    let body := f.blocks.map fun b =>
      s!"L{b.id.index}:\n" ++ String.join (b.instructions.map fun i => s!"  {i.text}\n")
    head ++ " \x7b\n" ++ String.join body ++ "\x7d\n"

end Function

namespace Global

def text (g : Global) : String :=
  let kind := if g.isConstant then "constant" else "global"
  let initial := match g.initial with
    | some v => s!" {v.text}"
    | none => ""
  s!"@{g.name} = {g.linkage.text} {kind} {g.ty.text}{initial}\n"

end Global

namespace Module

def text (m : Module) : String :=
  s!"; module {m.name}\n" ++
    String.join (m.typeDefs.entries.map fun (name, ty) => s!"%{name} = type {ty.text}\n") ++
    String.join (m.globals.map Global.text) ++ String.join (m.functions.map Function.text)

end Module

end PassEngine.Native
