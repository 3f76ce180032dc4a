import PassEngine.Ir.Ident
import PassEngine.Ir.Operator
import PassEngine.Location
import PassEngine.Native.Ty

namespace PassEngine.Native

/-- An operand of an instruction. Only the initial values of globals are arrays of constants. -/
inductive Value where
  | temp (id : ValueId)
  | const (n : Int64)
  | global (name : String)
  | function (name : String)
  | constArray (ns : List Int64)
  | undef
  deriving DecidableEq, Repr, Inhabited

/-- An operator with two operands: the result of a comparison is a truth value. -/
inductive BinaryOp where
  | arith (op : Arith)
  | compare (op : Compare)
  deriving DecidableEq, Repr, Inhabited

inductive UnaryOp where
  | negate (op : Negation)
  | convert (op : Convert)
  deriving DecidableEq, Repr, Inhabited

structure AsmOperand where
  constraint : String
  value : Value
  tiedTo : Option UInt64
  deriving DecidableEq, Repr

/-- One instruction of the host's IR. `knownInlined` marks a call that the host's own inliner has
dealt with. -/
inductive Instruction where
  | binary (result : ValueId) (op : BinaryOp) (lhs rhs : Value) (ty : Ty)
  | unary (result : ValueId) (op : UnaryOp) (operand : Value) (ty : Ty)
  | load (result : ValueId) (ptr : Value) (ty : Ty)
  | store (value ptr : Value)
  | elementPtr (result : ValueId) (ptr : Value) (indices : List Value) (ty : Ty)
  | alloca (result : ValueId) (allocated : Ty) (count : Option Value) (ty : Ty)
  | call (result : Option ValueId) (target : Value) (args : List Value) (ty : Ty)
      (knownInlined : Bool)
  | ret (value : Option Value)
  | br (dest : BlockId)
  | condBr (cond : Value) (onTrue onFalse : BlockId)
  | phi (result : ValueId) (incoming : List (Value × BlockId)) (ty : Ty)
  | cast (result : ValueId) (value : Value) (ty : Ty)
  | select (result : ValueId) (cond onTrue onFalse : Value) (ty : Ty)
  | intrinsic (result : Option ValueId) (name : String) (args : List Value) (ty : Ty)
  | debugLoc (loc : Location)
  | inlineAsm (assembly : String) (outputs inputs : List AsmOperand) (clobbers : List String)
  | comment (text : String)
  deriving DecidableEq, Repr

namespace BinaryOp

def names : Naming BinaryOp where
  all := Arith.all.map arith ++ Compare.all.map compare
  name
    | arith .add => "Add"
    | arith .sub => "Sub"
    | arith .mul => "Mul"
    | arith .divSigned => "SDiv"
    | arith .divUnsigned => "UDiv"
    | arith .remSigned => "SRem"
    | arith .remUnsigned => "URem"
    | arith .and => "And"
    | arith .or => "Or"
    | arith .xor => "Xor"
    | arith .shiftLeft => "Shl"
    | arith .shiftLogical => "LShr"
    | arith .shiftArith => "AShr"
    | compare op => Compare.names.name op
  find_name op := by cases op <;> rename_i op <;> cases op <;> decide

def mnemonic : BinaryOp → String
  | arith .add => "add"
  | arith .sub => "sub"
  | arith .mul => "mul"
  | arith .divSigned => "sdiv"
  | arith .divUnsigned => "udiv"
  | arith .remSigned => "srem"
  | arith .remUnsigned => "urem"
  | arith .and => "and"
  | arith .or => "or"
  | arith .xor => "xor"
  | arith .shiftLeft => "shl"
  | arith .shiftLogical => "lshr"
  | arith .shiftArith => "ashr"
  | compare op => op.mnemonic

end BinaryOp

namespace UnaryOp

def names : Naming UnaryOp where
  all := Negation.all.map negate ++ Convert.all.map convert
  name
    | negate op => Negation.names.name op
    | convert .zeroExtend => "ZExt"
    | convert .signExtend => "SExt"
    | convert .truncate => "Trunc"
    | convert .ptrToInt => "PtrToInt"
    | convert .intToPtr => "IntToPtr"
  find_name op := by cases op <;> rename_i op <;> cases op <;> decide

def mnemonic : UnaryOp → String
  | negate .not => "not"
  | negate .neg => "neg"
  | convert op => op.mnemonic

end UnaryOp

namespace Instruction

def result? : Instruction → Option ValueId
  | binary result .. | unary result .. | load result .. | elementPtr result .. | alloca result ..
  | phi result .. | cast result .. | select result .. => some result
  | call result .. | intrinsic result .. => result
  | _ => none

def isTerminator : Instruction → Bool
  | ret .. | br .. | condBr .. => true
  | _ => false

def successors : Instruction → List BlockId
  | br dest => [dest]
  | condBr _ onTrue onFalse => [onTrue, onFalse]
  | _ => []

end Instruction

end PassEngine.Native
