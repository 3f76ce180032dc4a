import PassEngine.Dialect.Ty
import PassEngine.Ir.Ident
import PassEngine.Ir.Operator
import PassEngine.Location

namespace PassEngine.Dialect

inductive Operand where
  | value (id : ValueId)
  | const (n : Int64)
  | global (name : String)
  | func (name : String)
  | undef
  deriving DecidableEq, Repr, Inhabited

/-- What an operation does, one constructor for each construct that passes may see. `knownInlined`
marks a call that the host's own inliner has dealt with. -/
inductive OpKind where
  | binary (op : Arith) (lhs rhs : Operand)
  | cmp (op : Compare) (lhs rhs : Operand)
  | unary (op : Negation) (operand : Operand)
  | convert (op : Convert) (operand : Operand)
  | load (ptr : Operand)
  | store (value ptr : Operand)
  | elementPtr (base : Operand) (indices : List Operand)
  | alloca (allocated : Ty) (count : Option Operand)
  | call (callee : String) (args : List Operand) (knownInlined : Bool)
  | callIndirect (target : Operand) (args : List Operand)
  | intrinsic (name : String) (args : List Operand)
  | cast (operand : Operand)
  | select (cond onTrue onFalse : Operand)
  | phi (incoming : List (Operand × BlockId))
  | ret (value : Option Operand)
  | br (dest : BlockId)
  | condBr (cond : Operand) (onTrue onFalse : BlockId)
  | debugLoc (loc : Location)
  | comment (text : String)
  deriving DecidableEq, Repr

/-- An operation with the value that it defines, if any. It has a type even where it defines
nothing, so that the host can build its instruction again. -/
structure Op where
  result : Option ValueId
  ty : Ty
  kind : OpKind
  deriving DecidableEq, Repr

namespace Operand

def value? : Operand → Option ValueId
  | value id => some id
  | _ => none

end Operand

namespace OpKind

def operands : OpKind → List Operand
  | binary _ lhs rhs | cmp _ lhs rhs => [lhs, rhs]
  | unary _ operand | convert _ operand | cast operand => [operand]
  | load ptr => [ptr]
  | store value ptr => [value, ptr]
  | elementPtr base indices => base :: indices
  | alloca _ count => count.toList
  | call _ args _ | intrinsic _ args => args
  | callIndirect target args => target :: args
  | select cond onTrue onFalse => [cond, onTrue, onFalse]
  | phi incoming => incoming.map (·.1)
  | ret value => value.toList
  | condBr cond _ _ => [cond]
  | br _ | debugLoc _ | comment _ => []

/-- Puts `f` of every operand in its place. -/
def mapOperands (f : Operand → Operand) : OpKind → OpKind
  | binary op lhs rhs => binary op (f lhs) (f rhs)
  | cmp op lhs rhs => cmp op (f lhs) (f rhs)
  | unary op operand => unary op (f operand)
  | convert op operand => convert op (f operand)
  | load ptr => load (f ptr)
  | store value ptr => store (f value) (f ptr)
  | elementPtr base indices => elementPtr (f base) (indices.map f)
  | alloca ty count => alloca ty (count.map f)
  | call callee args known => call callee (args.map f) known
  | callIndirect target args => callIndirect (f target) (args.map f)
  | intrinsic name args => intrinsic name (args.map f)
  | cast operand => cast (f operand)
  | select cond onTrue onFalse => select (f cond) (f onTrue) (f onFalse)
  | phi incoming => phi (incoming.map fun (v, b) => (f v, b))
  | ret value => ret (value.map f)
  | br dest => br dest
  | condBr cond onTrue onFalse => condBr (f cond) onTrue onFalse
  | debugLoc loc => debugLoc loc
  | comment text => comment text

/-- The blocks to which control may go, in operand order. -/
def successors : OpKind → List BlockId
  | br dest => [dest]
  | condBr _ onTrue onFalse => [onTrue, onFalse]
  | _ => []

/-- Every block that is named: branch targets and the edges of phis. -/
def blocks : OpKind → List BlockId
  | phi incoming => incoming.map (·.2)
  | kind => kind.successors

def mapBlocks (f : BlockId → BlockId) : OpKind → OpKind
  | phi incoming => phi (incoming.map fun (v, b) => (v, f b))
  | br dest => br (f dest)
  | condBr cond onTrue onFalse => condBr cond (f onTrue) (f onFalse)
  | kind => kind

def isTerminator : OpKind → Bool
  | ret .. | br .. | condBr .. => true
  | _ => false

/-- Locations and comments mean nothing to the program. -/
def isAnnotation : OpKind → Bool
  | debugLoc .. | comment .. => true
  | _ => false

def isPhi : OpKind → Bool
  | phi .. => true
  | _ => false

def callee? : OpKind → Option String
  | call callee .. => some callee
  | _ => none

def name : OpKind → String
  | binary .. => "pin.binary"
  | cmp .. => "pin.cmp"
  | unary .. => "pin.unary"
  | convert .. => "pin.convert"
  | load .. => "pin.load"
  | store .. => "pin.store"
  | elementPtr .. => "pin.element_ptr"
  | alloca .. => "pin.alloca"
  | call .. => "pin.call"
  | callIndirect .. => "pin.call_indirect"
  | intrinsic .. => "pin.intrinsic"
  | cast .. => "pin.cast"
  | select .. => "pin.select"
  | phi .. => "pin.phi"
  | ret .. => "pin.ret"
  | br .. => "pin.br"
  | condBr .. => "pin.cond_br"
  | debugLoc .. => "pin.debug_loc"
  | comment .. => "pin.comment"

end OpKind

namespace Op

def void (kind : OpKind) : Op := ⟨none, .void, kind⟩

def operands (o : Op) : List Operand := o.kind.operands

def uses (o : Op) : List ValueId := o.operands.filterMap Operand.value?

def mapOperands (f : Operand → Operand) (o : Op) : Op := { o with kind := o.kind.mapOperands f }

def mapBlocks (f : BlockId → BlockId) (o : Op) : Op := { o with kind := o.kind.mapBlocks f }

def successors (o : Op) : List BlockId := o.kind.successors

def blocks (o : Op) : List BlockId := o.kind.blocks

def isTerminator (o : Op) : Bool := o.kind.isTerminator

def isAnnotation (o : Op) : Bool := o.kind.isAnnotation

def callee? (o : Op) : Option String := o.kind.callee?

end Op

end PassEngine.Dialect
