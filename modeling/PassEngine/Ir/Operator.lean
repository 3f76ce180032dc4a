import PassEngine.Naming

namespace PassEngine

inductive Arith where
  | add
  | sub
  | mul
  | divSigned
  | divUnsigned
  | remSigned
  | remUnsigned
  | and
  | or
  | xor
  | shiftLeft
  | shiftLogical
  | shiftArith
  deriving DecidableEq, Repr, Inhabited

inductive Compare where
  | eq
  | ne
  | slt
  | sle
  | sgt
  | sge
  | ult
  | ule
  | ugt
  | uge
  deriving DecidableEq, Repr, Inhabited

inductive Negation where
  | not
  | neg
  deriving DecidableEq, Repr, Inhabited

/-- Changes of width or representation. -/
inductive Convert where
  | zeroExtend
  | signExtend
  | truncate
  | ptrToInt
  | intToPtr
  deriving DecidableEq, Repr, Inhabited

namespace Arith

def all : List Arith :=
  [add, sub, mul, divSigned, divUnsigned, remSigned, remUnsigned, and, or, xor, shiftLeft,
    shiftLogical, shiftArith]

end Arith

namespace Compare

def all : List Compare := [eq, ne, slt, sle, sgt, sge, ult, ule, ugt, uge]

def names : Naming Compare where
  all := all
  name
    | eq => "Eq"
    | ne => "Ne"
    | slt => "Slt"
    | sle => "Sle"
    | sgt => "Sgt"
    | sge => "Sge"
    | ult => "Ult"
    | ule => "Ule"
    | ugt => "Ugt"
    | uge => "Uge"
  find_name p := by cases p <;> decide

def mnemonic : Compare → String
  | eq => "eq"
  | ne => "ne"
  | slt => "slt"
  | sle => "sle"
  | sgt => "sgt"
  | sge => "sge"
  | ult => "ult"
  | ule => "ule"
  | ugt => "ugt"
  | uge => "uge"

end Compare

namespace Negation

def all : List Negation := [not, neg]

def names : Naming Negation where
  all := all
  name
    | not => "Not"
    | neg => "Neg"
  find_name n := by cases n <;> decide

end Negation

namespace Convert

def all : List Convert := [zeroExtend, signExtend, truncate, ptrToInt, intToPtr]

def mnemonic : Convert → String
  | zeroExtend => "zext"
  | signExtend => "sext"
  | truncate => "trunc"
  | ptrToInt => "ptrtoint"
  | intToPtr => "inttoptr"

end Convert

end PassEngine
