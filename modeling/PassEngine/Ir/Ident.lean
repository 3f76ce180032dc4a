import PassEngine.Json.Shape

namespace PassEngine

/-- Names a value inside its function: a parameter or what an operation defines. -/
structure ValueId where
  index : UInt32
  deriving DecidableEq, Repr, Inhabited

structure BlockId where
  index : UInt32
  deriving DecidableEq, Repr, Inhabited

namespace ValueId

def toJson (v : ValueId) : Json := .ofUInt32 v.index

def read (j : Json) : Option ValueId := (Json.readUInt32 j).map ValueId.mk

def text (v : ValueId) : String := s!"%{v.index}"

end ValueId

namespace BlockId

instance : Ord BlockId where
  compare a b := compare a.index b.index

def toJson (b : BlockId) : Json := .ofUInt32 b.index

def read (j : Json) : Option BlockId := (Json.readUInt32 j).map BlockId.mk

end BlockId

/-- One more than the largest of some numbers, zero if there are none. It need not be such a number
itself. -/
def firstAbove (ns : List UInt32) : Nat :=
  ns.foldr (fun n above => max (n.toNat + 1) above) 0

def idCount : Nat := UInt32.size

end PassEngine
