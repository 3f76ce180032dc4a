import PassEngine.Json.Basic
import PassEngine.Naming

namespace PassEngine.Json

/-- What a record says about one of its fields. An object may omit a field; a record written as an
array may end before it. -/
inductive Slot where
  | given (j : Json)
  | omitted
  | missing
  deriving Repr

def readOption {α : Type} (read : Json → Option α) : Json → Option (Option α)
  | null => some none
  | j => (read j).map some

namespace Slot

variable {α : Type}

def required (read : Json → Option α) : Slot → Option α
  | given j => read j
  | _ => none

/-- A field that may be null. Only an object may leave it out. -/
def optional (read : Json → Option α) : Slot → Option (Option α)
  | given j => readOption read j
  | omitted => some none
  | missing => none

def defaulted (default : α) (read : Json → Option α) : Slot → Option α
  | given j => read j
  | _ => some default

end Slot

/-- The fields of a record, which is an object or an array of the fields in order. An object may
have other members, but none of the named ones twice. -/
def slots (names : List String) : Json → Option (List Slot)
  | obj members => names.mapM fun name =>
    match members.filter (·.1 == name) with
    | [] => some .omitted
    | [(_, j)] => some (.given j)
    | _ => none
  | arr items =>
    if items.length ≤ names.length then
      some (items.map .given ++ List.replicate (names.length - items.length) .missing)
    else none
  | _ => none

/-- The tag of a variant and its body, which a bare name does not have. -/
def variant : Json → Option (String × Option Json)
  | str tag => some (tag, none)
  | obj [(tag, body)] => some (tag, some body)
  | _ => none

def tagged (tag : String) (body : Json) : Json :=
  obj [(tag, body)]

/-- How the body of a variant without fields may be written. -/
abbrev UnitForm := Json → Bool

def strictUnit : UnitForm := isNull

/-- Inside a message an empty object stands for nothing too. -/
def looseUnit : UnitForm
  | null => true
  | obj [] => true
  | _ => false

section Read

variable {α β : Type}

def readName (unit : UnitForm) (names : Naming α) (j : Json) : Option α := do
  let (tag, body) ← variant j
  if body.all unit then names.ofName? tag else none

def readString : Json → Option String
  | str s => some s
  | _ => none

def readBool : Json → Option Bool
  | bool b => some b
  | _ => none

def readNat (bound : Nat) : Json → Option Nat
  | int n => if 0 ≤ n ∧ n < bound then some n.toNat else none
  | _ => none

def readUInt8 (j : Json) : Option UInt8 :=
  (readNat UInt8.size j).map UInt8.ofNat

def readUInt32 (j : Json) : Option UInt32 :=
  (readNat UInt32.size j).map UInt32.ofNat

def readUInt64 (j : Json) : Option UInt64 :=
  (readNat UInt64.size j).map UInt64.ofNat

def readInt64 : Json → Option Int64
  | int n =>
    if Int64.minValue.toInt ≤ n ∧ n ≤ Int64.maxValue.toInt then some (Int64.ofInt n) else none
  | _ => none

def readList (read : Json → Option α) : Json → Option (List α)
  | arr items => items.mapM read
  | _ => none

def readPair (first : Json → Option α) (second : Json → Option β) : Json → Option (α × β)
  | arr [a, b] => do return (← first a, ← second b)
  | _ => none

end Read

section Write

variable {α : Type}

def ofOption (write : α → Json) : Option α → Json
  | some a => write a
  | none => null

def ofList (write : α → Json) (xs : List α) : Json :=
  arr (xs.map write)

def ofUInt8 (n : UInt8) : Json := int n.toNat

def ofUInt32 (n : UInt32) : Json := int n.toNat

def ofUInt64 (n : UInt64) : Json := int n.toNat

def ofInt64 (n : Int64) : Json := int n.toInt

def ofNat (n : Nat) : Json := int n

end Write

end PassEngine.Json
