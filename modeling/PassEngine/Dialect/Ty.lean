import PassEngine.Json.Shape
import PassEngine.Text.Pad

namespace PassEngine.Dialect

/-- The types of the dialect. Its integers may have any width, though the host knows only four. -/
inductive Ty where
  | void
  | bool
  | int (bits : UInt8)
  | ptr (pointee : Ty)
  | array (len : UInt64) (elem : Ty)
  | func (ret : Ty) (params : List Ty) (vararg : Bool)
  | struct (name : Option String) (fields : List Ty) (packed : Bool)
  | label
  deriving Repr, Inhabited

namespace Ty

mutual

def same : Ty → Ty → Bool
  | void, void | bool, bool | label, label => true
  | int a, int b => a == b
  | ptr a, ptr b => same a b
  | array n a, array m b => n == m && same a b
  | func r ps v, func r' ps' v' => same r r' && sameList ps ps' && v == v'
  | struct n fs p, struct n' fs' p' => n == n' && sameList fs fs' && p == p'
  | _, _ => false

def sameList : List Ty → List Ty → Bool
  | [], [] => true
  | a :: as, b :: bs => same a b && sameList as bs
  | _, _ => false

end

mutual

theorem same_iff (a b : Ty) : same a b = true ↔ a = b := by
  cases a <;> cases b <;> simp [same]
  case ptr a b => exact same_iff a b
  case array _ a _ b => simp [same_iff a b]
  case func r ps _ r' ps' _ => simp [same_iff r r', sameList_iff ps ps', and_assoc]
  case struct _ fs _ _ fs' _ => simp [sameList_iff fs fs', and_assoc]

theorem sameList_iff (as bs : List Ty) : sameList as bs = true ↔ as = bs := by
  cases as <;> cases bs <;> simp [sameList]
  case cons a as b bs => simp [same_iff a b, sameList_iff as bs]

end

instance : DecidableEq Ty := fun a b => decidable_of_iff _ (same_iff a b)

def simple? (tag : String) : Option Ty :=
  match tag with
  | "Void" => some void
  | "Bool" => some bool
  | "Label" => some label
  | _ => none

mutual

def toJson : Ty → Json
  | void => .str "Void"
  | bool => .str "Bool"
  | label => .str "Label"
  | int bits => .tagged "Int" (.obj [("bits", .ofUInt8 bits)])
  | ptr pointee => .tagged "Ptr" pointee.toJson
  | array len elem => .tagged "Array" (.obj [("len", .ofUInt64 len), ("elem", elem.toJson)])
  | func ret params vararg =>
    .tagged "Func" (.obj [("ret", ret.toJson), ("params", .arr (listJson params)),
      ("vararg", .bool vararg)])
  | struct name fields packed =>
    .tagged "Struct" (.obj [("name", .ofOption .str name), ("fields", .arr (listJson fields)),
      ("packed", .bool packed)])

def listJson : List Ty → List Json
  | [] => []
  | t :: ts => t.toJson :: listJson ts

end

/-- The type with this tag, from its body, whose parts `readPart` reads. -/
def readBody (readPart : Json → Option Ty) (tag : String) (body : Json) : Option Ty := do
  match tag with
  | "Int" =>
    let [bits] ← Json.slots ["bits"] body | none
    return int (← bits.required Json.readUInt8)
  | "Ptr" => return ptr (← readPart body)
  | "Array" =>
    let [len, elem] ← Json.slots ["len", "elem"] body | none
    return array (← len.required Json.readUInt64) (← elem.required readPart)
  | "Func" =>
    let [ret, params, vararg] ← Json.slots ["ret", "params", "vararg"] body | none
    return func (← ret.required readPart) (← params.required (Json.readList readPart))
      (← vararg.required Json.readBool)
  | "Struct" =>
    let [name, fields, packed] ← Json.slots ["name", "fields", "packed"] body | none
    return struct (← name.optional Json.readString) (← fields.required (Json.readList readPart))
      (← packed.required Json.readBool)
  | tag => if Json.looseUnit body then simple? tag else none

/-- Reads a type of which no more than `n` types lie inside each other. -/
def readUpTo : Nat → Json → Option Ty
  | 0, _ => none
  | n + 1, j => do
    match ← Json.variant j with
    | (tag, none) => simple? tag
    | (tag, some body) => readBody (readUpTo n) tag body

/-- A type takes at least one level of nesting for each type inside it. -/
def read (j : Json) : Option Ty :=
  readUpTo (j.depth + 1) j

mutual

def text : Ty → String
  | void => "none"
  | bool => "bool"
  | int bits => s!"i{bits}"
  | ptr pointee => "!ptr<" ++ pointee.text ++ ">"
  | array len elem => s!"!array<{len} x " ++ elem.text ++ ">"
  | func ret params vararg =>
    "(" ++ Text.commaSeparated (listText params) ++ (if vararg then ", ..." else "") ++ ") -> " ++
      ret.text
  | struct (some name) _ _ => s!"!struct<{name}>"
  | struct none fields packed =>
    "!struct<" ++ (if packed then "packed " else "") ++ "\x7b" ++
      Text.commaSeparated (listText fields) ++ "\x7d>"
  | label => "!label"

def listText : List Ty → List String
  | [] => []
  | t :: ts => t.text :: listText ts

end

end Ty

end PassEngine.Dialect
