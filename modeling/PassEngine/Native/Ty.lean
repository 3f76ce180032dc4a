import PassEngine.Json.Shape
import PassEngine.Naming
import PassEngine.Text.Pad

namespace PassEngine.Native

/-- The types of the host's IR. -/
inductive Ty where
  | void
  | i1
  | i8
  | i16
  | i32
  | i64
  | ptr (target : Ty)
  | array (size : UInt64) (element : Ty)
  | func (ret : Ty) (params : List Ty) (vararg : Bool)
  | struct (name : Option String) (fields : List Ty) (packed : Bool)
  | label
  deriving Repr, Inhabited

namespace Ty

mutual

def same : Ty → Ty → Bool
  | void, void | i1, i1 | i8, i8 | i16, i16 | i32, i32 | i64, i64 | label, label => true
  | ptr a, ptr b => same a b
  | array n a, array m b => n == m && same a b
  | func r ps v, func r' ps' v' => same r r' && sameList ps ps' && v == v'
  | struct n fs p, struct n' fs' p' => n == n' && sameList fs fs' && p == p'
  | _, _ => false

def sameList : List Ty → List Ty → Bool
  | [], [] => true
  | a :: as, b :: bs => same a b && sameList as bs
  | _, _ => false

end

mutual

theorem same_iff (a b : Ty) : same a b = true ↔ a = b := by
  cases a <;> cases b <;> simp [same]
  case ptr a b => exact same_iff a b
  case array _ a _ b => simp [same_iff a b]
  case func r ps _ r' ps' _ => simp [same_iff r r', sameList_iff ps ps', and_assoc]
  case struct _ fs _ _ fs' _ => simp [sameList_iff fs fs', and_assoc]

theorem sameList_iff (as bs : List Ty) : sameList as bs = true ↔ as = bs := by
  cases as <;> cases bs <;> simp [sameList]
  case cons a as b bs => simp [same_iff a b, sameList_iff as bs]

end

instance : DecidableEq Ty := fun a b => decidable_of_iff _ (same_iff a b)

def simple? (tag : String) : Option Ty :=
  match tag with
  | "Void" => some void
  | "I1" => some i1
  | "I8" => some i8
  | "I16" => some i16
  | "I32" => some i32
  | "I64" => some i64
  | "Label" => some label
  | _ => none

mutual

def toJson : Ty → Json
  | void => .str "Void"
  | i1 => .str "I1"
  | i8 => .str "I8"
  | i16 => .str "I16"
  | i32 => .str "I32"
  | i64 => .str "I64"
  | label => .str "Label"
  | ptr target => .tagged "Ptr" target.toJson
  | array size element =>
    .tagged "Array" (.obj [("size", .ofUInt64 size), ("element_type", element.toJson)])
  | func ret params vararg =>
    .tagged "Function" (.obj [("return_type", ret.toJson), ("param_types", .arr (listJson params)),
      ("is_vararg", .bool vararg)])
  | struct name fields packed =>
    .tagged "Struct" (.obj [("name", .ofOption .str name), ("fields", .arr (listJson fields)),
      ("packed", .bool packed)])

def listJson : List Ty → List Json
  | [] => []
  | t :: ts => t.toJson :: listJson ts

end

def readBody (readPart : Json → Option Ty) (tag : String) (body : Json) : Option Ty := do
  match tag with
  | "Ptr" => return ptr (← readPart body)
  | "Array" =>
    let [size, element] ← Json.slots ["size", "element_type"] body | none
    return array (← size.required Json.readUInt64) (← element.required readPart)
  | "Function" =>
    let [ret, params, vararg] ← Json.slots ["return_type", "param_types", "is_vararg"] body | none
    return func (← ret.required readPart) (← params.required (Json.readList readPart))
      (← vararg.required Json.readBool)
  | "Struct" =>
    let [name, fields, packed] ← Json.slots ["name", "fields", "packed"] body | none
    return struct (← name.optional Json.readString) (← fields.required (Json.readList readPart))
      (← packed.required Json.readBool)
  | tag => if Json.strictUnit body then simple? tag else none

/-- Reads a type of which no more than `n` types lie inside each other. -/
def readUpTo : Nat → Json → Option Ty
  | 0, _ => none
  | n + 1, j => do
    match ← Json.variant j with
    | (tag, none) => simple? tag
    | (tag, some body) => readBody (readUpTo n) tag body

/-- A type takes at least one level of nesting for each type inside it. -/
def read (j : Json) : Option Ty :=
  readUpTo (j.depth + 1) j

mutual

def text : Ty → String
  | void => "void"
  | i1 => "i1"
  | i8 => "i8"
  | i16 => "i16"
  | i32 => "i32"
  | i64 => "i64"
  | ptr target => target.text ++ "*"
  | array size element => s!"[{size} x " ++ element.text ++ "]"
  | func ret params vararg =>
    ret.text ++ " (" ++ Text.commaSeparated (listText params) ++
      (if vararg then ", ..." else "") ++ ")"
  | struct (some name) _ _ => s!"%{name}"
  | struct none _ _ => "%struct"
  | label => "label"

def listText : List Ty → List String
  | [] => []
  | t :: ts => t.text :: listText ts

end

end Ty

end PassEngine.Native
