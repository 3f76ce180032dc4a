import PassEngine.Json.Token

namespace PassEngine.Json

/-- A container whose end has not been read, with its finished parts, the latest first. A member
waits for the value of its key. -/
inductive Enclosing where
  | array (done : List Json)
  | object (done : List (Option String × Json)) (key : Option String)
  deriving Repr

inductive Parsing where
  | value (outer : List Enclosing)
  | firstItem (outer : List Enclosing)
  | firstKey (outer : List Enclosing)
  | key (outer : List Enclosing) (done : List (Option String × Json))
  | colon (outer : List Enclosing)
  | complete (outer : List Enclosing) (j : Json)
  deriving Repr

/-- An object from its members. A key that denotes no text breaks it. -/
def ofMembers (members : List (Option String × Json)) : Json :=
  match members.mapM fun m => m.1.map fun k => (k, m.2) with
  | some members => obj members
  | none => broken

namespace Parsing

def enter (outer : List Enclosing) : Token → Option Parsing
  | .openArray => some (.firstItem outer)
  | .openObject => some (.firstKey outer)
  | .text (some s) => some (.complete outer (.str s))
  | .text none => some (.complete outer .broken)
  | .atom j => some (.complete outer j)
  | _ => none

def step : Parsing → Token → Option Parsing
  | .value outer, t => enter outer t
  | .firstItem outer, .closeArray => some (.complete outer (.arr []))
  | .firstItem outer, t => enter (.array [] :: outer) t
  | .firstKey outer, .closeObject => some (.complete outer (.obj []))
  | .firstKey outer, .text k => some (.colon (.object [] k :: outer))
  | .key outer done, .text k => some (.colon (.object done k :: outer))
  | .colon outer, .colon => some (.value outer)
  | .complete (.array done :: outer) j, .comma => some (.value (.array (j :: done) :: outer))
  | .complete (.array done :: outer) j, .closeArray =>
    some (.complete outer (.arr (j :: done).reverse))
  | .complete (.object done k :: outer) j, .comma => some (.key outer ((k, j) :: done))
  | .complete (.object done k :: outer) j, .closeObject =>
    some (.complete outer (ofMembers ((k, j) :: done).reverse))
  | _, _ => none

def finish : Parsing → Option Json
  | .complete [] j => some j
  | _ => none

end Parsing

def ofTokens (tokens : List Token) : Option Json := do
  (← tokens.foldlM Parsing.step (.value [])).finish

def parse (text : String) : Option Json := do
  ofTokens (← scan text.toList)

/-- Arrays and objects may lie this many levels deep. -/
def maxDepth : Nat := 127

def read (text : String) : Option Json :=
  (parse text).map (limit maxDepth)

end PassEngine.Json
