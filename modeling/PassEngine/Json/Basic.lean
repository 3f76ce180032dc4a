namespace PassEngine

/-- A JSON value. An object keeps its members in the order of the text, repeated keys included.
`real` is a number that is no 64-bit integer; nothing here is measured by one, so its value is not
kept. `broken` stands for what the grammar admits but no value is: a string with half a surrogate
pair, a number beyond the largest double, a nesting beyond the reader's limit. -/
inductive Json where
  | null
  | bool (b : Bool)
  | int (n : Int)
  | real
  | str (s : String)
  | arr (items : List Json)
  | obj (members : List (String × Json))
  | broken
  deriving Repr, Inhabited

namespace Json

mutual

def depth : Json → Nat
  | arr items => depthItems items + 1
  | obj members => depthMembers members + 1
  | _ => 0

def depthItems : List Json → Nat
  | [] => 0
  | j :: js => max j.depth (depthItems js)

def depthMembers : List (String × Json) → Nat
  | [] => 0
  | (_, j) :: ms => max j.depth (depthMembers ms)

end

mutual

def isSound : Json → Bool
  | broken => false
  | arr items => soundItems items
  | obj members => soundMembers members
  | _ => true

def soundItems : List Json → Bool
  | [] => true
  | j :: js => j.isSound && soundItems js

def soundMembers : List (String × Json) → Bool
  | [] => true
  | (_, j) :: ms => j.isSound && soundMembers ms

end

mutual

/-- Breaks every array and object that lies more than `n` levels deep. -/
def limit : Nat → Json → Json
  | 0, arr _ => broken
  | n + 1, arr items => arr (limitItems n items)
  | 0, obj _ => broken
  | n + 1, obj members => obj (limitMembers n members)
  | _, j => j

def limitItems (n : Nat) : List Json → List Json
  | [] => []
  | j :: js => limit n j :: limitItems n js

def limitMembers (n : Nat) : List (String × Json) → List (String × Json)
  | [] => []
  | (k, j) :: ms => (k, limit n j) :: limitMembers n ms

end

mutual

/-- Keeps of the members with one key only the last, at every level. -/
def lastWins : Json → Json
  | arr items => arr (lastItems items)
  | obj members => obj (lastMembers members)
  | j => j

def lastItems : List Json → List Json
  | [] => []
  | j :: js => j.lastWins :: lastItems js

def lastMembers : List (String × Json) → List (String × Json)
  | [] => []
  | (k, j) :: ms =>
    if ms.any (·.1 == k) then lastMembers ms else (k, j.lastWins) :: lastMembers ms

end

def isNull : Json → Bool
  | null => true
  | _ => false

/-- The value of an object's last member with this key. -/
def get? (j : Json) (key : String) : Option Json :=
  match j with
  | obj members => (members.reverse.find? (·.1 == key)).map (·.2)
  | _ => none

end Json

end PassEngine
