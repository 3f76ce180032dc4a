namespace PassEngine.Text

inductive Align where
  | left
  | right
  | centre
  deriving DecidableEq, Repr

/-- Fills `s` up to `width` characters. A text that is long enough stays as it is, and of an odd
number of fillers around a centred text the extra one follows it. -/
def pad (align : Align) (fill : Char) (width : Nat) (s : String) : String :=
  let missing := width - s.length
  let fillers (n : Nat) := String.ofList (List.replicate n fill)
  match align with
  | .left => s ++ fillers missing
  | .right => fillers missing ++ s
  | .centre => fillers (missing / 2) ++ s ++ fillers (missing - missing / 2)

def clip (limit : Option Nat) (s : String) : String :=
  match limit with
  | some n => String.ofList (s.toList.take n)
  | none => s

/-- A width or a limit is a number of 16 bits. -/
def isExtent (n : Nat) : Bool :=
  n < UInt16.size

def field? (align : Align) (fill : Char) (width : Nat) (limit : Option Nat) (s : String) :
    Option String :=
  if isExtent width && limit.all isExtent then some (pad align fill width (clip limit s)) else none

def commaSeparated (parts : List String) : String :=
  ", ".intercalate parts

def plural (n : Nat) : String :=
  if n = 1 then "" else "s"

end PassEngine.Text
