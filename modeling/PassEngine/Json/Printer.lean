import PassEngine.Json.Basic

namespace PassEngine.Json

def lowerHex (n : Nat) : Char :=
  Nat.digitChar n

/-- A character inside a string. Only quotes, backslashes and control characters are escaped. -/
def escape (c : Char) : List Char :=
  if c = '"' then ['\\', '"']
  else if c = '\\' then ['\\', '\\']
  else if c = '\x08' then ['\\', 'b']
  else if c = '\t' then ['\\', 't']
  else if c = '\n' then ['\\', 'n']
  else if c = '\x0c' then ['\\', 'f']
  else if c = '\r' then ['\\', 'r']
  else if c.toNat < 0x20 then
    ['\\', 'u', '0', '0', lowerHex (c.toNat / 16), lowerHex (c.toNat % 16)]
  else [c]

def quote (s : String) : List Char :=
  '"' :: s.toList.flatMap escape ++ ['"']

def digits (n : Int) : List Char :=
  if n < 0 then '-' :: Nat.toDigits 10 n.natAbs else Nat.toDigits 10 n.natAbs

/-- The text of a value without parts. A real, whose value is not kept, is written as zero. -/
def leaf : Json → List Char
  | bool true => ['t', 'r', 'u', 'e']
  | bool false => ['f', 'a', 'l', 's', 'e']
  | int n => digits n
  | str s => quote s
  | real => ['0', '.', '0']
  | _ => ['n', 'u', 'l', 'l']

mutual

def compact : Json → List Char
  | arr items => '[' :: compactItems items ++ [']']
  | obj members => '\x7b' :: compactMembers members ++ ['\x7d']
  | j => leaf j

def compactItems : List Json → List Char
  | [] => []
  | [j] => compact j
  | j :: js => compact j ++ ',' :: compactItems js

def compactMembers : List (String × Json) → List Char
  | [] => []
  | [(k, j)] => quote k ++ ':' :: compact j
  | (k, j) :: ms => quote k ++ ':' :: compact j ++ ',' :: compactMembers ms

end

def newline (level : Nat) : List Char :=
  '\n' :: List.replicate (2 * level) ' '

mutual

/-- A value with each part on a line of its own, two blanks further in than its container. -/
def pretty (level : Nat) : Json → List Char
  | arr [] => ['[', ']']
  | obj [] => ['\x7b', '\x7d']
  | arr items => '[' :: prettyItems (level + 1) items ++ newline level ++ [']']
  | obj members => '\x7b' :: prettyMembers (level + 1) members ++ newline level ++ ['\x7d']
  | j => leaf j

def prettyItems (level : Nat) : List Json → List Char
  | [] => []
  | [j] => newline level ++ pretty level j
  | j :: js => newline level ++ pretty level j ++ ',' :: prettyItems level js

def prettyMembers (level : Nat) : List (String × Json) → List Char
  | [] => []
  | [(k, j)] => newline level ++ quote k ++ ':' :: ' ' :: pretty level j
  | (k, j) :: ms =>
    newline level ++ quote k ++ ':' :: ' ' :: pretty level j ++ ',' :: prettyMembers level ms

end

def toCompact (j : Json) : String :=
  String.ofList (compact j)

def toPretty (j : Json) : String :=
  String.ofList (pretty 0 j)

end PassEngine.Json
