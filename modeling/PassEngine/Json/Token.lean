import PassEngine.Json.Basic
import PassEngine.Json.Number

namespace PassEngine.Json

/-- What the grammar of JSON text is made of. A string that denotes no text is `text none`. -/
inductive Token where
  | openArray
  | closeArray
  | openObject
  | closeObject
  | comma
  | colon
  | text (s : Option String)
  | atom (j : Json)
  deriving Repr, Inhabited

namespace Token

def punctuation? (c : Char) : Option Token :=
  if c = '[' then some openArray
  else if c = ']' then some closeArray
  else if c = '\x7b' then some openObject
  else if c = '\x7d' then some closeObject
  else if c = ',' then some comma
  else if c = ':' then some colon
  else none

def isBlank (c : Char) : Bool :=
  c = ' ' ∨ c = '\n' ∨ c = '\t' ∨ c = '\r'

def isWordChar (c : Char) : Bool :=
  c.isAlphanum || c = '+' || c = '-' || c = '.'

def ofWord? (word : List Char) : Option Token :=
  if word = ['n', 'u', 'l', 'l'] then some (atom .null)
  else if word = ['t', 'r', 'u', 'e'] then some (atom (.bool true))
  else if word = ['f', 'a', 'l', 's', 'e'] then some (atom (.bool false))
  else (Numeral.parse word).map fun n => atom n.toJson

end Token

/-- A string of which the end has not been read: its characters, the latest first, and the first
half of a surrogate pair that waits for the second. -/
structure Literal where
  done : List Char := []
  high : Option Nat := none
  sound : Bool := true
  deriving DecidableEq, Repr

namespace Literal

def push (l : Literal) (c : Char) : Literal :=
  { done := c :: l.done, high := none, sound := l.sound && l.high.isNone }

def isHigh (u : Nat) : Bool := 0xd800 ≤ u ∧ u < 0xdc00

def isLow (u : Nat) : Bool := 0xdc00 ≤ u ∧ u < 0xe000

/-- Adds a 16-bit unit. Only a high half that a low half follows at once makes a character. -/
def pushUnit (l : Literal) (u : Nat) : Literal :=
  match l.high with
  | some high =>
    if isLow u then
      { l with
        done := Char.ofNat (0x10000 + (high - 0xd800) * 0x400 + (u - 0xdc00)) :: l.done
        high := none }
    else { l with high := none, sound := false }
  | none =>
    if isHigh u then { l with high := some u }
    else if isLow u then { l with sound := false }
    else l.push (Char.ofNat u)

def close (l : Literal) : Option String :=
  if l.sound && l.high.isNone then some (String.ofList l.done.reverse) else none

end Literal

/-- Where a scan stands: between tokens, in a word, in a string, after its backslash, or among the
four digits of a unit. -/
inductive Scanning where
  | between
  | word (done : List Char)
  | string (l : Literal)
  | escape (l : Literal)
  | unit (l : Literal) (missing value : Nat)
  deriving DecidableEq, Repr

structure Scanner where
  state : Scanning := .between
  tokens : List Token := []

namespace Scanner

def hexValue? (c : Char) : Option Nat :=
  if c.isDigit then some (c.toNat - '0'.toNat)
  else if 'a' ≤ c ∧ c ≤ 'f' then some (c.toNat - 'a'.toNat + 10)
  else if 'A' ≤ c ∧ c ≤ 'F' then some (c.toNat - 'A'.toNat + 10)
  else none

def escaped? (c : Char) : Option Char :=
  if c = '"' ∨ c = '\\' ∨ c = '/' then some c
  else if c = 'b' then some '\x08'
  else if c = 'f' then some '\x0c'
  else if c = 'n' then some '\n'
  else if c = 'r' then some '\r'
  else if c = 't' then some '\t'
  else none

def start (tokens : List Token) (c : Char) : Option Scanner :=
  if Token.isBlank c then some ⟨.between, tokens⟩
  else if c = '"' then some ⟨.string ⟨[], none, true⟩, tokens⟩
  else if Token.isWordChar c then some ⟨.word [c], tokens⟩
  else (Token.punctuation? c).map fun t => ⟨.between, t :: tokens⟩

def step (s : Scanner) (c : Char) : Option Scanner :=
  match s.state with
  | .between => start s.tokens c
  | .word done =>
    if Token.isWordChar c then some { s with state := .word (c :: done) }
    else do start ((← Token.ofWord? done.reverse) :: s.tokens) c
  | .string l =>
    if c = '"' then some ⟨.between, .text l.close :: s.tokens⟩
    else if c = '\\' then some { s with state := .escape l }
    else if c.toNat < 0x20 then none
    else some { s with state := .string (l.push c) }
  | .escape l =>
    if c = 'u' then some { s with state := .unit l 4 0 }
    else (escaped? c).map fun e => { s with state := .string (l.push e) }
  | .unit l missing value => do
    let value := 16 * value + (← hexValue? c)
    if missing = 1 then some { s with state := .string (l.pushUnit value) }
    else some { s with state := .unit l (missing - 1) value }

def finish (s : Scanner) : Option (List Token) :=
  match s.state with
  | .between => some s.tokens.reverse
  | .word done => do return ((← Token.ofWord? done.reverse) :: s.tokens).reverse
  | _ => none

end Scanner

def scan (text : List Char) : Option (List Token) := do
  (← text.foldlM Scanner.step ⟨.between, []⟩).finish

end PassEngine.Json
