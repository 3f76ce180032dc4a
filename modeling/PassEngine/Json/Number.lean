import PassEngine.Json.Basic

namespace PassEngine.Json

structure Numeral where
  negative : Bool
  whole : List Char
  fraction : Option (List Char)
  /-- Whether the exponent is below zero, and its digits. -/
  exponent : Option (Bool × List Char)
  deriving DecidableEq, Repr

namespace Numeral

def digits (cs : List Char) : List Char × List Char :=
  cs.span Char.isDigit

def sign : List Char → Bool × List Char
  | '-' :: rest => (true, rest)
  | text => (false, text)

/-- A number has no leading zeros, and digits after a point and after an exponent's mark. -/
def parse (text : List Char) : Option Numeral := do
  let (negative, text) := sign text
  let (whole, text) := digits text
  if whole = [] ∨ (whole.head? = some '0' ∧ whole.length ≠ 1) then none
  let (fraction, text) ← match text with
    | '.' :: rest =>
      let (ds, rest) := digits rest
      if ds = [] then none else some (some ds, rest)
    | _ => some (none, text)
  let mark := match text with
    | 'e' :: rest | 'E' :: rest => some rest
    | _ => none
  match mark with
  | none => if text = [] then some ⟨negative, whole, fraction, none⟩ else none
  | some rest =>
    let (below, ds) := match rest with
      | '-' :: ds => (true, ds)
      | '+' :: ds => (false, ds)
      | ds => (false, ds)
    if ds ≠ [] ∧ ds.all Char.isDigit then some ⟨negative, whole, fraction, some (below, ds)⟩
    else none

def value (ds : List Char) : Nat :=
  Nat.ofDigitChars 10 ds 0

/-- The digits that fit into 64 bits, read as one number, and how many were left over. -/
def gather : Nat → List Char → Nat × Nat
  | acc, [] => (acc, 0)
  | acc, d :: ds =>
    let next := 10 * acc + (d.toNat - '0'.toNat)
    if next < UInt64.size then gather next ds else (acc, ds.length + 1)

/-- The nearest number with 53 significant bits, the even one of two. -/
def roundToDouble (n : Nat) : Nat :=
  let excess := (Nat.log2 n + 1) - 53
  let unit := Nat.pow 2 excess
  let below := n / unit
  let rest := n % unit
  if 2 * rest > unit ∨ (2 * rest = unit ∧ below % 2 = 1) then (below + 1) * unit else below * unit

/-- Whether a number leaves the range of doubles. It is taken as significand times a power of ten,
each rounded to a double before they are multiplied. -/
def isInfinite (n : Numeral) : Bool :=
  let (head, dropped) := gather 0 n.whole
  let fraction := n.fraction.getD []
  let (significand, cut) := gather head fraction
  let start : Int := (dropped : Int) - ((fraction.length - cut : Nat) : Int)
  if significand = 0 then false
  else
    let exponent : Int := match n.exponent with
      | none => start
      | some (true, ds) => start - (value ds : Int)
      | some (false, ds) => start + (value ds : Int)
    if 308 < exponent then true
    else if exponent < 0 then false
    else Nat.pow 2 1024 - Nat.pow 2 970 ≤
      roundToDouble significand * roundToDouble (Nat.pow 10 exponent.toNat)

/-- A number is an integer if it has neither point nor exponent, is not minus zero and fits into 64
bits. -/
def toJson (n : Numeral) : Json :=
  let magnitude := value n.whole
  let isPlain := n.fraction.isNone ∧ n.exponent.isNone
  if isPlain ∧ ¬n.negative ∧ magnitude < UInt64.size then .int magnitude
  else if isPlain ∧ n.negative ∧ 0 < magnitude ∧ Int64.minValue.toInt ≤ -(magnitude : Int) then
    .int (-(magnitude : Int))
  else if n.isInfinite then .broken
  else .real

end Numeral

end PassEngine.Json
