import PassEngine.Text.GraphemeExtend
import PassEngine.Text.Unseen

namespace PassEngine.Text

/-- Whether a number lies in one of some ranges, to which their ends belong. -/
def inRanges (ranges : List (Nat × Nat)) (n : Nat) : Bool :=
  ranges.any fun (first, last) => first ≤ n && n ≤ last

private def hexDigits (n : Nat) : String :=
  String.ofList (Nat.toDigits 16 n)

/-- The Hangul fillers: letters, but blank ones. -/
def isFiller (c : Char) : Bool :=
  c.toNat ∈ [0x115f, 0x1160, 0x3164, 0xffa0]

/-- The halfwidth sound marks: they extend the letter before them but are drawn beside it. -/
def isHalfwidthMark (c : Char) : Bool :=
  c.toNat ∈ [0xff9e, 0xff9f]

def isSeen (c : Char) : Bool :=
  if c.toNat < 0x80 then 0x20 ≤ c.toNat && c.toNat < 0x7f
  else isHalfwidthMark c ||
    !(isFiller c || inRanges unseenRanges c.toNat || inRanges graphemeExtendRanges c.toNat)

/-- A character as it stands between quotes: what would not be seen is written by its number. -/
def quotedChar (c : Char) : String :=
  if c = '"' then "\\\""
  else if c = '\\' then "\\\\"
  else if c = '\n' then "\\n"
  else if c = '\t' then "\\t"
  else if c = '\r' then "\\r"
  else if c.toNat = 0 then "\\0"
  else if isSeen c then c.toString
  else "\\u\x7b" ++ hexDigits c.toNat ++ "\x7d"

def quoted (s : String) : String :=
  "\"" ++ String.join (s.toList.map quotedChar) ++ "\""

end PassEngine.Text
