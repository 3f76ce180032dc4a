import PassEngine.Json.Shape

namespace PassEngine

/-- A position in a source file, counted from one. Line zero stands for an unknown position. -/
structure Location where
  filename : String
  line : UInt32
  column : UInt32
  deriving DecidableEq, Repr, Inhabited

namespace Location

def isKnown (l : Location) : Bool :=
  l.line != 0

def text (l : Location) : String :=
  if l.isKnown then s!"{l.filename}:{l.line}:{l.column}" else s!"{l.filename}:?"

def toJson (l : Location) : Json :=
  .obj [("filename", .str l.filename), ("line", .ofUInt32 l.line), ("column", .ofUInt32 l.column)]

def read (j : Json) : Option Location := do
  let [filename, line, column] ← Json.slots ["filename", "line", "column"] j | none
  return {
    filename := ← filename.required Json.readString
    line := ← line.required Json.readUInt32
    column := ← column.required Json.readUInt32 }

end Location

end PassEngine
