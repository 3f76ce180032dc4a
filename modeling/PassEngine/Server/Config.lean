import PassEngine.Inline.Config
import PassEngine.Json.Parser
import PassEngine.Point

namespace PassEngine

structure ServerConfig where
  inline : InlineConfig := {}
  inlinePoint : Point := .beforeIpa
  /-- The time that the host gives each batch, in milliseconds. -/
  invokeBudget : Nat := 30000
  deriving DecidableEq, Repr

namespace ServerConfig

def toJson (c : ServerConfig) : Json :=
  .obj [("inline", c.inline.toJson), ("inline_point", .str c.inlinePoint.name),
    ("invoke_budget_ms", .ofNat c.invokeBudget)]

/-- A field that is left out has its default. -/
def read (j : Json) : Option ServerConfig := do
  let standard : ServerConfig := {}
  let [inline, inlinePoint, invokeBudget] ←
    Json.slots ["inline", "inline_point", "invoke_budget_ms"] j | none
  return {
    inline := ← inline.defaulted standard.inline InlineConfig.read
    inlinePoint := ← inlinePoint.defaulted standard.inlinePoint
      (Json.readName Json.strictUnit Point.names)
    invokeBudget := ← invokeBudget.defaulted standard.invokeBudget (Json.readNat UInt64.size) }

def parse (text : String) : Option ServerConfig := do
  read (← Json.read text)

end ServerConfig

end PassEngine
