import PassEngine.Json.Shape

namespace PassEngine

structure InlineConfig where
  /-- A function up to this size is always worth inlining. -/
  sizeThreshold : Nat := 40
  maxIterations : Nat := 8
  /-- No call is chosen whose body would take its caller beyond this size. A phi that merges returned
  values is not counted. -/
  maxCallerSize : Nat := 2000
  deriving DecidableEq, Repr

namespace InlineConfig

def toJson (c : InlineConfig) : Json :=
  .obj [("size_threshold", .ofNat c.sizeThreshold), ("max_iterations", .ofNat c.maxIterations),
    ("max_caller_size", .ofNat c.maxCallerSize)]

/-- A field that is left out has its default. -/
def read (j : Json) : Option InlineConfig := do
  let standard : InlineConfig := {}
  let [sizeThreshold, maxIterations, maxCallerSize] ←
    Json.slots ["size_threshold", "max_iterations", "max_caller_size"] j | none
  let size := Json.readNat UInt64.size
  return {
    sizeThreshold := ← sizeThreshold.defaulted standard.sizeThreshold size
    maxIterations := ← maxIterations.defaulted standard.maxIterations size
    maxCallerSize := ← maxCallerSize.defaulted standard.maxCallerSize size }

end InlineConfig

end PassEngine
