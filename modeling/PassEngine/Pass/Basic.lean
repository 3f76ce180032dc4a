import PassEngine.Dialect.Verify
import PassEngine.Point

namespace PassEngine

inductive PassError where
  | failed (message : String)
  | invalid (e : Dialect.VerifyError)
  deriving DecidableEq, Repr

def PassError.message : PassError → String
  | failed message => message
  | invalid e => s!"left the module invalid: {e.message}"

/-- A pass broke off, with the text it left behind, if it left one. -/
structure Crash where
  text : Option String
  deriving DecidableEq, Repr

namespace Crash

def message (c : Crash) : String :=
  c.text.getD "unknown panic payload"

def overflow : Crash := ⟨some "attempt to add with overflow"⟩

end Crash

/-- What a pass says about its own work. -/
inductive PassReport where
  | changed
  | noChange
  | failed (e : PassError)
  | crashed (c : Crash)
  deriving DecidableEq, Repr

/-- A turn that a pass had in a session: the module it was shown, and whether it ran on it. -/
structure Visit where
  point : Point
  module : Dialect.Module
  ran : Bool
  deriving DecidableEq

/-- A pass: whether it wants to run on a module, and what it makes of it. Both may hang on the turns
it had before in the session, the latest first. -/
structure Pass where
  name : String
  gate : List Visit → Point → Dialect.Module → Except Crash Bool
  optimize : List Visit → Point → Dialect.Module → PassReport × Dialect.Module

end PassEngine
