import PassEngine.Naming

namespace PassEngine

inductive Linkage where
  | external
  | internal
  | hidden
  deriving DecidableEq, Repr, Inhabited

/-- What a function's declaration asks of the inliner. -/
inductive InlineHint where
  | none
  | inline
  | always
  | never
  deriving DecidableEq, Repr, Inhabited

namespace Linkage

def names : Naming Linkage where
  all := [external, internal, hidden]
  name
    | external => "External"
    | internal => "Internal"
    | hidden => "Private"
  find_name l := by cases l <;> decide

def text : Linkage → String := names.name

end Linkage

namespace InlineHint

def names : Naming InlineHint where
  all := [none, inline, always, never]
  name
    | none => "None"
    | inline => "Inline"
    | always => "AlwaysInline"
    | never => "NoInline"
  find_name h := by cases h <;> decide

def text : InlineHint → String := names.name

end InlineHint

end PassEngine
