import PassEngine.Inline.Select
import PassEngine.Inline.Splice
import PassEngine.Pass.Basic

namespace PassEngine.Inline

open Dialect

def inlineSite (m : Module) (site : CallSite) : Except SpliceError Module :=
  match m.functions[site.caller]?, m.functions[site.callee]? with
  | some caller, some callee => do
    let f ← splice caller site.block site.op callee
    return { m with functions := m.functions.set site.caller f }
  | _, _ => throw .outOfRange

/-- Inlines the chosen calls of one function, the last one first, so that the positions of the
others stay right. -/
def inlineCaller (config : InlineConfig) (graph : CallGraph) (m : Module) (caller : Nat) :
    Except SpliceError (Module × Nat) := do
  let sites := select config m graph caller
  return (← sites.reverse.foldlM inlineSite m, sites.length)

def round (config : InlineConfig) (m : Module) : Except SpliceError (Module × Nat) :=
  let graph := CallGraph.build m
  (List.range m.functions.length).foldlM (fun (m, count) caller => do
    let (m, more) ← inlineCaller config graph m caller
    return (m, count + more)) (m, 0)

/-- Up to `n` rounds, until one finds nothing to inline. -/
def rounds (config : InlineConfig) : (n : Nat) → Module → Except SpliceError (Module × Nat)
  | 0, m => return (m, 0)
  | n + 1, m => do
    let (m, count) ← round config m
    if count = 0 then return (m, 0)
    let (m, more) ← rounds config n m
    return (m, count + more)

def SpliceError.report : SpliceError → PassReport
  | overflow => .crashed .overflow
  | outOfRange => .failed (.failed "call site out of range")
  | notACall => .failed (.failed "call site is not a direct call")
  | undefinedValue callee v => .failed (.failed s!"@{callee} uses undefined value {v.text}")
  | noBody callee => .failed (.failed s!"@{callee} has no body")

/-- Inlines calls until nothing more is to be gained. No function is ever removed. -/
def optimize (config : InlineConfig) (m : Module) : PassReport × Module :=
  match rounds config config.maxIterations m with
  | .ok (after, count) => (if 0 < count then .changed else .noChange, after)
  | .error e => (e.report, m)

def pass (config : InlineConfig) : Pass where
  name := "inline"
  gate _ _ _ := .ok true
  optimize _ _ m := optimize config m

end PassEngine.Inline
