import PassEngine.Dialect.CallGraph
import PassEngine.Inline.Config

namespace PassEngine.Inline

open Dialect

inductive Refusal where
  | notACall
  | knownInlined
  | selfCall
  | noBody
  | forbidden
  | variadic
  | argumentCount
  | voidResult
  | reachesCaller
  | recursive
  deriving DecidableEq, Repr

def refusal? (graph : CallGraph) (site : CallSite) (call : Op) (callee : Function) :
    Option Refusal :=
  match call.kind with
  | .call _ args knownInlined =>
    if knownInlined then some .knownInlined
    else if site.callee = site.caller then some .selfCall
    else if !callee.hasBody then some .noBody
    else if callee.hint = .never then some .forbidden
    else if callee.isVararg then some .variadic
    else if args.length ≠ callee.params.length then some .argumentCount
    else if call.result.isSome ∧ callee.ret = .void then some .voidResult
    else if graph.reaches site.callee site.caller then some .reachesCaller
    else if graph.isRecursive site.callee then some .recursive
    else none
  | _ => some .notACall

/-- Whether inlining pays: by request, for a small function, or for one that is called once. -/
def isBeneficial (config : InlineConfig) (graph : CallGraph) (site : CallSite) (callee : Function) :
    Bool :=
  callee.hint = .always ∨ callee.size ≤ config.sizeThreshold ∨ graph.callCount site.callee = 1

def isCandidate (config : InlineConfig) (graph : CallGraph) (site : CallSite) (call : Op)
    (callee : Function) : Bool :=
  (refusal? graph site call callee).isNone && isBeneficial config graph site callee

/-- Chooses among calls in order as long as the caller, which grows from `size`, keeps its limit. -/
def choose (config : InlineConfig) (m : Module) (graph : CallGraph) (caller : Function) :
    (size : Nat) → List CallSite → List CallSite
  | _, [] => []
  | size, site :: rest =>
    match m.functions[site.callee]?, caller.op? site.block site.op with
    | some callee, some call =>
      let grown := size + callee.size
      if isCandidate config graph site call callee ∧ grown ≤ config.maxCallerSize then
        site :: choose config m graph caller grown rest
      else choose config m graph caller size rest
    | _, _ => choose config m graph caller size rest

/-- The calls of a function to inline in this round, in program order. -/
def select (config : InlineConfig) (m : Module) (graph : CallGraph) (caller : Nat) :
    List CallSite :=
  match m.functions[caller]? with
  | some f => choose config m graph f f.size (graph.sitesIn caller)
  | none => []

end PassEngine.Inline
