import PassEngine.Naming

namespace PassEngine

/-- A place in the host's pipeline where it pauses and lets passes run. -/
inductive Point where
  | parseType
  | parseDecl
  | pragmas
  | parseFunction
  | beforeIpa
  | afterInline
  | afterIpa
  | beforeEveryPass
  | afterEveryPass
  | beforeAllPasses
  | afterAllPasses
  | compileEnd
  | passManagerSetup
  deriving DecidableEq, Repr, Inhabited

namespace Point

/-- Every point, in the order in which the host's pipeline meets them. -/
def pipeline : List Point :=
  [parseType, parseDecl, pragmas, parseFunction, passManagerSetup, beforeAllPasses,
    beforeEveryPass, afterInline, beforeIpa, afterIpa, afterEveryPass, afterAllPasses, compileEnd]

theorem mem_pipeline (p : Point) : p ∈ pipeline := by
  cases p <;> decide

def code : Point → UInt8
  | parseType => 0
  | parseDecl => 1
  | pragmas => 2
  | parseFunction => 3
  | beforeIpa => 4
  | afterIpa => 5
  | beforeEveryPass => 6
  | afterEveryPass => 7
  | beforeAllPasses => 8
  | afterAllPasses => 9
  | compileEnd => 10
  | passManagerSetup => 11
  | afterInline => 12

def ofCode? (c : UInt8) : Option Point :=
  pipeline.find? fun p => p.code == c

def name : Point → String
  | parseType => "parse-type"
  | parseDecl => "parse-decl"
  | pragmas => "pragmas"
  | parseFunction => "parse-function"
  | beforeIpa => "before-ipa"
  | afterInline => "after-inline"
  | afterIpa => "after-ipa"
  | beforeEveryPass => "before-every-pass"
  | afterEveryPass => "after-every-pass"
  | beforeAllPasses => "before-all-passes"
  | afterAllPasses => "after-all-passes"
  | compileEnd => "compile-end"
  | passManagerSetup => "pass-manager-setup"

def names : Naming Point where
  all := pipeline
  name := name
  find_name p := by cases p <;> decide

/-- The name a point has in the program's own listings. -/
def constant : Point → String
  | parseType => "ParseType"
  | parseDecl => "ParseDecl"
  | pragmas => "Pragmas"
  | parseFunction => "ParseFunction"
  | beforeIpa => "BeforeIpa"
  | afterInline => "AfterInline"
  | afterIpa => "AfterIpa"
  | beforeEveryPass => "BeforeEveryPass"
  | afterEveryPass => "AfterEveryPass"
  | beforeAllPasses => "BeforeAllPasses"
  | afterAllPasses => "AfterAllPasses"
  | compileEnd => "CompileEnd"
  | passManagerSetup => "PassManagerSetup"

/-- The rank by which a set of points is sorted, which is not the pipeline's order. -/
def rank (p : Point) : Nat := p.ctorIdx

def sort (ps : List Point) : List Point :=
  ps.mergeSort fun p q => p.rank ≤ q.rank

structure Unknown where
  name : String

def Unknown.message (e : Unknown) : String :=
  s!"unknown injection point '{e.name}'"

def parse (s : String) : Except Unknown Point :=
  match names.ofName? s with
  | some p => .ok p
  | none => .error ⟨s⟩

end Point

end PassEngine
