import PassEngine.Bridge.Lower
import PassEngine.Proofs.Except

namespace PassEngine.Native

namespace Instruction

inductive Reads : Instruction → Value → Prop
  | binaryLeft {result op lhs rhs ty} : Reads (.binary result op lhs rhs ty) lhs
  | binaryRight {result op lhs rhs ty} : Reads (.binary result op lhs rhs ty) rhs
  | unary {result op x ty} : Reads (.unary result op x ty) x
  | load {result ptr ty} : Reads (.load result ptr ty) ptr
  | storeValue {value ptr} : Reads (.store value ptr) value
  | storePtr {value ptr} : Reads (.store value ptr) ptr
  | base {result ptr indices ty} : Reads (.elementPtr result ptr indices ty) ptr
  | index {result ptr indices ty x} : x ∈ indices → Reads (.elementPtr result ptr indices ty) x
  | count {result allocated x ty} : Reads (.alloca result allocated (some x) ty) x
  | target {result target args ty known} : Reads (.call result target args ty known) target
  | argument {result target args ty known x} :
    x ∈ args → Reads (.call result target args ty known) x
  | returned {x} : Reads (.ret (some x)) x
  | branchCond {cond onTrue onFalse} : Reads (.condBr cond onTrue onFalse) cond
  | incoming {result incoming ty x b} : (x, b) ∈ incoming → Reads (.phi result incoming ty) x
  | cast {result x ty} : Reads (.cast result x ty) x
  | choice {result cond onTrue onFalse ty} : Reads (.select result cond onTrue onFalse ty) cond
  | onTrue {result cond onTrue onFalse ty} : Reads (.select result cond onTrue onFalse ty) onTrue
  | onFalse {result cond onTrue onFalse ty} : Reads (.select result cond onTrue onFalse ty) onFalse
  | intrinsicArgument {result name args ty x} :
    x ∈ args → Reads (.intrinsic result name args ty) x
  | asmOutput {assembly outputs inputs clobbers x} :
    x ∈ outputs → Reads (.inlineAsm assembly outputs inputs clobbers) x.value
  | asmInput {assembly outputs inputs clobbers x} :
    x ∈ inputs → Reads (.inlineAsm assembly outputs inputs clobbers) x.value

/-- The constructs in an instruction that the dialect lacks. -/
inductive Uses : Instruction → Construct → Prop
  | inlineAssembly {assembly outputs inputs clobbers} :
    Uses (.inlineAsm assembly outputs inputs clobbers) .inlineAssembly
  | constantArray {i ns} : i.Reads (.constArray ns) → Uses i .constantArray
  | inlinedIndirectCall {result target args ty} : (∀ name, target ≠ .function name) →
    Uses (.call result target args ty true) .inlinedIndirectCall

end Instruction

/-- The constructs in a function that the dialect lacks: a body behind a declaration, and what its
instructions use. -/
inductive Function.Uses : Function → Construct → Prop
  | externalBody {f : Function} {b} : f.isExternal = true → b ∈ f.blocks → f.Uses .externalBody
  | instruction {f : Function} {b i c} : b ∈ f.blocks → i ∈ b.instructions → i.Uses c → f.Uses c

inductive Global.Uses : Global → Construct → Prop
  | temporaryInitializer {g : Global} {id} : g.initial = some (.temp id) →
    g.Uses .temporaryInitializer

theorem Value.lower_eq_error_iff {v : Value} {c : Construct} :
    v.lower = .error c ↔ c = .constantArray ∧ ∃ ns, v = .constArray ns := by
  cases v <;> simp [lower, eq_comm]

theorem Value.lowerInit_eq_error_iff {v : Value} {c : Construct} :
    v.lowerInit = .error c ↔ c = .temporaryInitializer ∧ ∃ id, v = .temp id := by
  cases v <;> simp [lowerInit, eq_comm]

namespace Instruction

variable {i : Instruction} {c : Construct}

theorem uses_of_lower_operand {v : Value} (hv : i.Reads v) (h : v.lower = .error c) : i.Uses c := by
  obtain ⟨rfl, ns, rfl⟩ := Value.lower_eq_error_iff.1 h
  exact .constantArray hv

theorem uses_of_lower_operands {vs : List Value} (hv : ∀ v ∈ vs, i.Reads v)
    (h : vs.mapM Value.lower = .error c) : i.Uses c := by
  obtain ⟨before, v, after, rfl, -, hfail⟩ := mapM_eq_error_iff.1 h
  exact uses_of_lower_operand (hv v (by simp)) hfail

theorem uses_of_lowerCall {result : Option ValueId} {target : Value} {args : List Value} {ty : Ty}
    {known : Bool} {os : List Dialect.Operand} (h : lowerCall target os known = .error c) :
    Uses (.call result target args ty known) c := by
  rw [lowerCall.eq_def] at h
  split at h
  · cases h
  · next hname =>
    split at h
    · next hknown =>
      cases h
      subst hknown
      exact .inlinedIndirectCall fun name heq => hname name heq
    · rcases bind_eq_error_iff.1 h with h | ⟨x, -, h⟩
      · exact uses_of_lower_operand .target h
      · cases h

theorem uses_of_lower_eq_error (h : i.lower = .error c) : i.Uses c := by
  cases i <;> simp only [lower, bind_eq_error_iff, pure_eq_ok, reduceCtorEq, and_false, exists_false,
    or_false, Except.error.injEq] at h
  -- With several operands the first one that fails gives the error.
  case binary result op lhs rhs ty =>
    rcases h with h | ⟨_, -, h⟩
    · exact uses_of_lower_operand .binaryLeft h
    · exact uses_of_lower_operand .binaryRight h
  case unary => exact uses_of_lower_operand .unary h
  case load => exact uses_of_lower_operand .load h
  case store value ptr =>
    rcases h with h | ⟨_, -, h⟩
    · exact uses_of_lower_operand .storeValue h
    · exact uses_of_lower_operand .storePtr h
  case elementPtr result ptr indices ty =>
    rcases h with h | ⟨_, -, h⟩
    · exact uses_of_lower_operand .base h
    · exact uses_of_lower_operands (fun _ => .index) h
  case alloca result allocated count ty =>
    obtain ⟨v, rfl, hfail⟩ := option_mapM_eq_error_iff.1 h
    exact uses_of_lower_operand .count hfail
  case call result target args ty known =>
    rcases h with h | ⟨_, -, h⟩
    · exact uses_of_lower_operands (fun _ => .argument) h
    · exact uses_of_lowerCall h
  case ret value =>
    obtain ⟨v, rfl, hfail⟩ := option_mapM_eq_error_iff.1 h
    exact uses_of_lower_operand .returned hfail
  case condBr => exact uses_of_lower_operand .branchCond h
  case phi result incoming ty =>
    obtain ⟨before, ⟨v, b⟩, after, rfl, -, hfail⟩ := mapM_eq_error_iff.1 h
    have hv : Reads (.phi result (before ++ (v, b) :: after) ty) v := .incoming (b := b) (by simp)
    rcases bind_eq_error_iff.1 hfail with hfail | ⟨_, -, hfail⟩
    · exact uses_of_lower_operand hv hfail
    · cases hfail
  case cast => exact uses_of_lower_operand .cast h
  case select result cond onTrue onFalse ty =>
    rcases h with h | ⟨_, -, h | ⟨_, -, h⟩⟩
    · exact uses_of_lower_operand .choice h
    · exact uses_of_lower_operand .onTrue h
    · exact uses_of_lower_operand .onFalse h
  case intrinsic => exact uses_of_lower_operands (fun _ => .intrinsicArgument) h
  case inlineAsm =>
    subst h
    exact .inlineAssembly

/-- A call that is carried over has its target carried over, and is marked only if that is a
function's name. -/
theorem target_of_lowerCall {target : Value} {os : List Dialect.Operand} {known : Bool}
    {kind : Dialect.OpKind} (h : lowerCall target os known = .ok kind) :
    (∃ x, target.lower = .ok x) ∧ (known = true → ∃ name, target = .function name) := by
  rw [lowerCall.eq_def] at h
  split at h
  · next name => exact ⟨⟨.func name, rfl⟩, fun _ => ⟨name, rfl⟩⟩
  · split at h
    · cases h
    · next hknown =>
      obtain ⟨x, hx, -⟩ := bind_eq_ok_iff.1 h
      exact ⟨⟨x, hx⟩, fun htrue => absurd htrue hknown⟩

/-- An instruction that is carried over has every operand carried over. -/
theorem exists_lower_of_reads {o : Dialect.Op} {v : Value} (h : i.lower = .ok o)
    (hv : i.Reads v) : ∃ x, v.lower = .ok x := by
  have hlist {vs : List Value} {os : List Dialect.Operand} (hos : vs.mapM Value.lower = .ok os)
      (hmem : v ∈ vs) : ∃ x, v.lower = .ok x := exists_mapM_eq_ok_iff.1 ⟨os, hos⟩ v hmem
  have hoption {y : Option Dialect.Operand} (hy : (some v).mapM Value.lower = .ok y) :
      ∃ x, v.lower = .ok x := by
    refine exists_eq_ok_iff.2 fun c hc => ?_
    rw [option_mapM_eq_error_iff.2 ⟨v, rfl, hc⟩] at hy
    cases hy
  cases hv <;> simp only [lower, bind_eq_ok_iff, pure_eq_ok, reduceCtorEq] at h
  -- The cases go by the place of the operand: what is lowered before it does not matter.
  case binaryLeft | storeValue | base | choice =>
    obtain ⟨x, hx, -⟩ := h
    exact ⟨x, hx⟩
  case unary | load | branchCond | cast =>
    obtain ⟨x, hx, -⟩ := h
    exact ⟨x, hx⟩
  case binaryRight | storePtr | onTrue =>
    obtain ⟨-, -, x, hx, -⟩ := h
    exact ⟨x, hx⟩
  case onFalse =>
    obtain ⟨-, -, -, -, x, hx, -⟩ := h
    exact ⟨x, hx⟩
  case index hmem =>
    obtain ⟨-, -, os, hos, -⟩ := h
    exact hlist hos hmem
  case count =>
    obtain ⟨x, hx, -⟩ := h
    exact hoption hx
  case returned =>
    obtain ⟨x, hx, -⟩ := h
    exact hoption hx
  case target =>
    obtain ⟨os, hos, kind, hkind, -⟩ := h
    exact (target_of_lowerCall hkind).1
  case argument hmem =>
    obtain ⟨os, hos, -⟩ := h
    exact hlist hos hmem
  case intrinsicArgument hmem =>
    obtain ⟨os, hos, -⟩ := h
    exact hlist hos hmem
  case incoming b hmem =>
    obtain ⟨os, hos, -⟩ := h
    obtain ⟨p, hp⟩ := exists_mapM_eq_ok_iff.1 ⟨os, hos⟩ (v, b) hmem
    obtain ⟨x, hx, -⟩ := bind_eq_ok_iff.1 hp
    exact ⟨x, hx⟩

theorem not_uses_of_lower_eq_ok {o : Dialect.Op} (h : i.lower = .ok o) : ¬i.Uses c := by
  intro hc
  cases hc with
  | inlineAssembly => cases h
  | constantArray hreads =>
    obtain ⟨x, hx⟩ := exists_lower_of_reads h hreads
    cases hx
  | inlinedIndirectCall hname =>
    obtain ⟨os, -, h⟩ := bind_eq_ok_iff.1 h
    obtain ⟨kind, hkind, -⟩ := bind_eq_ok_iff.1 h
    obtain ⟨name, heq⟩ := (target_of_lowerCall hkind).2 rfl
    exact hname name heq

end Instruction

namespace Function

variable {f : Function} {c : Construct}

theorem uses_of_lowerBlocks_eq_error (h : f.lowerBlocks = .error c) : f.Uses c := by
  rw [lowerBlocks] at h
  split at h
  · next hbody =>
    cases h
    obtain ⟨b, hb⟩ := List.exists_mem_of_ne_nil _ hbody.2
    exact .externalBody hbody.1 hb
  · obtain ⟨before, b, after, hblocks, -, hb⟩ := mapM_eq_error_iff.1 h
    have hmem : b ∈ f.blocks := by simp [hblocks]
    rcases bind_eq_error_iff.1 hb with hb | ⟨ops, -, hb⟩
    · obtain ⟨before, i, after, hinstructions, -, hi⟩ := mapM_eq_error_iff.1 hb
      exact .instruction hmem (by simp [hinstructions]) (Instruction.uses_of_lower_eq_error hi)
    · cases hb

theorem not_uses_of_lowerBlocks_eq_ok {blocks : List Dialect.Block}
    (h : f.lowerBlocks = .ok blocks) : ¬f.Uses c := by
  rw [lowerBlocks] at h
  split at h
  · cases h
  · next hbody =>
    intro hc
    cases hc with
    | externalBody hext hb => exact hbody ⟨hext, List.ne_nil_of_mem hb⟩
    | instruction hb hi hc =>
      obtain ⟨d, hd⟩ := exists_mapM_eq_ok_iff.1 ⟨blocks, h⟩ _ hb
      obtain ⟨ops, hops, -⟩ := bind_eq_ok_iff.1 hd
      obtain ⟨o, ho⟩ := exists_mapM_eq_ok_iff.1 ⟨ops, hops⟩ _ hi
      exact Instruction.not_uses_of_lower_eq_ok ho hc

theorem exists_uses_of_lower_eq_error {e : Unsupported} (h : f.lower = .error e) :
    ∃ c, f.Uses c ∧ e = ⟨f.name, c⟩ := by
  rcases bind_eq_error_iff.1 h with h | ⟨blocks, -, h⟩
  · obtain ⟨c, hc, rfl⟩ := mapError_eq_error_iff.1 h
    exact ⟨c, uses_of_lowerBlocks_eq_error hc, rfl⟩
  · cases h

theorem exists_lower_iff : (∃ d, f.lower = .ok d) ↔ ∀ c, ¬f.Uses c := by
  constructor
  · rintro ⟨d, hd⟩ c
    obtain ⟨blocks, hblocks, -⟩ := bind_eq_ok_iff.1 hd
    exact not_uses_of_lowerBlocks_eq_ok (mapError_eq_ok_iff.1 hblocks)
  · refine fun h => exists_eq_ok_iff.2 fun e he => ?_
    obtain ⟨c, hc, -⟩ := exists_uses_of_lower_eq_error he
    exact h c hc

end Function

namespace Global

variable {g : Global}

theorem exists_uses_of_lower_eq_error {e : Unsupported} (h : g.lower = .error e) :
    ∃ c, g.Uses c ∧ e = ⟨g.name, c⟩ := by
  rcases bind_eq_error_iff.1 h with h | ⟨init, -, h⟩
  · obtain ⟨c, hc, rfl⟩ := mapError_eq_error_iff.1 h
    obtain ⟨v, hv, hc⟩ := option_mapM_eq_error_iff.1 hc
    obtain ⟨rfl, id, rfl⟩ := Value.lowerInit_eq_error_iff.1 hc
    exact ⟨_, .temporaryInitializer hv, rfl⟩
  · cases h

theorem exists_lower_iff : (∃ d, g.lower = .ok d) ↔ ∀ c, ¬g.Uses c := by
  constructor
  · rintro ⟨d, hd⟩ c ⟨hinit⟩
    obtain ⟨init, hlower, -⟩ := bind_eq_ok_iff.1 hd
    rw [mapError_eq_ok_iff, hinit] at hlower
    cases hlower
  · refine fun h => exists_eq_ok_iff.2 fun e he => ?_
    obtain ⟨c, hc, -⟩ := exists_uses_of_lower_eq_error he
    exact h c hc

end Global

namespace Module

/-- What is told of the first global that the dialect cannot express or, where it can express them
all, of the first such function. -/
inductive FirstOffender (m : Module) : Unsupported → Prop
  | global {before g after c} : m.globals = before ++ g :: after →
    (∀ g' ∈ before, ∀ c', ¬g'.Uses c') → g.Uses c → FirstOffender m ⟨g.name, c⟩
  | function {before f after c} : (∀ g ∈ m.globals, ∀ c', ¬g.Uses c') →
    m.functions = before ++ f :: after → (∀ f' ∈ before, ∀ c', ¬f'.Uses c') → f.Uses c →
    FirstOffender m ⟨f.name, c⟩

variable {m : Module}

theorem firstOffender_of_lower_eq_error {e : Unsupported} (h : m.lower = .error e) :
    m.FirstOffender e := by
  rcases bind_eq_error_iff.1 h with h | ⟨globals, hglobals, h⟩
  · obtain ⟨before, g, after, hsplit, hbefore, hg⟩ := mapM_eq_error_iff.1 h
    obtain ⟨c, hc, rfl⟩ := Global.exists_uses_of_lower_eq_error hg
    exact .global hsplit (fun g' hg' => Global.exists_lower_iff.1 (hbefore g' hg')) hc
  · have hnone := exists_mapM_eq_ok_iff.1 ⟨globals, hglobals⟩
    rcases bind_eq_error_iff.1 h with h | ⟨functions, -, h⟩
    · obtain ⟨before, f, after, hsplit, hbefore, hf⟩ := mapM_eq_error_iff.1 h
      obtain ⟨c, hc, rfl⟩ := Function.exists_uses_of_lower_eq_error hf
      exact .function (fun g hg => Global.exists_lower_iff.1 (hnone g hg)) hsplit
        (fun f' hf' => Function.exists_lower_iff.1 (hbefore f' hf')) hc
    · cases h

theorem not_uses_of_lower_eq_ok {d : Dialect.Module} (h : m.lower = .ok d) :
    (∀ g ∈ m.globals, ∀ c, ¬g.Uses c) ∧ ∀ f ∈ m.functions, ∀ c, ¬f.Uses c := by
  obtain ⟨globals, hglobals, h⟩ := bind_eq_ok_iff.1 h
  obtain ⟨functions, hfunctions, -⟩ := bind_eq_ok_iff.1 h
  constructor
  · intro g hg
    exact Global.exists_lower_iff.1 (exists_mapM_eq_ok_iff.1 ⟨globals, hglobals⟩ g hg)
  · intro f hf
    exact Function.exists_lower_iff.1 (exists_mapM_eq_ok_iff.1 ⟨functions, hfunctions⟩ f hf)

/-- Lowering fails exactly when a global or a function uses something that the dialect lacks. The
error says that a construct is not supported, names the first offender, and is true of it. -/
theorem lower_refuses_iff_uses (m : Module) :
    ((∃ e, m.lower = .error e) ↔
      (∃ g ∈ m.globals, ∃ c, g.Uses c) ∨ ∃ f ∈ m.functions, ∃ c, f.Uses c) ∧
    ∀ e, m.lower = .error e → m.FirstOffender e ∧
      e.toPluginError = .unsupportedConstruct e.symbol e.construct.text := by
  refine ⟨⟨?_, fun h => ?_⟩, fun e he => ⟨firstOffender_of_lower_eq_error he, rfl⟩⟩
  · rintro ⟨e, he⟩
    cases firstOffender_of_lower_eq_error he with
    | @global before g after c hsplit _ hc => exact .inl ⟨g, by simp [hsplit], c, hc⟩
    | @function before f after c _ hsplit _ hc => exact .inr ⟨f, by simp [hsplit], c, hc⟩
  · cases hlower : m.lower with
    | error e => exact ⟨e, rfl⟩
    | ok d =>
      obtain ⟨hglobals, hfunctions⟩ := not_uses_of_lower_eq_ok hlower
      rcases h with ⟨g, hg, c, hc⟩ | ⟨f, hf, c, hc⟩
      · exact absurd hc (hglobals g hg c)
      · exact absurd hc (hfunctions f hf c)

end Module

end PassEngine.Native
