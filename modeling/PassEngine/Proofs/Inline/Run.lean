import PassEngine.Inline.Pass
import PassEngine.Proofs.Inline.Scoping

namespace PassEngine.Inline

open Dialect

variable {config : InlineConfig} {m m' : Module} {site : CallSite}

/-- Inlining a call splices the callee into the caller and leaves the other functions alone. -/
theorem inlineSite_cases (h : inlineSite m site = .ok m') :
    ∃ caller callee, m.functions[site.caller]? = some caller ∧
      m.functions[site.callee]? = some callee ∧
      ∃ s : Splicing caller callee, s.before.length = site.block ∧ s.head.length = site.op ∧
        m' = { m with functions := m.functions.set site.caller s.result } := by
  rw [inlineSite] at h
  split at h
  · next caller callee hcaller hcallee =>
    obtain ⟨f, hf, hm'⟩ := bind_eq_ok_iff.1 h
    obtain ⟨s, hblock, hop, rfl⟩ := Splicing.exists_of_splice hf
    cases hm'
    exact ⟨caller, callee, hcaller, hcallee, s, hblock, hop, rfl⟩
  · cases h

theorem ite_some_eq_none_iff {α : Type} {p : Prop} [Decidable p] {a : α} {x : Option α} :
    (if p then some a else x) = none ↔ ¬p ∧ x = none := by
  split <;> simp [*]

/-- What a call that may be inlined is like. -/
theorem refusal?_eq_none_iff {graph : CallGraph} {call : Op} {callee : Function} :
    refusal? graph site call callee = none ↔
      ∃ symbol args, call.kind = .call symbol args false ∧ site.callee ≠ site.caller ∧
        callee.hasBody = true ∧ callee.hint ≠ .never ∧ callee.isVararg = false ∧
        args.length = callee.params.length ∧ (call.result.isSome = true → callee.ret ≠ .void) ∧
        graph.reaches site.callee site.caller = false ∧ graph.isRecursive site.callee = false := by
  rw [refusal?]
  cases call.kind with
  | call symbol args known =>
    simp only [ite_some_eq_none_iff, OpKind.call.injEq]
    grind
  | _ => simp

/-- A call in a verified module can be replaced by the body of a function that takes as many
arguments as are passed. -/
theorem exists_splice_of_verify {i j : Nat} {caller callee : Function} {call : Op} {symbol : String}
    {args : List Operand} {known : Bool} (hm : m.verify = .ok ()) (hcallee : callee ∈ m.functions)
    (hbody : callee.hasBody = true) (hcall : caller.op? i j = some call)
    (hkind : call.kind = .call symbol args known) (hargs : args.length = callee.params.length)
    (hroom : HasRoom caller callee) : ∃ f, splice caller i j callee = .ok f := by
  obtain ⟨b, hb, hop⟩ := Option.bind_eq_some_iff.1 hcall
  obtain ⟨hframed, hscoped⟩ := m.verify_eq_ok_iff.1 hm
  have hrules := hframed.bodies callee hcallee (Function.isExternal_of_hasBody hbody)
  exact exists_splice hb hop hkind hroom hrules.nonempty (hscoped callee hcallee) hargs

/-- A call that may be inlined can be, unless the ids run out. -/
theorem inlineSite_of_refusal?_eq_none {graph : CallGraph} {caller callee : Function} {call : Op}
    (hm : m.verify = .ok ()) (hcaller : m.functions[site.caller]? = some caller)
    (hcallee : m.functions[site.callee]? = some callee)
    (hcall : caller.op? site.block site.op = some call)
    (hlegal : refusal? graph site call callee = none) :
    (¬HasRoom caller callee → inlineSite m site = .error .overflow) ∧
    (HasRoom caller callee → ∃ m', inlineSite m site = .ok m') := by
  obtain ⟨symbol, args, hkind, -, hbody, -, -, hargs, -, -, -⟩ := refusal?_eq_none_iff.1 hlegal
  constructor
  · intro hroom
    obtain ⟨b, hb, hop⟩ := Option.bind_eq_some_iff.1 hcall
    rw [inlineSite]
    simp only [hcaller, hcallee, splice_eq_overflow hb hop hkind hroom]
    rfl
  · intro hroom
    obtain ⟨f, hf⟩ := exists_splice_of_verify hm (List.mem_of_getElem? hcallee) hbody hcall hkind
      hargs hroom
    rw [inlineSite]
    simp only [hcaller, hcallee, hf]
    exact ⟨_, rfl⟩

/-- A round as far as the functions before `c`. -/
def roundUpTo (config : InlineConfig) (m : Module) (c : Nat) : Except SpliceError (Module × Nat) :=
  (List.range c).foldlM (fun (m', count) caller => do
    let (m', more) ← inlineCaller config (CallGraph.build m) m' caller
    return (m', count + more)) (m, 0)

theorem round_eq_roundUpTo (config : InlineConfig) (m : Module) :
    round config m = roundUpTo config m m.functions.length := rfl

theorem roundUpTo_succ_cases {c total : Nat}
    (h : roundUpTo config m (c + 1) = .ok (m', total)) :
    ∃ m₁ count more, roundUpTo config m c = .ok (m₁, count) ∧
      inlineCaller config (.build m) m₁ c = .ok (m', more) ∧ total = count + more := by
  rw [roundUpTo, List.range_succ, List.foldlM_append] at h
  obtain ⟨⟨m₁, count⟩, hdone, h⟩ := bind_eq_ok_iff.1 h
  rw [List.foldlM_cons] at h
  obtain ⟨next, hnext, h⟩ := bind_eq_ok_iff.1 h
  obtain ⟨⟨m₂, more⟩, hcaller, hpair⟩ := bind_eq_ok_iff.1 hnext
  cases h
  cases hpair
  exact ⟨m₁, count, more, hdone, hcaller, rfl⟩

/-- What holds at the start of a round and is kept from each function to the next. -/
theorem roundUpTo_induction {P : Nat → Module → Nat → Prop} {c total : Nat}
    (hstep : ∀ i m₁ count m₂ more, i < c → roundUpTo config m i = .ok (m₁, count) →
      inlineCaller config (.build m) m₁ i = .ok (m₂, more) → P i m₁ count →
      P (i + 1) m₂ (count + more))
    (h : roundUpTo config m c = .ok (m', total)) (h₀ : P 0 m 0) : P c m' total := by
  induction c generalizing m' total with
  | zero =>
    cases h
    exact h₀
  | succ c ih =>
    obtain ⟨m₁, count, more, hdone, hcaller, rfl⟩ := roundUpTo_succ_cases h
    refine hstep c m₁ count m' more (Nat.lt_succ_self c) hdone hcaller (ih ?_ hdone)
    intro i m₂ count' m₃ more' hi
    exact hstep i m₂ count' m₃ more' (Nat.lt_succ_of_lt hi)

theorem rounds_succ_cases {n total : Nat} (h : rounds config (n + 1) m = .ok (m', total)) :
    (round config m = .ok (m', 0) ∧ total = 0) ∨
    ∃ m₁ count more, round config m = .ok (m₁, count) ∧ 0 < count ∧
      rounds config n m₁ = .ok (m', more) ∧ total = count + more := by
  obtain ⟨⟨m₁, count⟩, hround, h⟩ := bind_eq_ok_iff.1 h
  dsimp only at h
  by_cases hcount : count = 0
  · rw [if_pos hcount] at h
    cases h
    exact .inl ⟨hcount ▸ hround, rfl⟩
  · rw [if_neg hcount] at h
    obtain ⟨⟨m₂, more⟩, hrounds, hpair⟩ := bind_eq_ok_iff.1 h
    cases hpair
    exact .inr ⟨m₁, count, more, hround, Nat.pos_of_ne_zero hcount, hrounds, rfl⟩

section Induction

variable {P : Module → Prop}
  (hstep : ∀ m m' site, inlineSite m site = .ok m' → P m → P m')

include hstep

theorem foldlM_inlineSite_induction (sites : List CallSite) (h : sites.foldlM inlineSite m = .ok m')
    (hm : P m) : P m' := by
  induction sites generalizing m with
  | nil =>
    cases h
    exact hm
  | cons site sites ih =>
    rw [List.foldlM_cons] at h
    obtain ⟨next, hnext, h⟩ := bind_eq_ok_iff.1 h
    exact ih h (hstep m next site hnext hm)

theorem inlineCaller_induction {graph : CallGraph} {caller count : Nat}
    (h : inlineCaller config graph m caller = .ok (m', count)) (hm : P m) : P m' := by
  obtain ⟨next, hnext, h⟩ := bind_eq_ok_iff.1 h
  cases h
  exact foldlM_inlineSite_induction hstep _ hnext hm

theorem round_induction {count : Nat} (h : round config m = .ok (m', count)) (hm : P m) : P m' := by
  rw [round_eq_roundUpTo] at h
  refine roundUpTo_induction (P := fun _ m' _ => P m') ?_ h hm
  intro i m₁ count m₂ more _ _ hcaller
  exact inlineCaller_induction hstep hcaller

theorem rounds_induction {n count : Nat} (h : rounds config n m = .ok (m', count)) (hm : P m) :
    P m' := by
  induction n generalizing m count with
  | zero =>
    cases h
    exact hm
  | succ n ih =>
    rcases rounds_succ_cases h with ⟨hround, -⟩ | ⟨next, first, more, hround, -, hrounds, -⟩
    · exact round_induction hstep hround hm
    · exact ih hrounds (round_induction hstep hround hm)

/-- What every inlined call preserves, the inliner preserves. -/
theorem optimize_induction (config : InlineConfig) (hm : P m) : P (optimize config m).2 := by
  rw [optimize]
  split
  · next after count hrounds => exact rounds_induction hstep hrounds hm
  · exact hm

end Induction

theorem forall_mem_set {α : Type} {P : α → Prop} {l : List α} {i : Nat} {a : α}
    (hl : ∀ x ∈ l, P x) (ha : P a) : ∀ x ∈ l.set i a, P x := by
  intro x hx
  rcases List.mem_or_eq_of_mem_set hx with hx | rfl
  · exact hl x hx
  · exact ha

theorem symbols_inlineSite (h : inlineSite m site = .ok m') : m'.symbols = m.symbols := by
  obtain ⟨caller, callee, hcaller, -, s, -, -, rfl⟩ := inlineSite_cases h
  obtain ⟨hi, rfl⟩ := List.getElem?_eq_some_iff.1 hcaller
  apply List.ext_getElem
  · simp [Module.symbols]
  · intro i hi hi'
    simp only [Module.symbols, List.getElem_map, List.getElem_set]
    split
    · next heq =>
      subst heq
      rfl
    · rfl

theorem Splicing.isExternal_eq_false {caller callee : Function} (s : Splicing caller callee)
    (hm : m.Framed) (hcaller : caller ∈ m.functions) (hcallee : callee ∈ m.functions) :
    caller.isExternal = false ∧ callee.isExternal = false := by
  constructor
  · rw [Bool.eq_false_iff]
    intro hext
    have := s.blocks_eq
    simp [hm.bodiless caller hcaller hext] at this
  · rw [Bool.eq_false_iff]
    intro hext
    have := s.callee_eq
    simp [hm.bodiless callee hcallee hext] at this

theorem Splicing.callee_definitions_nodup {caller callee : Function} (s : Splicing caller callee)
    (hm : m.Framed) (hcaller : caller ∈ m.functions) (hcallee : callee ∈ m.functions) :
    callee.definitions.Nodup :=
  (hm.bodies callee hcallee (s.isExternal_eq_false hm hcaller hcallee).2).definitions_nodup

theorem framed_inlineSite (h : inlineSite m site = .ok m') (hm : m.Framed) : m'.Framed := by
  have hsymbols := symbols_inlineSite h
  obtain ⟨caller, callee, hcaller, hcallee, s, -, -, rfl⟩ := inlineSite_cases h
  have hcaller := List.mem_of_getElem? hcaller
  have hcallee := List.mem_of_getElem? hcallee
  obtain ⟨hcallerExt, hcalleeExt⟩ := s.isExternal_eq_false hm hcaller hcallee
  have hresult : s.result.isExternal = false := hcallerExt
  refine ⟨hsymbols ▸ hm.symbols_nodup, forall_mem_set hm.bodiless ?_, ?_⟩
  · intro hext
    rw [hresult] at hext
    cases hext
  · rw [hsymbols]
    refine forall_mem_set hm.bodies fun _ => ?_
    exact s.framed_result (hm.bodies caller hcaller hcallerExt)
      (hm.bodies callee hcallee hcalleeExt)

/-- A module in which inlining cannot delete a definition that is still needed. -/
structure Orderly (m : Module) : Prop where
  framed : m.Framed
  reads : m.Scoped
  ordered : ∀ f ∈ m.functions, f.CallsOrdered
  plain : ∀ f ∈ m.functions, f.ReturnsPlain

theorem Splicing.not_mem_uses_call {caller callee : Function} (s : Splicing caller callee)
    (h : caller.CallsOrdered) {r : ValueId} (hr : s.call.result = some r) : r ∉ s.call.uses := by
  obtain ⟨rank, hrank⟩ := h
  intro hmem
  have := hrank s.call s.call_mem_ops s.symbol s.callee?_call r hr r hmem
  omega

theorem orderly_inlineSite (h : inlineSite m site = .ok m') (hm : Orderly m) : Orderly m' := by
  have hframed := framed_inlineSite h hm.framed
  obtain ⟨caller, callee, hcaller, hcallee, s, -, -, rfl⟩ := inlineSite_cases h
  have hcaller := List.mem_of_getElem? hcaller
  have hcallee := List.mem_of_getElem? hcallee
  have hnodup := s.callee_definitions_nodup hm.framed hcaller hcallee
  have hscoped := hm.reads caller hcaller
  have horder := hm.ordered caller hcaller
  refine ⟨hframed, forall_mem_set hm.reads ?_, forall_mem_set hm.ordered ?_,
    forall_mem_set hm.plain ?_⟩
  · exact s.scoped_result hscoped hnodup (hm.plain callee hcallee) fun r hr =>
      s.not_mem_uses_call horder hr
  · exact s.callsOrdered_result hscoped hnodup horder (hm.ordered callee hcallee)
  · exact s.returnsPlain_result (hm.plain caller hcaller)

/-- After inlining, a verified module breaks no rule but the one on values that are read. It keeps
that one too if no chain of calls needs its own value and no return defines one. -/
theorem verify_optimize (config : InlineConfig) {m : Module} (hm : m.verify = .ok ()) :
    ((optimize config m).2.verify = .ok () ↔ (optimize config m).2.Scoped) ∧
    ((∀ f ∈ m.functions, f.CallsOrdered ∧ f.ReturnsPlain) →
      (optimize config m).2.verify = .ok ()) := by
  obtain ⟨hframed, hscoped⟩ := m.verify_eq_ok_iff.1 hm
  constructor
  · rw [Module.verify_eq_ok_iff]
    have := optimize_induction (fun m m' site => framed_inlineSite) config hframed
    exact and_iff_right this
  · intro h
    have horderly : Orderly m := ⟨hframed, hscoped, fun f hf => (h f hf).1, fun f hf => (h f hf).2⟩
    have := optimize_induction (fun m m' site => orderly_inlineSite) config horderly
    exact (Module.verify_eq_ok_iff _).2 ⟨this.framed, this.reads⟩

def identity : Function where
  symbol := "identity"
  params := [(⟨0⟩, .int 32)]
  ret := .int 32
  blocks := [{ id := ⟨0⟩, ops := [.void (.ret (some (.value ⟨0⟩)))] }]

/-- Calls `identity` twice, the second time with what the first call gave. -/
def chained : Module where
  name := "chained"
  functions := [identity, {
    symbol := "main"
    params := [(⟨0⟩, .int 32)]
    ret := .int 32
    blocks := [{ id := ⟨0⟩, ops := [
      ⟨some ⟨1⟩, .int 32, .call "identity" [.value ⟨0⟩] false⟩,
      ⟨some ⟨2⟩, .int 32, .call "identity" [.value ⟨1⟩] false⟩,
      .void (.ret (some (.value ⟨2⟩)))] }] }]

theorem verify_optimize_chained : chained.verify = .ok () ∧
    (optimize {} chained).1 = .changed ∧ (optimize {} chained).2.verify = .ok () := by
  have hm : chained.verify = .ok () := by decide
  have hordered : ∀ f ∈ chained.functions, f.CallsOrdered ∧ f.ReturnsPlain := by
    intro f hf
    simp only [chained, List.mem_cons, List.not_mem_nil, or_false] at hf
    refine ⟨⟨fun v => v.index.toNat, ?_⟩, ?_⟩
    · rcases hf with rfl | rfl <;>
        simp [Function.Ranked, Function.ops, identity, Op.void, Op.callee?, OpKind.callee?, Op.uses,
          Op.operands, OpKind.operands, Operand.value?]
    · rcases hf with rfl | rfl <;>
        simp [Function.ReturnsPlain, Function.ops, identity, Op.void]
  exact ⟨hm, by decide +kernel, (verify_optimize {} hm).2 hordered⟩

/-- Calls `identity` with the value of this very call. -/
def selfReading : Module where
  name := "self"
  functions := [identity, {
    symbol := "main"
    ret := .int 32
    blocks := [{ id := ⟨0⟩, ops := [
      ⟨some ⟨0⟩, .int 32, .call "identity" [.value ⟨0⟩] false⟩,
      .void (.ret (some (.value ⟨0⟩)))] }] }]

/-- The call goes, and its value with it, but what reads the value stays. -/
theorem verify_optimize_selfReading : selfReading.verify = .ok () ∧
    (optimize {} selfReading).1 = .changed ∧
    (optimize {} selfReading).2.verify = .error (.undefinedValue "main" ⟨1⟩ ⟨0⟩) := by
  decide +kernel

end PassEngine.Inline
