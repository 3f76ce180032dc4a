import PassEngine.Proofs.Inline.Growth

namespace PassEngine

section Lists

variable {α : Type} {R : α → α → Prop} {l l' l'' : List α} {i : Nat} {a b : α}

theorem forall₂_set_right (h : List.Forall₂ R l l') (ha : l[i]? = some a) (hab : R a b) :
    List.Forall₂ R l (l'.set i b) := by
  induction h generalizing i with
  | nil => exact .nil
  | cons hxy _ ih =>
    cases i with
    | zero =>
      cases ha
      exact .cons hab ‹_›
    | succ i => exact .cons hxy (ih ha)

theorem forall₂_trans (htrans : ∀ {a b c}, R a b → R b c → R a c) (h : List.Forall₂ R l l')
    (h' : List.Forall₂ R l' l'') : List.Forall₂ R l l'' := by
  induction h generalizing l'' with
  | nil => exact h'
  | cons hxy _ ih =>
    cases h' with
    | cons hyz htail => exact .cons (htrans hxy hyz) (ih htail)

theorem sum_map_set {g : α → Nat} (ha : l[i]? = some a) :
    ((l.set i b).map g).sum + g a = (l.map g).sum + g b := by
  induction l generalizing i with
  | nil => cases ha
  | cons x l ih =>
    cases i with
    | zero =>
      cases ha
      simp only [List.set_cons_zero, List.map_cons, List.sum_cons]
      omega
    | succ i =>
      have := ih ha
      simp only [List.set_cons_succ, List.map_cons, List.sum_cons]
      omega

theorem length_add_countP_le_sum {p : α → Bool} {g : α → Nat}
    (h : ∀ a ∈ l, 1 + (p a).toNat ≤ g a) : l.length + l.countP p ≤ (l.map g).sum := by
  induction l with
  | nil => simp
  | cons a l ih =>
    have hl := ih fun x hx => h x (List.mem_cons_of_mem _ hx)
    have ha := h a List.mem_cons_self
    rw [List.length_cons, List.countP_cons, List.map_cons, List.sum_cons]
    cases hp : p a
    all_goals
      simp only [hp, Bool.toNat_false, Bool.toNat_true, Bool.false_eq_true, if_false, if_true]
        at ha ⊢
      omega

end Lists

namespace Dialect.Module

def size (m : Module) : Nat := (m.functions.map Function.size).sum

/-- No call that has a value names a function with two or more returns. -/
def ReturnsOnce (m : Module) : Prop :=
  ∀ f ∈ m.functions, ∀ o ∈ f.ops, o.result.isSome = true →
    ∀ g ∈ m.functions, o.callee? = some g.symbol → g.returnCount ≤ 1

instance (m : Module) : Decidable m.ReturnsOnce :=
  inferInstanceAs (Decidable (∀ f ∈ m.functions, ∀ o ∈ f.ops, o.result.isSome = true →
    ∀ g ∈ m.functions, o.callee? = some g.symbol → g.returnCount ≤ 1))

end Dialect.Module

namespace Inline

open Dialect

variable {config : InlineConfig} {m m' : Module} {site : CallSite}

theorem isSome_of_result_copyOp {r : Renaming} {cont : BlockId} {o : Op}
    (h : (copyOp r cont o).result.isSome = true) : o.result.isSome = true := by
  rcases eq_ret_or_ne_ret o with ⟨value, hret⟩ | hret
  · simp [copyOp_of_ret hret, Op.void] at h
  · rw [copyOp_of_ne_ret hret] at h
    cases ho : o.result with
    | none => simp [Renaming.op, ho] at h
    | some v => rfl

/-- A call that has a value is a call of the caller, or of the callee, that has one. -/
theorem Splicing.exists_call_of_mem_ops_result {caller callee : Function}
    (s : Splicing caller callee) {o : Op} (ho : o ∈ s.result.ops) (hresult : o.result.isSome = true)
    {c : String} (hc : o.callee? = some c) :
    ∃ o', (o' ∈ caller.ops ∨ o' ∈ callee.ops) ∧ o'.result.isSome = true ∧ o'.callee? = some c := by
  obtain ⟨b, hb, x, hx, rfl⟩ := s.mem_ops_result.1 ho
  rw [result_edit] at hresult
  rw [callee?_edit] at hc
  rcases s.mem_ops_blocks.1 (List.mem_flatMap.2 ⟨b, hb, hx⟩) with hx | rfl | hx | hx
  · exact ⟨x, .inl (s.mem_ops_caller_of_mem_kept hx), hresult, hc⟩
  · cases hc
  · obtain ⟨x', hx', rfl⟩ := List.mem_map.1 hx
    rw [callee?_copyOp] at hc
    exact ⟨x', .inr hx', isSome_of_result_copyOp hresult, hc⟩
  · obtain ⟨v, -, rfl⟩ := s.mem_mergeOps hx
    cases hc

theorem returnsOnce_inlineSite (h : inlineSite m site = .ok m') (hm : m.ReturnsOnce) :
    m'.ReturnsOnce := by
  obtain ⟨caller, callee, hcaller, hcallee, s, -, -, rfl⟩ := inlineSite_cases h
  have hcaller := List.mem_of_getElem? hcaller
  have hcallee := List.mem_of_getElem? hcallee
  -- Every function has the name and the number of returns that one had before.
  have hreturns : ∀ g ∈ m.functions.set site.caller s.result, ∃ g' ∈ m.functions,
      g'.symbol = g.symbol ∧ g'.returnCount = g.returnCount :=
    forall_mem_set (fun g hg => ⟨g, hg, rfl, rfl⟩)
      ⟨caller, hcaller, rfl, s.returnCount_result.symm⟩
  have hcalls : ∀ f ∈ m.functions.set site.caller s.result, ∀ o ∈ f.ops, o.result.isSome = true →
      ∀ c, o.callee? = some c → ∃ f' ∈ m.functions, ∃ o' ∈ f'.ops, o'.result.isSome = true ∧
        o'.callee? = some c := by
    refine forall_mem_set (fun f hf o ho hr c hc => ⟨f, hf, o, ho, hr, hc⟩) ?_
    intro o ho hr c hc
    obtain ⟨o', ho' | ho', hr', hc'⟩ := s.exists_call_of_mem_ops_result ho hr hc
    · exact ⟨caller, hcaller, o', ho', hr', hc'⟩
    · exact ⟨callee, hcallee, o', ho', hr', hc'⟩
  intro f hf o ho hr g hg hc
  obtain ⟨g', hg', hsymbol, hcount⟩ := hreturns g hg
  obtain ⟨f', hf', o', ho', hr', hc'⟩ := hcalls f hf o ho hr g.symbol hc
  rw [← hcount]
  exact hm f' hf' o' ho' hr' g' hg' (by rw [hc', hsymbol])

/-- How far a function can get: the limit does not count phis, and of those there is at most one for
three operations within the limit. -/
def ceiling (config : InlineConfig) : Nat :=
  config.maxCallerSize + (config.maxCallerSize - 1) / 3

/-- What holds of the calls that are chosen in a function. -/
structure Chosen (config : InlineConfig) (m : Module) (c : Nat) (f : Function)
    (sites : List CallSite) : Prop where
  outgoing : ∀ t ∈ sites, t.caller = c ∧ t.callee ≠ c
  sorted : sites.Pairwise (·.position < ·.position)
  callees : sites.length + sites.countP (needsPhi m) ≤ (sites.map (calleeSize m)).sum
  calls : sites ≠ [] → sites.length < f.size
  limit : sites ≠ [] → f.size + (sites.map (calleeSize m)).sum ≤ config.maxCallerSize
  once : m.ReturnsOnce → sites.countP (needsPhi m) = 0

theorem refusal?_of_isCandidate {graph : CallGraph} {call : Op} {callee : Function}
    (h : isCandidate config graph site call callee = true) :
    refusal? graph site call callee = none := by
  rw [isCandidate, Bool.and_eq_true, Option.isNone_iff_eq_none] at h
  exact h.1

section Caller

variable {graph : CallGraph} {c : Nat} {f : Function} (hf : m.functions[c]? = some f)
  (hgraph : graph.sitesIn c = CallGraph.functionSites m.symbolTable c f)

include hf hgraph

theorem exists_of_mem_select (h : site ∈ select config m graph c) :
    site.caller = c ∧ ∃ call callee, f.op? site.block site.op = some call ∧
      m.functions[site.callee]? = some callee ∧ call.callee? = some callee.symbol ∧
      isCandidate config graph site call callee = true := by
  simp only [select, hf] at h
  obtain ⟨callee, call, hcallee, hcall, hcandidate⟩ := isCandidate_of_mem_choose h
  have hsite := choose_sublist.subset h
  rw [hgraph, CallGraph.mem_functionSites_iff] at hsite
  obtain ⟨hcaller, o, name, ho, hname, htable⟩ := hsite
  obtain ⟨g, hg, rfl⟩ := Module.exists_of_symbolTable_get? htable
  rw [hcall] at ho
  cases ho
  rw [hcallee] at hg
  cases hg
  exact ⟨hcaller, call, callee, hcall, hcallee, hname, hcandidate⟩

theorem symbolTable_of_mem_select (h : site ∈ select config m graph c) {call : Op} {symbol : String}
    (hcall : f.op? site.block site.op = some call) (hsymbol : call.callee? = some symbol) :
    m.symbolTable.get? symbol = some site.callee := by
  simp only [select, hf] at h
  have hsite := choose_sublist.subset h
  rw [hgraph, CallGraph.mem_functionSites_iff] at hsite
  obtain ⟨-, o, name, ho, hname, htable⟩ := hsite
  rw [hcall] at ho
  cases ho
  rw [hsymbol] at hname
  cases hname
  exact htable

theorem callee_ne_of_mem_select (h : site ∈ select config m graph c) : site.callee ≠ c := by
  obtain ⟨hcaller, call, callee, -, -, -, hcandidate⟩ := exists_of_mem_select hf hgraph h
  obtain ⟨-, -, -, hne, -⟩ := refusal?_eq_none_iff.1 (refusal?_of_isCandidate hcandidate)
  exact hcaller ▸ hne

theorem pairwise_select : (select config m graph c).Pairwise (·.position < ·.position) := by
  rw [select, hf]
  refine List.Pairwise.sublist choose_sublist ?_
  rw [hgraph]
  exact CallGraph.pairwise_functionSites

/-- A chosen callee has at least one operation, and two if its value takes a phi. -/
theorem one_add_needsPhi_le_calleeSize (hm : m.Framed) (h : site ∈ select config m graph c) :
    1 + (needsPhi m site).toNat ≤ calleeSize m site := by
  obtain ⟨-, call, callee, -, hcallee, -, hcandidate⟩ := exists_of_mem_select hf hgraph h
  obtain ⟨-, -, -, -, hbody, -⟩ := refusal?_eq_none_iff.1 (refusal?_of_isCandidate hcandidate)
  have hsize : calleeSize m site = callee.size := by simp [calleeSize, hcallee]
  rw [hsize]
  cases hphi : needsPhi m site with
  | true =>
    have hreturns : 2 ≤ callee.returnCount := by
      simp only [needsPhi, hcallee, Option.any_some, Bool.and_eq_true, decide_eq_true_eq] at hphi
      exact hphi.2
    exact hreturns.trans callee.returnCount_le_size
  | false =>
    have hext := Function.isExternal_of_hasBody hbody
    have hpos := (hm.bodies callee (List.mem_of_getElem? hcallee) hext).calls_lt_size
    rw [Bool.toNat_false]
    omega

theorem needsPhi_eq_false (hm : m.ReturnsOnce) (h : site ∈ select config m graph c) :
    needsPhi m site = false := by
  obtain ⟨hcaller, call, callee, hcall, hcallee, hname, -⟩ := exists_of_mem_select hf hgraph h
  rw [Bool.eq_false_iff]
  intro hphi
  simp only [needsPhi, valueAt, hcaller, hf, Option.bind_some, hcall, hcallee, Option.any_some,
    Bool.and_eq_true, decide_eq_true_eq] at hphi
  have := hm f (List.mem_of_getElem? hf) call (Function.mem_ops_of_op? hcall) hphi.1 callee
    (List.mem_of_getElem? hcallee) hname
  omega

/-- The chosen calls are calls of the caller, which has a return or a jump besides. -/
theorem length_select_lt_size (hm : m.Framed) (h : select config m graph c ≠ []) :
    (select config m graph c).length < f.size := by
  have hlength : (select config m graph c).length ≤ f.ops.countP (·.callee?.isSome) := by
    rw [select, hf]
    refine choose_sublist.length_le.trans ?_
    rw [hgraph]
    exact CallGraph.length_functionSites_le
  have hext : f.isExternal = false := by
    obtain ⟨site, hsite⟩ := List.exists_mem_of_ne_nil _ h
    obtain ⟨-, call, -, hcall, -⟩ := exists_of_mem_select hf hgraph hsite
    obtain ⟨b, hb, -⟩ := Function.op?_eq_some_iff.1 hcall
    rw [Bool.eq_false_iff]
    intro hext
    rw [hm.bodiless f (List.mem_of_getElem? hf) hext] at hb
    cases hb
  exact hlength.trans_lt (hm.bodies f (List.mem_of_getElem? hf) hext).calls_lt_size

theorem chosen_select (hm : m.Framed) : Chosen config m c f (select config m graph c) where
  outgoing t ht := ⟨(exists_of_mem_select hf hgraph ht).1, callee_ne_of_mem_select hf hgraph ht⟩
  sorted := pairwise_select hf hgraph
  callees := length_add_countP_le_sum fun t => one_add_needsPhi_le_calleeSize hf hgraph hm
  calls := length_select_lt_size hf hgraph hm
  limit := by
    simp only [select, hf]
    exact size_choose_le
  once honce := by
    rw [List.countP_eq_zero]
    exact fun t ht => by simp [needsPhi_eq_false hf hgraph honce ht]

end Caller

/-- How a function may grow: to the ceiling at most, and no further than the limit if no call needs
a phi. -/
structure Grown (config : InlineConfig) (once : Prop) (f f' : Function) : Prop where
  le : f.size ≤ f'.size
  le_ceiling : f'.size ≤ max f.size (ceiling config)
  le_limit : once → f'.size ≤ max f.size config.maxCallerSize

namespace Grown

variable {once : Prop} {f f' f'' : Function}

theorem refl (f : Function) : Grown config once f f :=
  ⟨Nat.le_refl _, Nat.le_max_left .., fun _ => Nat.le_max_left ..⟩

theorem trans (h : Grown config once f f') (h' : Grown config once f' f'') :
    Grown config once f f'' := by
  refine ⟨h.le.trans h'.le, ?_, fun honce => ?_⟩
  · have := h.le_ceiling
    have := h'.le_ceiling
    omega
  · have := h.le_limit honce
    have := h'.le_limit honce
    omega

theorem mono {once' : Prop} (honce : once' → once) (h : Grown config once f f') :
    Grown config once' f f' :=
  ⟨h.le, h.le_ceiling, fun h' => h.le_limit (honce h')⟩

end Grown

theorem inlineCaller_grown {graph : CallGraph} {c count : Nat} {f : Function} (hm : m.Framed)
    (hf : m.functions[c]? = some f)
    (hgraph : graph.sitesIn c = CallGraph.functionSites m.symbolTable c f)
    (h : inlineCaller config graph m c = .ok (m', count)) :
    ∃ f', m'.functions = m.functions.set c f' ∧ f.size + count ≤ f'.size ∧
      Grown config m.ReturnsOnce f f' := by
  obtain ⟨m₁, hm₁, h⟩ := bind_eq_ok_iff.1 h
  cases h
  have hchosen : Chosen config m c f (select config m graph c) := chosen_select hf hgraph hm
  generalize select config m graph c = sites at hm₁ hchosen ⊢
  obtain ⟨f', hset, hsize, -⟩ := caller_foldlM_inlineSite hf hchosen.outgoing hchosen.sorted hm₁
  have hcallees := hchosen.callees
  have hphis : sites.countP (needsPhi m) ≤ sites.length := List.countP_le_length
  refine ⟨f', hset, by omega, by omega, ?_, fun honce => ?_⟩
  -- Without a chosen call the function stays as it was, whatever its size.
  · by_cases hnil : sites = []
    · simp only [hnil, List.map_nil, List.sum_nil, List.countP_nil] at hsize
      omega
    · have hlimit := hchosen.limit hnil
      have hcalls := hchosen.calls hnil
      rw [ceiling]
      omega
  · have hphis := hchosen.once honce
    by_cases hnil : sites = []
    · simp only [hnil, List.map_nil, List.sum_nil, List.countP_nil] at hsize
      omega
    · have hlimit := hchosen.limit hnil
      omega

/-- What is true of a module part of the way through a round, when the functions before `c` are
done. -/
structure Underway (config : InlineConfig) (m : Module) (c : Nat) (m' : Module) (count : Nat) :
    Prop where
  framed : m'.Framed
  symbols : m'.symbols = m.symbols
  once : m.ReturnsOnce → m'.ReturnsOnce
  ahead : ∀ k, c ≤ k → m'.functions[k]? = m.functions[k]?
  grown : List.Forall₂ (Grown config m.ReturnsOnce) m.functions m'.functions
  size_le : m.size + count ≤ m'.size

namespace Underway

variable {c count : Nat}

theorem start (hm : m.Framed) : Underway config m 0 m 0 :=
  ⟨hm, rfl, id, fun _ _ => rfl, List.forall₂_same.2 fun f _ => .refl f, Nat.le_refl _⟩

theorem step (h : Underway config m c m' count) (hc : c < m.functions.length) {m'' : Module}
    {more : Nat} (hstep : inlineCaller config (.build m) m' c = .ok (m'', more)) :
    Underway config m (c + 1) m'' (count + more) := by
  have hf : m.functions[c]? = some m.functions[c] := List.getElem?_eq_getElem hc
  have hf' : m'.functions[c]? = some m.functions[c] := by rw [h.ahead c (Nat.le_refl c), hf]
  have hgraph : (CallGraph.build m).sitesIn c =
      CallGraph.functionSites m'.symbolTable c m.functions[c] := by
    rw [CallGraph.sitesIn_build hf, Module.symbolTable_congr h.symbols]
  obtain ⟨f', hset, hsize, hgrown⟩ := inlineCaller_grown h.framed hf' hgraph hstep
  have hsum : m''.size + m.functions[c].size = m'.size + f'.size := by
    rw [Module.size, hset]
    exact sum_map_set hf'
  refine ⟨?_, ?_, fun honce => ?_, fun k hk => ?_, ?_, ?_⟩
  · exact inlineCaller_induction (fun m m' site => framed_inlineSite) hstep h.framed
  · exact inlineCaller_induction (P := fun m₁ => m₁.symbols = m.symbols)
      (fun m m' site hsite heq => (symbols_inlineSite hsite).trans heq) hstep h.symbols
  · exact inlineCaller_induction (fun m m' site => returnsOnce_inlineSite) hstep (h.once honce)
  · rw [hset, List.getElem?_set_ne (by omega), h.ahead k (by omega)]
  · rw [hset]
    exact forall₂_set_right h.grown hf (hgrown.mono h.once)
  · have := h.size_le
    omega

end Underway

/-- A round leaves every function within bounds, and the module has at least one operation more for
each call inlined. -/
theorem underway_round {count : Nat} (hm : m.Framed) (h : round config m = .ok (m', count)) :
    Underway config m m.functions.length m' count := by
  rw [round_eq_roundUpTo] at h
  refine roundUpTo_induction (P := fun c m' count => Underway config m c m' count) ?_ h (.start hm)
  intro c m₁ count m₂ more hc _ hcaller hunderway
  exact hunderway.step hc hcaller

theorem rounds_grown {n count : Nat} (hm : m.Framed) (h : rounds config n m = .ok (m', count)) :
    List.Forall₂ (Grown config m.ReturnsOnce) m.functions m'.functions := by
  induction n generalizing m count with
  | zero =>
    cases h
    exact List.forall₂_same.2 fun f _ => .refl f
  | succ n ih =>
    rcases rounds_succ_cases h with ⟨hround, -⟩ | ⟨m₁, first, more, hround, -, hrounds, -⟩
    · exact (underway_round hm hround).grown
    · have hfirst := underway_round hm hround
      have hrest := (ih hfirst.framed hrounds).imp fun f f' => Grown.mono hfirst.once
      exact forall₂_trans .trans hfirst.grown hrest

/-- The inliner makes no function larger than the ceiling, and none larger than the limit if no call
that has a value names a function with several returns. -/
theorem size_optimize_le (config : InlineConfig) {m : Module} (hm : m.verify = .ok ()) :
    List.Forall₂ (fun f f' => f'.size ≤ max f.size (ceiling config)) m.functions
      (optimize config m).2.functions ∧
    (m.ReturnsOnce → List.Forall₂ (fun f f' => f'.size ≤ max f.size config.maxCallerSize)
      m.functions (optimize config m).2.functions) := by
  have hgrown : List.Forall₂ (Grown config m.ReturnsOnce) m.functions
      (optimize config m).2.functions := by
    rw [optimize]
    split
    · next after count hrounds => exact rounds_grown (m.verify_eq_ok_iff.1 hm).1 hrounds
    · exact List.forall₂_same.2 fun f _ => .refl f
  exact ⟨hgrown.imp fun f f' h => h.le_ceiling, fun honce => hgrown.imp fun f f' h =>
    h.le_limit honce⟩

/-- There is room for one of the two calls. -/
theorem size_optimize_le_chained : chained.verify = .ok () ∧ chained.ReturnsOnce ∧
    (optimize { maxCallerSize := 4 } chained).1 = .changed ∧
    List.Forall₂ (fun f f' => f'.size ≤ max f.size 5) chained.functions
      (optimize { maxCallerSize := 4 } chained).2.functions ∧
    List.Forall₂ (fun f f' => f'.size ≤ max f.size 4) chained.functions
      (optimize { maxCallerSize := 4 } chained).2.functions := by
  have hm : chained.verify = .ok () := by decide
  have honce : chained.ReturnsOnce := by decide
  obtain ⟨hceiling, hlimit⟩ := size_optimize_le { maxCallerSize := 4 } hm
  exact ⟨hm, honce, by decide +kernel, hceiling, hlimit honce⟩

/-- Calls a function that has two returns, and gives back what it gets. -/
def picking : Module where
  name := "picking"
  functions := [
    { symbol := "pick", params := [(⟨0⟩, .bool)], ret := .int 32
      blocks := [
        { id := ⟨0⟩, ops := [.void (.condBr (.value ⟨0⟩) ⟨1⟩ ⟨2⟩)], succs := [⟨1⟩, ⟨2⟩] },
        { id := ⟨1⟩, ops := [.void (.ret (some (.const 1)))], preds := [⟨0⟩] },
        { id := ⟨2⟩, ops := [.void (.ret (some (.const 2)))], preds := [⟨0⟩] }] },
    { symbol := "main", params := [(⟨0⟩, .bool)], ret := .int 32
      blocks := [{ id := ⟨0⟩, ops := [
        ⟨some ⟨1⟩, .int 32, .call "pick" [.value ⟨0⟩] false⟩,
        .void (.ret (some (.value ⟨1⟩)))] }] }]

/-- The call just fits the limit, and the phi goes beyond it. -/
theorem size_optimize_picking : picking.verify = .ok () ∧
    (optimize { maxCallerSize := 5 } picking).1 = .changed ∧
    picking.functions.map Function.size = [3, 2] ∧
    (optimize { maxCallerSize := 5 } picking).2.functions.map Function.size = [3, 6] := by
  decide +kernel

end Inline

end PassEngine
