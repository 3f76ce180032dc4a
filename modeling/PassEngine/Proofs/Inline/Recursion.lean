import PassEngine.Proofs.Dialect.Reachability
import PassEngine.Proofs.Inline.Limit

namespace PassEngine.Inline

open Dialect Relation

/-- A relation that has every step of another one that lies on a cycle has its cycles too. -/
theorem transGen_of_cycle {α : Type} {R S : α → α → Prop}
    (hcyclic : ∀ a b, R a b → TransGen R b a → S a b) {a b : α} (hab : TransGen R a b)
    (hba : TransGen R b a) : TransGen S a b := by
  induction hab with
  | single hstep => exact .single (hcyclic _ _ hstep hba)
  | tail hpath hstep ih =>
    exact .tail (ih (.head hstep hba)) (hcyclic _ _ hstep (hba.trans hpath))

namespace Splicing

variable {caller callee : Function} (s : Splicing caller callee)

/-- After a splice the calls are those of the callee and those of the caller but the one that it
replaces. -/
theorem exists_call_iff {c : String} : (∃ o ∈ s.result.ops, o.callee? = some c) ↔
    (∃ o ∈ s.kept, o.callee? = some c) ∨ ∃ o ∈ callee.ops, o.callee? = some c := by
  constructor
  · rintro ⟨o, ho, hc⟩
    obtain ⟨b, hb, x, hx, rfl⟩ := s.mem_ops_result.1 ho
    rw [callee?_edit] at hc
    rcases s.mem_ops_blocks.1 (List.mem_flatMap.2 ⟨b, hb, hx⟩) with hx | rfl | hx | hx
    · exact .inl ⟨x, hx, hc⟩
    · cases hc
    · obtain ⟨x', hx', rfl⟩ := List.mem_map.1 hx
      exact .inr ⟨x', hx', by rwa [callee?_copyOp] at hc⟩
    · obtain ⟨v, -, rfl⟩ := s.mem_mergeOps hx
      cases hc
  · intro h
    obtain ⟨x, hx, hc⟩ : ∃ x ∈ s.blocks.flatMap Block.ops, x.callee? = some c := by
      rcases h with ⟨o, ho, hc⟩ | ⟨o, ho, hc⟩
      · exact ⟨o, s.mem_ops_blocks.2 (.inl ho), hc⟩
      · refine ⟨copyOp s.names s.cont o, s.mem_ops_blocks.2 (.inr (.inr (.inl ?_))), ?_⟩
        · exact List.mem_map_of_mem ho
        · rwa [callee?_copyOp]
    obtain ⟨b, hb, hx⟩ := List.mem_flatMap.1 hx
    exact ⟨s.edit b.id x, s.mem_ops_result.2 ⟨b, hb, x, hx, rfl⟩, by rwa [callee?_edit]⟩

end Splicing

variable {config : InlineConfig} {m m' : Module} {site : CallSite} {f g : Nat}

def nameAt (m : Module) (site : CallSite) : Option String :=
  m.functions[site.caller]?.bind fun f => (f.op? site.block site.op).bind Op.callee?

theorem calls_of_calls_inlineSite (h : inlineSite m site = .ok m') (hcalls : m'.Calls f g) :
    m.Calls f g ∨ f = site.caller ∧ m.Calls site.callee g := by
  have htable := Module.symbolTable_congr (symbols_inlineSite h)
  obtain ⟨caller, callee, hcaller, hcallee, s, -, -, rfl⟩ := inlineSite_cases h
  obtain ⟨function, hfunction, o, ho, c, hc, hg⟩ := hcalls
  rw [htable] at hg
  rw [List.getElem?_set] at hfunction
  split at hfunction
  · next heq =>
    subst heq
    rw [if_pos (List.getElem?_eq_some_iff.1 hcaller).1] at hfunction
    cases hfunction
    rcases s.exists_call_iff.1 ⟨o, ho, hc⟩ with ⟨o', ho', hc'⟩ | ⟨o', ho', hc'⟩
    · exact .inl ⟨caller, hcaller, o', s.mem_ops_caller_of_mem_kept ho', c, hc', hg⟩
    · exact .inr ⟨rfl, callee, hcallee, o', ho', c, hc', hg⟩
  · exact .inl ⟨function, hfunction, o, ho, c, hc, hg⟩

theorem calls_inlineSite_of_calls (h : inlineSite m site = .ok m') (hcalls : m.Calls f g) :
    m'.Calls f g ∨ f = site.caller ∧ (nameAt m site).bind m.symbolTable.get? = some g := by
  have htable := Module.symbolTable_congr (symbols_inlineSite h)
  obtain ⟨caller, callee, hcaller, hcallee, s, hblock, hop, rfl⟩ := inlineSite_cases h
  obtain ⟨function, hfunction, o, ho, c, hc, hg⟩ := hcalls
  by_cases hf : f = site.caller
  · subst hf
    rw [hcaller] at hfunction
    cases hfunction
    rcases List.mem_cons.1 (s.ops_caller_perm.mem_iff.1 ho) with rfl | ho
    · refine .inr ⟨rfl, ?_⟩
      have hname : nameAt m site = some c := by
        rw [nameAt, hcaller, ← hblock, ← hop, Option.bind_some, s.op?_caller, Option.bind_some, hc]
      rw [hname, Option.bind_some, hg]
    · obtain ⟨o', ho', hc'⟩ := s.exists_call_iff.2 (.inl ⟨o, ho, hc⟩)
      refine .inl ⟨s.result, ?_, o', ho', c, hc', by rwa [htable]⟩
      exact List.getElem?_set_self (List.getElem?_eq_some_iff.1 hcaller).1
  · refine .inl ⟨function, ?_, o, ho, c, hc, by rwa [htable]⟩
    rw [List.getElem?_set_ne (Ne.symm hf), hfunction]

theorem nameAt_inlineSite {t : CallSite} (h : inlineSite m site = .ok m')
    (hcaller : t.caller = site.caller) (hlt : t.position < site.position) :
    nameAt m' t = nameAt m t := by
  obtain ⟨caller, callee, hf, hcallee, s, hblock, hop, rfl⟩ := inlineSite_cases h
  rw [CallSite.position, CallSite.position, ← hblock, ← hop] at hlt
  obtain ⟨id, hid⟩ := s.op?_result_of_lt hlt
  rw [nameAt, nameAt, hcaller, hf, List.getElem?_set_self (List.getElem?_eq_some_iff.1 hf).1,
    Option.bind_some, Option.bind_some, hid, Option.bind_map]
  congr 1
  funext o
  exact s.callee?_edit id o

/-- What a module calls compared to what another one does: only what that one reaches, and still
everything that lies on a cycle. -/
structure CallsWithin (m m' : Module) : Prop where
  symbols : m'.symbols = m.symbols
  reached : ∀ f g, m'.Calls f g → TransGen m.Calls f g
  cyclic : ∀ f g, m.Calls f g → TransGen m.Calls g f → m'.Calls f g

namespace CallsWithin

variable {m₀ : Module}

theorem refl (m : Module) : CallsWithin m m :=
  ⟨rfl, fun _ _ => .single, fun _ _ hcalls _ => hcalls⟩

theorem transGen (h : CallsWithin m m') (hpath : TransGen m'.Calls f g) :
    TransGen m.Calls f g :=
  TransGen.closed h.reached f g hpath

theorem trans (h : CallsWithin m₀ m) (h' : CallsWithin m m') : CallsWithin m₀ m' where
  symbols := h'.symbols.trans h.symbols
  reached f g hcalls := h.transGen (h'.reached f g hcalls)
  cyclic f g hcalls hback := by
    have hback' : TransGen m.Calls g f := transGen_of_cycle h.cyclic hback (.single hcalls)
    exact h'.cyclic f g (h.cyclic f g hcalls hback) hback'

theorem isRecursive_eq (h : CallsWithin m m') (f : Nat) :
    (CallGraph.build m').isRecursive f = (CallGraph.build m).isRecursive f := by
  rw [CallGraph.isRecursive, CallGraph.isRecursive, Bool.eq_iff_iff, Module.reaches_build_iff,
    Module.reaches_build_iff]
  exact ⟨h.transGen, fun hcycle => transGen_of_cycle h.cyclic hcycle hcycle⟩

/-- A call that lies on no cycle may be inlined. -/
theorem step (h : CallsWithin m₀ m) (hsite : inlineSite m site = .ok m')
    (hcall : m₀.Calls site.caller site.callee)
    (hacyclic : ¬TransGen m₀.Calls site.callee site.caller)
    (hname : (nameAt m site).bind m.symbolTable.get? = some site.callee) :
    CallsWithin m₀ m' where
  symbols := (symbols_inlineSite hsite).trans h.symbols
  reached f g hcalls := by
    rcases calls_of_calls_inlineSite hsite hcalls with hbefore | ⟨rfl, hcopied⟩
    · exact h.reached f g hbefore
    · exact .head hcall (h.reached site.callee g hcopied)
  cyclic f g hcalls hback := by
    rcases calls_inlineSite_of_calls hsite (h.cyclic f g hcalls hback) with hcalls' | ⟨rfl, hg⟩
    · exact hcalls'
    · rw [hname] at hg
      cases hg
      exact absurd hback hacyclic

/-- The calls of one function, the last one first. The sites before keep the names that the module
had at first. -/
theorem foldlM {c : Nat} {sites : List CallSite} (h : CallsWithin m₀ m)
    (hsites : ∀ t ∈ sites, t.caller = c ∧ m₀.Calls c t.callee ∧
      ¬TransGen m₀.Calls t.callee c ∧ (nameAt m t).bind m₀.symbolTable.get? = some t.callee)
    (hsorted : sites.Pairwise (·.position < ·.position))
    (hfold : sites.reverse.foldlM inlineSite m = .ok m') :
    CallsWithin m₀ m' ∧ (∀ k ≠ c, m'.functions[k]? = m.functions[k]?) ∧
      ∀ t : CallSite, t.caller = c → (∀ u ∈ sites, t.position < u.position) →
        nameAt m' t = nameAt m t := by
  induction sites generalizing m' with
  | nil =>
    cases hfold
    exact ⟨h, fun _ _ => rfl, fun _ _ _ => rfl⟩
  | cons t sites ih =>
    -- The first site is inlined last, after those behind it.
    rw [List.reverse_cons, List.foldlM_append] at hfold
    obtain ⟨m₁, hm₁, hfold⟩ := bind_eq_ok_iff.1 hfold
    rw [List.foldlM_cons] at hfold
    obtain ⟨m₂, hm₂, hfold⟩ := bind_eq_ok_iff.1 hfold
    cases hfold
    obtain ⟨hfirst, hsorted⟩ := List.pairwise_cons.1 hsorted
    obtain ⟨⟨rfl, hcall, hacyclic, hname⟩, hsites⟩ := List.forall_mem_cons.1 hsites
    obtain ⟨h₁, hothers, hnames⟩ := ih hsites hsorted hm₁
    have htable := Module.symbolTable_congr h₁.symbols
    refine ⟨h₁.step hm₂ hcall hacyclic ?_, fun k hk => ?_, fun u hu hlt => ?_⟩
    · rw [hnames t rfl hfirst, htable, hname]
    · obtain ⟨caller, callee, -, -, s, -, -, rfl⟩ := inlineSite_cases hm₂
      rw [List.getElem?_set_ne hk.symm, hothers k hk]
    · obtain ⟨hut, hlt⟩ := List.forall_mem_cons.1 hlt
      rw [nameAt_inlineSite hm₂ hu hut, hnames u hu hlt]

/-- Inlining into one function by the graph of the module that the round began with, which is still
right about that function. -/
theorem inlineCaller {c count : Nat} (h : CallsWithin m₀ m)
    (hc : m.functions[c]? = m₀.functions[c]?) (hlt : c < m₀.functions.length)
    (hstep : inlineCaller config (.build m₀) m c = .ok (m', count)) :
    CallsWithin m₀ m' ∧ ∀ k ≠ c, m'.functions[k]? = m.functions[k]? := by
  obtain ⟨m₁, hm₁, hpair⟩ := bind_eq_ok_iff.1 hstep
  cases hpair
  have hf₀ : m₀.functions[c]? = some m₀.functions[c] := List.getElem?_eq_getElem hlt
  have hf : m.functions[c]? = some m₀.functions[c] := hc.trans hf₀
  have htable := Module.symbolTable_congr h.symbols
  have hgraph : (CallGraph.build m₀).sitesIn c =
      CallGraph.functionSites m.symbolTable c m₀.functions[c] := by
    rw [CallGraph.sitesIn_build hf₀, htable]
  -- The refusals keep calls on cycles out of what is chosen.
  have hsites : ∀ t ∈ select config m (.build m₀) c, t.caller = c ∧ m₀.Calls c t.callee ∧
      ¬TransGen m₀.Calls t.callee c ∧ (nameAt m t).bind m₀.symbolTable.get? = some t.callee := by
    intro t ht
    obtain ⟨hcaller, call, callee, hcall, -, -, hcandidate⟩ := exists_of_mem_select hf hgraph ht
    obtain ⟨-, -, -, -, -, -, -, -, -, hreaches, -⟩ :=
      refusal?_eq_none_iff.1 (refusal?_of_isCandidate hcandidate)
    have hsite : t ∈ (CallGraph.build m₀).sitesIn c := by
      simp only [select, hf] at ht
      exact choose_sublist.subset ht
    rw [CallGraph.sitesIn_build hf₀, CallGraph.mem_functionSites_iff] at hsite
    obtain ⟨-, o, name, ho, hname, hcallee⟩ := hsite
    refine ⟨hcaller, ⟨_, hf₀, o, Function.mem_ops_of_op? ho, name, hname, hcallee⟩, ?_, ?_⟩
    · rw [← Module.reaches_build_iff, ← hcaller, hreaches]
      decide
    · rw [nameAt, hcaller, hf, Option.bind_some, ho, Option.bind_some, hname, Option.bind_some,
        hcallee]
  obtain ⟨hwithin, hothers, -⟩ := h.foldlM hsites (pairwise_select hf hgraph) hm₁
  exact ⟨hwithin, hothers⟩

end CallsWithin

theorem callsWithin_roundUpTo {c count : Nat} (hc : c ≤ m.functions.length)
    (h : roundUpTo config m c = .ok (m', count)) :
    CallsWithin m m' ∧ ∀ k, c ≤ k → m'.functions[k]? = m.functions[k]? := by
  refine roundUpTo_induction (P := fun c m' _ => CallsWithin m m' ∧
    ∀ k, c ≤ k → m'.functions[k]? = m.functions[k]?) ?_ h ⟨.refl m, fun _ _ => rfl⟩
  rintro i m₁ _ m₂ more hi _ hcaller ⟨hwithin, hahead⟩
  obtain ⟨hwithin', hothers⟩ := hwithin.inlineCaller (hahead i (Nat.le_refl i)) (by omega) hcaller
  exact ⟨hwithin', fun k hk => (hothers k (by omega)).trans (hahead k (by omega))⟩

theorem callsWithin_round {count : Nat} (h : round config m = .ok (m', count)) :
    CallsWithin m m' := by
  rw [round_eq_roundUpTo] at h
  exact (callsWithin_roundUpTo (Nat.le_refl _) h).1

theorem callsWithin_rounds {n count : Nat} (h : rounds config n m = .ok (m', count)) :
    CallsWithin m m' := by
  induction n generalizing m count with
  | zero =>
    cases h
    exact .refl m'
  | succ n ih =>
    rcases rounds_succ_cases h with ⟨hround, -⟩ | ⟨m₁, first, more, hround, -, hrounds, -⟩
    · exact callsWithin_round hround
    · exact (callsWithin_round hround).trans (ih hrounds)

theorem callsWithin_optimize (config : InlineConfig) (m : Module) :
    CallsWithin m (optimize config m).2 := by
  rw [optimize]
  split
  · next after count hrounds => exact callsWithin_rounds hrounds
  · exact .refl m

/-- After the inliner no function reaches another one that it did not reach before, and the same
functions are recursive. -/
theorem optimize_preserves_recursion (config : InlineConfig) (m : Module) (f g : Nat) :
    ((CallGraph.build (optimize config m).2).reaches f g = true →
      (CallGraph.build m).reaches f g = true) ∧
    (CallGraph.build (optimize config m).2).isRecursive f = (CallGraph.build m).isRecursive f := by
  have hwithin := callsWithin_optimize config m
  refine ⟨fun h => ?_, hwithin.isRecursive_eq f⟩
  rw [Module.reaches_build_iff] at h ⊢
  exact hwithin.transGen h

end PassEngine.Inline
