import Mathlib.Data.List.Nodup
import PassEngine.Proofs.Dialect.CallSites
import PassEngine.Proofs.Dialect.Operands

namespace PassEngine.Dialect

namespace CallGraph

variable {g : CallGraph} {site : CallSite}

/-- A function's count goes up by the number of the noted calls to it. -/
theorem incoming_foldl_note (g : CallGraph) (sites : List CallSite) (k : Nat) :
    (sites.foldl note g).incoming[k]? =
      (g.incoming[k]?).map (· + sites.countP (·.callee == k)) := by
  induction sites generalizing g with
  | nil => simp
  | cons site sites ih =>
    rw [List.foldl_cons, ih, note, List.countP_cons]
    by_cases hk : site.callee = k
    · subst hk
      simp [Function.comp_def, Nat.add_assoc, Nat.add_comm]
    · simp [hk]

theorem mem_allSites_iff : site ∈ g.allSites ↔ ∃ f, site ∈ g.sitesIn f := by
  rw [allSites, List.mem_flatten]
  constructor
  · rintro ⟨sites, hsites, hsite⟩
    obtain ⟨f, hf⟩ := List.mem_iff_getElem?.1 hsites
    exact ⟨f, by simpa [sitesIn, hf] using hsite⟩
  · rintro ⟨f, hsite⟩
    cases hf : g.sites[f]? with
    | none => simp [sitesIn, hf] at hsite
    | some sites => exact ⟨sites, List.mem_of_getElem? hf, by simpa [sitesIn, hf] using hsite⟩

end CallGraph

namespace Module

open CallGraph

variable {m : Module} {site : CallSite} {f : Nat}

/-- The operation at a position is a direct call of a symbol that the module's table has, where it
stands for the function at the position `site.callee`. -/
def CallsAt (m : Module) (site : CallSite) : Prop :=
  ∃ f b o name args known, m.functions[site.caller]? = some f ∧ f.blocks[site.block]? = some b ∧
    b.ops[site.op]? = some o ∧ o.kind = .call name args known ∧
    m.symbolTable.get? name = some site.callee

theorem mem_sitesIn_build : site ∈ (build m).sitesIn f ↔ site.caller = f ∧ m.CallsAt site := by
  cases hf : m.functions[f]? with
  | none =>
    have hnone : (build m).sitesIn f = [] := by simp [sitesIn, sites_build, hf]
    rw [hnone, iff_false_intro List.not_mem_nil, false_iff]
    rintro ⟨rfl, _, _, _, _, _, _, hcaller, -⟩
    rw [hf] at hcaller
    cases hcaller
  | some function =>
    rw [sitesIn_build hf, mem_functionSites_iff]
    apply and_congr_right
    rintro rfl
    constructor
    · rintro ⟨o, name, ho, hname, hcallee⟩
      obtain ⟨b, hb, ho⟩ := Function.op?_eq_some_iff.1 ho
      obtain ⟨args, known, hkind⟩ := OpKind.callee?_eq_some_iff.1 hname
      exact ⟨function, b, o, name, args, known, hf, hb, ho, hkind, hcallee⟩
    · rintro ⟨function', b, o, name, args, known, hf', hb, ho, hkind, hcallee⟩
      rw [hf] at hf'
      cases hf'
      exact ⟨o, name, Function.op?_eq_some_iff.2 ⟨b, hb, ho⟩,
        OpKind.callee?_eq_some_iff.2 ⟨args, known, hkind⟩, hcallee⟩

theorem lt_length_of_callsAt (h : m.CallsAt site) : site.callee < m.functions.length := by
  obtain ⟨_, _, _, _, _, _, -, -, -, -, hcallee⟩ := h
  exact lt_length_of_symbolTable_get? hcallee

theorem mem_allSites_build : site ∈ (build m).allSites ↔ m.CallsAt site := by
  simp [mem_allSites_iff, mem_sitesIn_build]

theorem pairwise_sitesIn_build (m : Module) (f : Nat) :
    ((build m).sitesIn f).Pairwise (·.position < ·.position) := by
  cases hf : m.functions[f]? with
  | none => simp [sitesIn, sites_build, hf]
  | some function =>
    rw [sitesIn_build hf]
    exact pairwise_functionSites

theorem nodup_allSites_build (m : Module) : (build m).allSites.Nodup := by
  rw [allSites, sites_build, List.nodup_flatten]
  constructor
  · intro sites hsites
    obtain ⟨f, -, rfl⟩ := List.mem_map.1 hsites
    exact pairwise_functionSites.imp fun hlt heq => (heq ▸ hlt).false
  · refine List.pairwise_map.2 ((pairwise_snd_zipIdx m.functions).imp ?_)
    rintro ⟨f, i⟩ ⟨f', i'⟩ hlt site hsite hsite'
    obtain ⟨rfl, -⟩ := mem_functionSites_iff.1 hsite
    exact hlt.ne (mem_functionSites_iff.1 hsite').1

theorem incoming_build (m : Module) (k : Nat) : (build m).incoming[k]? =
    if k < m.functions.length then some ((build m).sitesOf k).length else none := by
  -- The three loops note the calls in the order in which the graph then has them.
  have hnoted : build m = (build m).allSites.foldl note (empty m.functions.length) := by
    rw [allSites, sites_build, ← List.flatMap_def, List.foldl_flatMap, build]
    congr 1
    funext g f
    exact noteFunction_eq_foldl m.symbolTable g f
  rw [hnoted, incoming_foldl_note, ← hnoted, sitesOf, ← List.countP_eq_length_filter]
  by_cases hk : k < m.functions.length <;> simp [empty, hk]

/-- The count kept beside the sites is right also where there is no function. -/
theorem callCount_build (m : Module) (k : Nat) :
    (build m).callCount k = ((build m).sitesOf k).length := by
  rw [callCount, incoming_build]
  by_cases hk : k < m.functions.length
  · simp [hk]
  · have hnone : (build m).sitesOf k = [] := by
      rw [sitesOf, List.filter_eq_nil_iff]
      intro site hsite hcallee
      have hlt := lt_length_of_callsAt (mem_allSites_build.1 hsite)
      rw [beq_iff_eq] at hcallee
      omega
    simp [hk, hnone]

/-- The graph of a module lists for each function, in the order of the program and each once, the
positions of the direct calls of what the table of symbols has, which is always a function of the
module. The count of the calls to a function is the number of all calls in the module to it. -/
theorem callGraph_exact (m : Module) :
    (∀ f, ((build m).sitesIn f).Pairwise (·.position < ·.position)) ∧
    (∀ f site, site ∈ (build m).sitesIn f ↔
      site.caller = f ∧ m.CallsAt site ∧ site.callee < m.functions.length) ∧
    ∀ g, ((build m).sitesOf g).Nodup ∧
      (∀ site, site ∈ (build m).sitesOf g ↔ m.CallsAt site ∧ site.callee = g) ∧
      (build m).callCount g = ((build m).sitesOf g).length := by
  refine ⟨pairwise_sitesIn_build m, fun f site => ?_, fun g => ⟨?_, fun site => ?_, ?_⟩⟩
  · rw [mem_sitesIn_build, and_iff_left_of_imp lt_length_of_callsAt]
  · exact (nodup_allSites_build m).filter _
  · rw [sitesOf, List.mem_filter, mem_allSites_build, beq_iff_eq]
  · exact callCount_build m g

end Module

end PassEngine.Dialect
