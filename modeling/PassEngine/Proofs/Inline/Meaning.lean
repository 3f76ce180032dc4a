import PassEngine.Proofs.Dialect.CallSites
import PassEngine.Proofs.Inline.Simulation

namespace PassEngine

namespace Dialect.Module

variable {m : Module}

theorem function?_eq_some_iff (h : m.symbols.Nodup) {c : String} {f : Function} :
    m.function? c = some f ↔ f ∈ m.functions ∧ f.symbol = c := by
  constructor
  · intro hf
    exact ⟨List.mem_of_find?_eq_some hf, by simpa using List.find?_some hf⟩
  · rintro ⟨hf, rfl⟩
    cases hfind : m.function? f.symbol with
    | none =>
      have := List.find?_eq_none.1 hfind f hf
      simp at this
    | some f' =>
      have hsymbol := List.find?_some hfind
      rw [beq_iff_eq] at hsymbol
      rw [List.inj_on_of_nodup_map h (List.mem_of_find?_eq_some hfind) hf hsymbol]

end Dialect.Module

namespace Inline

open Dialect

variable {V W : Type} {m : Module}

namespace Splicing

variable {caller callee : Function} (s : Splicing caller callee) {site : CallSite}

/-- The call at a site of the graph names the function whose body is spliced in. -/
theorem function?_symbol (hm : m.symbols.Nodup) (hsite : site ∈ (CallGraph.build m).allSites)
    (hcaller : m.functions[site.caller]? = some caller)
    (hcallee : m.functions[site.callee]? = some callee) (hblock : s.before.length = site.block)
    (hop : s.head.length = site.op) : m.function? s.symbol = some callee := by
  obtain ⟨f, b, o, c, hf, hb, ho, hc, htable⟩ := Module.exists_call_of_mem_allSites hsite
  rw [hcaller] at hf
  cases hf
  rw [s.blocks_eq, ← hblock, List.getElem?_append_right (Nat.le_refl _), Nat.sub_self] at hb
  cases hb
  rw [s.ops_eq, ← hop, List.getElem?_append_right (Nat.le_refl _), Nat.sub_self] at ho
  cases ho
  rw [s.callee?_call] at hc
  cases hc
  obtain ⟨f, hf, hsymbol⟩ := Module.exists_of_symbolTable_get? htable
  rw [hcallee] at hf
  cases hf
  exact (Module.function?_eq_some_iff hm).2 ⟨List.mem_of_getElem? hcallee, hsymbol⟩

theorem hasBody_result (h : caller.hasBody = true) : s.result.hasBody = true := by
  have hext : caller.isExternal = false := Function.isExternal_of_hasBody h
  have hext' : s.result.isExternal = false := hext
  have hids : s.result.ids ≠ [] := by
    rw [ids_result]
    simp [blocks]
  rw [Function.hasBody, hext']
  simpa [Function.ids] using hids

theorem links_inlineSite {m' : Module} (h : inlineSite m site = .ok m') (hm : m.Framed)
    (hsite : site ∈ (CallGraph.build m).allSites)
    (hcaller : m.functions[site.caller]? = some caller)
    (hcallee : m.functions[site.callee]? = some callee) (hblock : s.before.length = site.block)
    (hop : s.head.length = site.op)
    (hm' : m' = { m with functions := m.functions.set site.caller s.result }) :
    Links s m m' := by
  obtain ⟨hext, hext'⟩ :=
    s.isExternal_eq_false hm (List.mem_of_getElem? hcaller) (List.mem_of_getElem? hcallee)
  have hbody : caller.hasBody = true := by simp [Function.hasBody, hext, s.blocks_eq]
  have hsymbols : m'.symbols.Nodup := symbols_inlineSite h ▸ hm.symbols_nodup
  have htarget := s.function?_symbol hm.symbols_nodup hsite hcaller hcallee hblock hop
  refine ⟨fun c f hf => ?_, htarget, ?_⟩
  · obtain ⟨hmem, hsymbol⟩ := (Module.function?_eq_some_iff hm.symbols_nodup).1 hf
    rw [Module.function?_eq_some_iff hsymbols, hm']
    by_cases hcase : f = caller
    · subst hcase
      rw [image, if_pos rfl, s.hasBody_result hbody, hbody]
      have hlt := (List.getElem?_eq_some_iff.1 hcaller).1
      exact ⟨⟨List.mem_set hlt _, hsymbol⟩, rfl⟩
    · -- The other functions keep their places.
      rw [image, if_neg hcase]
      obtain ⟨i, hi⟩ := List.mem_iff_getElem?.1 hmem
      have hne : site.caller ≠ i := by
        intro heq
        rw [← heq, hcaller] at hi
        exact hcase (Option.some.inj hi).symm
      refine ⟨⟨List.mem_iff_getElem?.2 ⟨i, ?_⟩, hsymbol⟩, rfl⟩
      rwa [List.getElem?_set_ne hne]
  · simp [Function.hasBody, hext', s.callee_eq]

end Splicing

/-- As long as the run before inlining does not get stuck, the run after goes on just as long, and
both return the same value in the same world. -/
theorem outcome_run_inlineSite (I : Interpretation V W) {m m' : Module} {site : CallSite}
    {caller : Function} (hm : m.verify = .ok ()) (hsite : site ∈ (CallGraph.build m).allSites)
    (hcaller : m.functions[site.caller]? = some caller) (hphis : caller.PhisLead)
    (hstrict : caller.StrictSsa) (h : inlineSite m site = .ok m') (symbol : String) (args : List V)
    (world : W) (n : Nat) (hrun : m.run I symbol args world n ≠ .stuck) :
    (m'.run I symbol args world n).outcome = (m.run I symbol args world n).outcome := by
  obtain ⟨hframed, hscoped⟩ := m.verify_eq_ok_iff.1 hm
  obtain ⟨caller', callee, hcaller', hcallee, s, hblock, hop, hm'⟩ := inlineSite_cases h
  rw [hcaller] at hcaller'
  cases hcaller'
  have hmem := List.mem_of_getElem? hcaller
  have hmem' := List.mem_of_getElem? hcallee
  obtain ⟨hext, hext'⟩ := s.isExternal_eq_false hframed hmem hmem'
  have hs : Inlinable m.symbols caller callee :=
    { callerFramed := hframed.bodies caller hmem hext
      calleeFramed := hframed.bodies callee hmem' hext'
      reads := hscoped caller hmem
      strict := hstrict
      callerPhis := hphis }
  have hl := s.links_inlineSite h hframed hsite hcaller hcallee hblock hop hm'
  exact (Splicing.simulates_run hs hl symbol args world n hrun).outcome_eq

/-- Inlining a call keeps the meaning of a module, whatever function is called from outside. It
fails only where the ids run out. -/
theorem inlineSite_preserves_outcome (I : Interpretation V W) {m : Module} {site : CallSite}
    {caller callee : Function} {call : Op} (hm : m.verify = .ok ())
    (hsite : site ∈ (CallGraph.build m).allSites)
    (hcaller : m.functions[site.caller]? = some caller)
    (hcallee : m.functions[site.callee]? = some callee)
    (hcall : caller.op? site.block site.op = some call)
    (hlegal : refusal? (CallGraph.build m) site call callee = none)
    (hphis : caller.PhisLead) (hstrict : caller.StrictSsa) :
    (¬HasRoom caller callee → inlineSite m site = .error .overflow) ∧
    (HasRoom caller callee → ∃ m', inlineSite m site = .ok m' ∧
      ∀ symbol args world n, m.run I symbol args world n ≠ .stuck →
        (m'.run I symbol args world n).outcome = (m.run I symbol args world n).outcome) := by
  obtain ⟨hfull, hroom⟩ := inlineSite_of_refusal?_eq_none hm hcaller hcallee hcall hlegal
  refine ⟨hfull, fun h => ?_⟩
  obtain ⟨m', hm'⟩ := hroom h
  exact ⟨m', hm', outcome_run_inlineSite I hm hsite hcaller hphis hstrict hm'⟩

/-- Counts up to its parameter in a loop, and puts every number through `identity`. -/
def counter : Function where
  symbol := "main"
  params := [(⟨0⟩, .int 32)]
  ret := .int 32
  blocks := [
    { id := ⟨0⟩, ops := [.void (.br ⟨1⟩)] },
    { id := ⟨1⟩, ops := [
      ⟨some ⟨1⟩, .int 32, .phi [(.const 0, ⟨0⟩), (.value ⟨3⟩, ⟨1⟩)]⟩,
      ⟨some ⟨2⟩, .int 32, .call "identity" [.value ⟨1⟩] false⟩,
      ⟨some ⟨3⟩, .int 32, .binary .add (.value ⟨2⟩) (.const 1)⟩,
      ⟨some ⟨4⟩, .int 1, .cmp .slt (.value ⟨3⟩) (.value ⟨0⟩)⟩,
      .void (.condBr (.value ⟨4⟩) ⟨1⟩ ⟨2⟩)] },
    { id := ⟨2⟩, ops := [.void (.ret (some (.value ⟨2⟩)))] }]

def looping : Module where
  name := "looping"
  functions := [identity, counter]

/-- Integers that are added and compared, in a world that counts the operations. -/
def integers : Interpretation Int Nat where
  const n := n.toInt
  global _ := 0
  func _ := 0
  undef := 0
  truth x := x != 0
  perform kind _ xs world :=
    match kind, xs with
    | .binary .add _ _, [x, y] => some (x + y, world + 1)
    | .cmp .slt _ _, [x, y] => some (if x < y then 1 else 0, world + 1)
    | _, _ => none

theorem strictSsa_counter : counter.StrictSsa := by
  apply Function.strictSsa_of_ready fun id => if id = ⟨2⟩ then [⟨2⟩] else []
  · decide
  · decide

theorem inlineSite_preserves_outcome_looping :
    ∃ m', inlineSite looping ⟨1, 1, 1, 0⟩ = .ok m' ∧
      (m'.run integers "main" [2] 0 12).outcome = .returned 1 4 := by
  have hm : looping.verify = .ok () := by decide +kernel
  have hsite : ⟨1, 1, 1, 0⟩ ∈ (CallGraph.build looping).allSites := by decide +kernel
  have hlegal : refusal? (CallGraph.build looping) ⟨1, 1, 1, 0⟩
      ⟨some ⟨2⟩, .int 32, .call "identity" [.value ⟨1⟩] false⟩ identity = none := by decide +kernel
  have hroom : HasRoom counter identity := by decide
  obtain ⟨m', hm', hrun⟩ := (inlineSite_preserves_outcome integers hm hsite rfl rfl rfl hlegal
    (by decide) strictSsa_counter).2 hroom
  refine ⟨m', hm', ?_⟩
  rw [hrun]
  · rfl
  · intro hstuck
    cases hstuck

end Inline

end PassEngine
