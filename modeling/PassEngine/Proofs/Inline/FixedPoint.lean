import PassEngine.Proofs.Inline.Termination

namespace PassEngine

namespace Dialect.Module

def blockCount (m : Module) : Nat := (m.functions.map (·.blocks.length)).sum

end Dialect.Module

namespace Inline

open Dialect

variable {config : InlineConfig} {m m' : Module} {site : CallSite}

/-- The copied blocks come to those of the caller, and one of these is split. -/
theorem Splicing.length_blocks_result {caller callee : Function} (s : Splicing caller callee) :
    s.result.blocks.length = caller.blocks.length + callee.blocks.length + 1 := by
  have hcode : ∀ f : Function, f.blocks.length = f.code.length := fun f => by simp [Function.code]
  rw [hcode s.result, s.code_result, List.length_map, s.blocks_eq]
  simp only [blocks, copies, List.length_append, List.length_cons, List.length_map]
  omega

theorem blockCount_inlineSite (h : inlineSite m site = .ok m') :
    m.blockCount + 1 ≤ m'.blockCount := by
  obtain ⟨caller, callee, hcaller, -, s, -, -, rfl⟩ := inlineSite_cases h
  have hsum : Module.blockCount { m with functions := m.functions.set site.caller s.result } +
      caller.blocks.length = m.blockCount + s.result.blocks.length := sum_map_set hcaller
  have hlength := s.length_blocks_result
  omega

theorem blockCount_foldlM {sites : List CallSite} (h : sites.foldlM inlineSite m = .ok m') :
    m.blockCount + sites.length ≤ m'.blockCount := by
  induction sites generalizing m with
  | nil =>
    cases h
    exact Nat.le_refl _
  | cons site sites ih =>
    rw [List.foldlM_cons] at h
    obtain ⟨m₁, hm₁, h⟩ := bind_eq_ok_iff.1 h
    have hsite := blockCount_inlineSite hm₁
    have hrest := ih h
    rw [List.length_cons]
    omega

theorem blockCount_round {count : Nat} (h : round config m = .ok (m', count)) :
    m.blockCount + count ≤ m'.blockCount := by
  rw [round_eq_roundUpTo] at h
  refine roundUpTo_induction (P := fun _ m' count => m.blockCount + count ≤ m'.blockCount) ?_ h
    (Nat.le_refl _)
  intro i m₁ count m₂ more _ _ hcaller hle
  obtain ⟨m₃, hfold, hpair⟩ := bind_eq_ok_iff.1 hcaller
  cases hpair
  have hmore := blockCount_foldlM hfold
  rw [List.length_reverse] at hmore
  omega

theorem blockCount_rounds {n count : Nat} (h : rounds config n m = .ok (m', count)) :
    m.blockCount + count ≤ m'.blockCount := by
  induction n generalizing m count with
  | zero =>
    cases h
    exact Nat.le_refl _
  | succ n ih =>
    rcases rounds_succ_cases h with ⟨hround, rfl⟩ | ⟨m₁, first, more, hround, -, hrounds, rfl⟩
    · exact blockCount_round hround
    · have hfirst := blockCount_round hround
      have hrest := ih hrounds
      omega

theorem inlineCaller_idle {graph : CallGraph} {c : Nat}
    (h : inlineCaller config graph m c = .ok (m', 0)) : m' = m ∧ select config m graph c = [] := by
  obtain ⟨m₁, hfold, hpair⟩ := bind_eq_ok_iff.1 h
  obtain ⟨rfl, hlength⟩ := Prod.mk.inj (Except.ok.inj hpair)
  have hnil := List.eq_nil_of_length_eq_zero hlength
  rw [hnil] at hfold
  cases hfold
  exact ⟨rfl, hnil⟩

theorem round_idle (h : round config m = .ok (m', 0)) :
    m' = m ∧ ∀ c < m.functions.length, select config m (.build m) c = [] := by
  rw [round_eq_roundUpTo] at h
  -- As long as nothing has been inlined, each choice is made on the module itself.
  refine roundUpTo_induction (P := fun i m' count => count = 0 →
    m' = m ∧ ∀ c < i, select config m (.build m) c = []) ?_ h (by simp) rfl
  intro i m₁ count m₂ more _ _ hcaller hidle hzero
  obtain ⟨rfl, rfl⟩ := Nat.add_eq_zero_iff.1 hzero
  obtain ⟨rfl, hbefore⟩ := hidle rfl
  obtain ⟨rfl, hnil⟩ := inlineCaller_idle hcaller
  refine ⟨rfl, fun c hc => ?_⟩
  rcases Nat.lt_succ_iff_lt_or_eq.1 hc with hc | rfl
  · exact hbefore c hc
  · exact hnil

theorem rounds_idle {n : Nat} (h : rounds config n m = .ok (m', 0)) : m' = m := by
  cases n with
  | zero =>
    cases h
    rfl
  | succ n =>
    rcases rounds_succ_cases h with ⟨hround, -⟩ | ⟨m₁, first, more, -, hfirst, -, htotal⟩
    · exact (round_idle hround).1
    · omega

/-- When nothing is chosen, nothing has used up room, so each candidate is too large by itself. -/
theorem lt_of_choose_eq_nil {graph : CallGraph} {caller callee : Function} {size : Nat}
    {sites : List CallSite} {call : Op} (h : choose config m graph caller size sites = [])
    (hsite : site ∈ sites) (hcallee : m.functions[site.callee]? = some callee)
    (hcall : caller.op? site.block site.op = some call)
    (hcandidate : isCandidate config graph site call callee = true) :
    config.maxCallerSize < size + callee.size := by
  fun_induction choose with
  | case1 => cases hsite
  | case2 => cases h
  | case3 size t rest callee' call' hcall' hcallee' grown hfit ih =>
    rcases List.mem_cons.1 hsite with rfl | hsite
    · rw [hcallee] at hcallee'
      cases hcallee'
      rw [hcall] at hcall'
      cases hcall'
      exact Nat.lt_of_not_le fun hle => hfit ⟨hcandidate, hle⟩
    · exact ih h hsite
  | case4 size t rest hnone ih =>
    rcases List.mem_cons.1 hsite with rfl | hsite
    · exact absurd hcall (hnone callee call hcallee)
    · exact ih h hsite

/-- Going by the module's own graph, every call of one of its functions must not be inlined, does
not pay, or makes its caller too large. -/
def Exhausted (config : InlineConfig) (m : Module) : Prop :=
  ∀ (site : CallSite) (caller : Function) (call : Op) (symbol : String),
    m.functions[site.caller]? = some caller → caller.op? site.block site.op = some call →
    call.callee? = some symbol → m.symbolTable.get? symbol = some site.callee →
    ∃ callee, m.functions[site.callee]? = some callee ∧
      ((refusal? (.build m) site call callee).isSome = true ∨
        isBeneficial config (.build m) site callee = false ∨
        config.maxCallerSize < caller.size + callee.size)

theorem exhausted_of_round_idle (h : round config m = .ok (m', 0)) : Exhausted config m := by
  intro site caller call symbol hcaller hcall hsymbol htable
  obtain ⟨callee, hcallee, -⟩ := Module.exists_of_symbolTable_get? htable
  have hnil := (round_idle h).2 site.caller (List.getElem?_eq_some_iff.1 hcaller).1
  simp only [select, hcaller] at hnil
  have hsite : site ∈ (CallGraph.build m).sitesIn site.caller := by
    rw [CallGraph.sitesIn_build hcaller, CallGraph.mem_functionSites_iff]
    exact ⟨rfl, call, symbol, hcall, hsymbol, htable⟩
  refine ⟨callee, hcallee, ?_⟩
  by_cases hcandidate : isCandidate config (.build m) site call callee = true
  · exact .inr (.inr (lt_of_choose_eq_nil hnil hsite hcallee hcall hcandidate))
  · rw [isCandidate, Bool.and_eq_true, not_and_or] at hcandidate
    rcases hcandidate with hrefused | huseless
    · exact .inl (by simpa [Option.isSome_iff_ne_none] using hrefused)
    · exact .inr (.inl (Bool.eq_false_iff.2 huseless))

/-- The rounds of a run, each with the module that it leaves and the number of calls that it
inlines. -/
def history (config : InlineConfig) : (n : Nat) → Module → Except SpliceError (List (Module × Nat))
  | 0, _ => return []
  | n + 1, m => do
    let (m, count) ← round config m
    if count = 0 then return [(m, 0)]
    let rest ← history config n m
    return (m, count) :: rest

/-- A run ends with the module of its last round, and counts the calls of all of them. -/
theorem rounds_eq_history (config : InlineConfig) (n : Nat) (m : Module) :
    rounds config n m = (history config n m).map fun rs =>
      ((rs.getLast?.map Prod.fst).getD m, (rs.map Prod.snd).sum) := by
  induction n generalizing m with
  | zero => rfl
  | succ n ih =>
    rw [rounds, history]
    cases round config m with
    | error e => rfl
    | ok next =>
      obtain ⟨m₁, count⟩ := next
      simp only [ok_bind]
      split
      · rfl
      · rw [ih m₁]
        cases history config n m₁ with
        | error e => rfl
        | ok rs => cases h : rs.getLast? <;> simp [Except.map, List.getLast?_cons, h]

theorem history_succ_cases {n : Nat} {rs : List (Module × Nat)}
    (h : history config (n + 1) m = .ok rs) :
    (∃ m₁, round config m = .ok (m₁, 0) ∧ rs = [(m₁, 0)]) ∨
    ∃ m₁ count rest, round config m = .ok (m₁, count) ∧ 0 < count ∧
      history config n m₁ = .ok rest ∧ rs = (m₁, count) :: rest := by
  obtain ⟨⟨m₁, count⟩, hround, h⟩ := bind_eq_ok_iff.1 h
  dsimp only at h
  by_cases hcount : count = 0
  · rw [if_pos hcount] at h
    cases h
    exact .inl ⟨m₁, hcount ▸ hround, rfl⟩
  · rw [if_neg hcount] at h
    obtain ⟨rest, hrest, hcons⟩ := bind_eq_ok_iff.1 h
    cases hcons
    exact .inr ⟨m₁, count, rest, hround, Nat.pos_of_ne_zero hcount, hrest, rfl⟩

/-- A run that has fewer rounds than it may have ends with one that inlines nothing. -/
theorem exists_idle_of_history {n : Nat} {rs : List (Module × Nat)}
    (h : history config n m = .ok rs) (hlength : rs.length < n) :
    ∃ last, rs.getLast? = some (last, 0) := by
  induction n generalizing m rs with
  | zero => cases hlength
  | succ n ih =>
    rcases history_succ_cases h with ⟨m₁, -, rfl⟩ | ⟨m₁, count, rest, -, -, hrest, rfl⟩
    · exact ⟨m₁, rfl⟩
    · obtain ⟨last, hlast⟩ := ih hrest (Nat.lt_of_succ_lt_succ hlength)
      exact ⟨last, by rw [List.getLast?_cons, hlast, Option.getD_some]⟩

/-- The last round of a run, if it inlines nothing, leaves the module on which it finds nothing. -/
theorem round_of_history {n : Nat} {rs : List (Module × Nat)} {last : Module}
    (h : history config n m = .ok rs) (hlast : rs.getLast? = some (last, 0)) :
    round config last = .ok (last, 0) := by
  induction n generalizing m rs with
  | zero =>
    cases h
    cases hlast
  | succ n ih =>
    rcases history_succ_cases h with ⟨m₁, hround, rfl⟩ | ⟨m₁, count, rest, -, hcount, hrest, rfl⟩
    · cases hlast
      obtain ⟨rfl, -⟩ := round_idle hround
      exact hround
    · refine ih hrest ?_
      rw [List.getLast?_cons] at hlast
      cases hend : rest.getLast? with
      | none =>
        -- This round would be the last one, but it has inlined something.
        rw [hend] at hlast
        cases hlast
        cases hcount
      | some r => rwa [hend, Option.getD_some] at hlast

theorem rounds_of_round_idle (n : Nat) (h : round config m = .ok (m, 0)) :
    rounds config n m = .ok (m, 0) := by
  cases n with
  | zero => rfl
  | succ n =>
    rw [rounds, h]
    rfl

theorem SpliceError.report_ne (e : SpliceError) : e.report ≠ .noChange ∧ e.report ≠ .changed := by
  cases e <;> simp [report]

theorem rounds_of_optimize_noChange (h : (optimize config m).1 = .noChange) :
    rounds config config.maxIterations m = .ok ((optimize config m).2, 0) := by
  rw [optimize] at h ⊢
  split at h
  · next after count hrounds =>
    obtain rfl : count = 0 := by
      by_contra hcount
      simp [Nat.pos_of_ne_zero hcount] at h
    exact hrounds
  · next e _ => exact absurd h e.report_ne.1

theorem exists_rounds_of_optimize_changed (h : (optimize config m).1 = .changed) :
    ∃ count, 0 < count ∧
      rounds config config.maxIterations m = .ok ((optimize config m).2, count) := by
  rw [optimize] at h ⊢
  split at h
  · next after count hrounds =>
    refine ⟨count, ?_, hrounds⟩
    by_contra hcount
    simp [hcount] at h
  · next e _ => exact absurd h e.report_ne.2

/-- The inliner says that it has changed nothing only where that is so, and where it says that it has
changed the module, there are more blocks. It stops before the last round allowed only when a round
inlines nothing. Then no call is left that it would inline, and another run changes nothing. -/
theorem optimize_honest_and_exhausted (config : InlineConfig) (m : Module) :
    ((optimize config m).1 = .noChange → (optimize config m).2 = m) ∧
    ((optimize config m).1 = .changed → m.blockCount < (optimize config m).2.blockCount) ∧
    ∀ rs, history config config.maxIterations m = .ok rs →
      (rs.length < config.maxIterations → ∃ last, rs.getLast? = some (last, 0)) ∧
      ∀ last, rs.getLast? = some (last, 0) →
        (optimize config m).2 = last ∧ Exhausted config last ∧
        optimize config last = (.noChange, last) := by
  refine ⟨?_, ?_, fun rs hrs => ⟨exists_idle_of_history hrs, fun last hlast => ?_⟩⟩
  · intro hreport
    exact rounds_idle (rounds_of_optimize_noChange hreport)
  · intro hreport
    obtain ⟨count, hcount, hrounds⟩ := exists_rounds_of_optimize_changed hreport
    have hblocks := blockCount_rounds hrounds
    omega
  · have hidle := round_of_history hrs hlast
    refine ⟨?_, exhausted_of_round_idle hidle, ?_⟩
    · simp [optimize, rounds_eq_history, hrs, Except.map, hlast]
    · simp [optimize, rounds_of_round_idle _ hidle]

/-- The rounds stop by themselves after the third, or where they must. -/
example : [8, 2].map (fun n => (history {} n layered).toOption.map (·.map Prod.snd)) =
    [some [2, 1, 0], some [2, 1]] := by
  decide +kernel

end Inline

end PassEngine
