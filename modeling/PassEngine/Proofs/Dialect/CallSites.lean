import Mathlib.Algebra.Order.BigOperators.Group.List
import Mathlib.Algebra.Order.Ring.Nat
import Mathlib.Data.Prod.Lex
import PassEngine.Dialect.CallGraph
import PassEngine.Dialect.Verify
import PassEngine.Proofs.NameTable

namespace PassEngine.Dialect

theorem pairwise_snd_zipIdx {α : Type} (xs : List α) : xs.zipIdx.Pairwise (·.2 < ·.2) := by
  have h : (xs.zipIdx.map Prod.snd).Pairwise (· < ·) := by
    rw [List.zipIdx_map_snd]
    exact List.pairwise_lt_range' 1
  exact List.pairwise_map.1 h

theorem Function.op?_eq_some_iff {f : Function} {i j : Nat} {o : Op} :
    f.op? i j = some o ↔ ∃ b, f.blocks[i]? = some b ∧ b.ops[j]? = some o :=
  Option.bind_eq_some_iff

theorem Function.mem_ops_of_op? {f : Function} {i j : Nat} {o : Op} (h : f.op? i j = some o) :
    o ∈ f.ops := by
  obtain ⟨b, hb, ho⟩ := op?_eq_some_iff.1 h
  exact List.mem_flatMap.2 ⟨b, List.mem_of_getElem? hb, List.mem_of_getElem? ho⟩

theorem Function.exists_op?_of_mem_ops {f : Function} {o : Op} (h : o ∈ f.ops) :
    ∃ i j, f.op? i j = some o := by
  obtain ⟨b, hb, ho⟩ := List.mem_flatMap.1 h
  obtain ⟨i, hi⟩ := List.mem_iff_getElem?.1 hb
  obtain ⟨j, hj⟩ := List.mem_iff_getElem?.1 ho
  exact ⟨i, j, op?_eq_some_iff.2 ⟨b, hi, hj⟩⟩

/-- Where a call is in its function: block by block, and within a block one operation after the
other. -/
def CallSite.position (site : CallSite) : Nat ×ₗ Nat := toLex (site.block, site.op)

namespace CallGraph

def blockSites (table : NameTable Nat) (caller block : Nat) (ops : List Op) : List CallSite :=
  ops.zipIdx.filterMap fun (o, op) => do
    let callee ← table.get? (← o.callee?)
    return { caller, block, op, callee }

def functionSites (table : NameTable Nat) (caller : Nat) (f : Function) : List CallSite :=
  f.blocks.zipIdx.flatMap fun (b, block) => blockSites table caller block b.ops

variable {table : NameTable Nat} {caller : Nat} {f : Function} {site : CallSite}

theorem mem_blockSites_iff {block : Nat} {ops : List Op} :
    site ∈ blockSites table caller block ops ↔ site.caller = caller ∧ site.block = block ∧
      ∃ o c, ops[site.op]? = some o ∧ o.callee? = some c ∧ table.get? c = some site.callee := by
  obtain ⟨caller', block', op, callee⟩ := site
  simp only [blockSites, List.mem_filterMap, Prod.exists, List.mem_zipIdx_iff_getElem?,
    Option.bind_eq_bind, Option.bind_eq_some_iff, Option.pure_def, Option.some.injEq,
    CallSite.mk.injEq]
  constructor
  · rintro ⟨o, i, ho, c, hc, k, hk, rfl, rfl, rfl, rfl⟩
    exact ⟨rfl, rfl, o, c, ho, hc, hk⟩
  · rintro ⟨rfl, rfl, o, c, ho, hc, hk⟩
    exact ⟨o, op, ho, c, hc, callee, hk, rfl, rfl, rfl, rfl⟩

/-- The sites of a function are where it calls a function that the table has. -/
theorem mem_functionSites_iff : site ∈ functionSites table caller f ↔ site.caller = caller ∧
    ∃ o c, f.op? site.block site.op = some o ∧ o.callee? = some c ∧
      table.get? c = some site.callee := by
  simp only [functionSites, List.mem_flatMap, Prod.exists, List.mem_zipIdx_iff_getElem?,
    mem_blockSites_iff, Function.op?_eq_some_iff]
  constructor
  · rintro ⟨b, i, hb, hcaller, rfl, o, c, ho, hc, hk⟩
    exact ⟨hcaller, o, c, ⟨b, hb, ho⟩, hc, hk⟩
  · rintro ⟨hcaller, o, c, ⟨b, hb, ho⟩, hc, hk⟩
    exact ⟨b, site.block, hb, hcaller, rfl, o, c, ho, hc, hk⟩

theorem pairwise_blockSites (block : Nat) (ops : List Op) :
    (blockSites table caller block ops).Pairwise (·.position < ·.position) := by
  refine List.pairwise_filterMap.2 ((pairwise_snd_zipIdx ops).imp ?_)
  rintro ⟨o, i⟩ ⟨o', i'⟩ hlt s hs t ht
  obtain ⟨c, -, hs⟩ := Option.bind_eq_some_iff.1 hs
  obtain ⟨k, -, hs⟩ := Option.bind_eq_some_iff.1 hs
  obtain ⟨c', -, ht⟩ := Option.bind_eq_some_iff.1 ht
  obtain ⟨k', -, ht⟩ := Option.bind_eq_some_iff.1 ht
  cases hs
  cases ht
  exact Prod.Lex.toLex_lt_toLex.2 (.inr ⟨rfl, hlt⟩)

theorem pairwise_functionSites : (functionSites table caller f).Pairwise
    (·.position < ·.position) := by
  refine List.pairwise_flatMap.2 ⟨fun p _ => pairwise_blockSites p.2 p.1.ops, ?_⟩
  refine (pairwise_snd_zipIdx f.blocks).imp ?_
  rintro ⟨b, i⟩ ⟨b', i'⟩ hlt s hs t ht
  obtain ⟨-, rfl, -⟩ := mem_blockSites_iff.1 hs
  obtain ⟨-, rfl, -⟩ := mem_blockSites_iff.1 ht
  exact Prod.Lex.toLex_lt_toLex.2 (.inl hlt)

theorem length_blockSites_le (block : Nat) (ops : List Op) :
    (blockSites table caller block ops).length ≤ ops.countP (·.callee?.isSome) := by
  have hops : ops.countP (·.callee?.isSome) = ops.zipIdx.countP (·.1.callee?.isSome) := by
    conv_lhs => rw [← List.zipIdx_map_fst 0 ops, List.countP_map]
    rfl
  rw [blockSites, List.length_filterMap_eq_countP, hops]
  apply List.countP_mono_left
  rintro ⟨o, i⟩ - h
  obtain ⟨s, hs⟩ := Option.isSome_iff_exists.1 h
  obtain ⟨c, hc, -⟩ := Option.bind_eq_some_iff.1 hs
  simp [hc]

theorem length_functionSites_le :
    (functionSites table caller f).length ≤ f.ops.countP (·.callee?.isSome) := by
  have hblocks : f.ops.countP (·.callee?.isSome) =
      (f.blocks.zipIdx.map fun p => p.1.ops.countP (·.callee?.isSome)).sum := by
    rw [Function.ops, List.countP_flatMap]
    conv_lhs => rw [← List.zipIdx_map_fst 0 f.blocks, List.map_map]
    rfl
  rw [functionSites, List.length_flatMap, hblocks]
  exact List.sum_le_sum fun p _ => length_blockSites_le p.2 p.1.ops

section Building

variable (table : NameTable Nat) (g : CallGraph)

theorem noteBlock_eq_foldl (caller : Nat) (b : Block × Nat) :
    noteBlock table caller g b = (blockSites table caller b.2 b.1.ops).foldl note g := by
  rw [noteBlock, blockSites, List.foldl_filterMap]
  congr 1
  funext g o
  rw [noteOp]
  cases hc : o.1.callee? with
  | none => simp [hc]
  | some c => cases hcallee : table.get? c <;> simp [hc, hcallee]

theorem noteFunction_eq_foldl (f : Function × Nat) :
    noteFunction table g f = (functionSites table f.2 f.1).foldl note g := by
  rw [noteFunction, functionSites, List.foldl_flatMap]
  congr 1
  funext g b
  exact noteBlock_eq_foldl table g f.2 b

/-- Calls of one function come after those that were noted for it. -/
theorem sites_foldl_note {sites : List CallSite} (h : ∀ s ∈ sites, s.caller = caller) :
    (sites.foldl note g).sites = g.sites.modify caller (· ++ sites) := by
  induction sites generalizing g with
  | nil =>
    have hid : (· ++ ([] : List CallSite)) = id := funext List.append_nil
    rw [List.foldl_nil, hid, List.modify_id]
  | cons site sites ih =>
    obtain rfl := h site List.mem_cons_self
    rw [List.foldl_cons, ih _ fun s hs => h s (List.mem_cons_of_mem _ hs), note]
    simp [List.modify_modify_eq, Function.comp_def]

/-- Going through functions in turn fills the rows that are left for them. -/
theorem sites_foldl_noteFunction (fs : List Function) (done : List (List CallSite))
    (h : g.sites = done ++ List.replicate fs.length []) :
    ((fs.zipIdx done.length).foldl (noteFunction table) g).sites =
      done ++ (fs.zipIdx done.length).map fun f => functionSites table f.2 f.1 := by
  -- Between two functions the rows of those before are full and the others empty.
  induction fs generalizing done g with
  | nil => simpa using h
  | cons f fs ih =>
    have hcaller : ∀ s ∈ functionSites table done.length f, s.caller = done.length :=
      fun s hs => (mem_functionSites_iff.1 hs).1
    have hnext : (noteFunction table g (f, done.length)).sites =
        (done ++ [functionSites table done.length f]) ++ List.replicate fs.length [] := by
      rw [noteFunction_eq_foldl, sites_foldl_note g hcaller, h, List.modify_eq_take_drop]
      simp [List.replicate_succ]
    have hrest := ih _ (done ++ [functionSites table done.length f]) hnext
    rw [List.length_append, List.length_singleton] at hrest
    rw [List.zipIdx_cons, List.foldl_cons, hrest, List.map_cons, List.append_assoc]
    rfl

end Building

theorem sites_build (m : Module) : (build m).sites =
    m.functions.zipIdx.map fun f => functionSites m.symbolTable f.2 f.1 :=
  sites_foldl_noteFunction m.symbolTable (empty m.functions.length) m.functions [] rfl

theorem sitesIn_build {m : Module} (h : m.functions[caller]? = some f) :
    (build m).sitesIn caller = functionSites m.symbolTable caller f := by
  simp [sitesIn, sites_build, List.getElem?_map, List.getElem?_zipIdx, h]

end CallGraph

namespace Module

variable {m : Module}

theorem exists_of_symbolTable_get? {c : String} {i : Nat} (h : m.symbolTable.get? c = some i) :
    ∃ f, m.functions[i]? = some f ∧ f.symbol = c := by
  obtain ⟨⟨f, j⟩, hmem, heq⟩ := List.mem_map.1 (NameTable.mem_of_get?_ofList h)
  obtain ⟨rfl, rfl⟩ := Prod.mk.inj heq
  exact ⟨f, List.mem_zipIdx_iff_getElem?.1 hmem, rfl⟩

theorem lt_length_of_symbolTable_get? {c : String} {i : Nat} (h : m.symbolTable.get? c = some i) :
    i < m.functions.length := by
  obtain ⟨f, hf, -⟩ := exists_of_symbolTable_get? h
  exact (List.getElem?_eq_some_iff.1 hf).1

/-- A site of the call graph is at a call, and names the function that the call names. -/
theorem exists_call_of_mem_allSites {site : CallSite} (h : site ∈ (CallGraph.build m).allSites) :
    ∃ f b o c, m.functions[site.caller]? = some f ∧ f.blocks[site.block]? = some b ∧
      b.ops[site.op]? = some o ∧ o.callee? = some c ∧ m.symbolTable.get? c = some site.callee := by
  obtain ⟨sites, hsites, hsite⟩ := List.mem_flatten.1 h
  rw [CallGraph.sites_build] at hsites
  obtain ⟨⟨f, i⟩, hf, rfl⟩ := List.mem_map.1 hsites
  obtain ⟨rfl, o, c, ho, hc, hcallee⟩ := CallGraph.mem_functionSites_iff.1 hsite
  obtain ⟨b, hb, ho⟩ := Function.op?_eq_some_iff.1 ho
  exact ⟨f, b, o, c, List.mem_zipIdx_iff_getElem?.1 hf, hb, ho, hc, hcallee⟩

theorem symbolTable_eq : m.symbolTable = .ofList m.symbols.zipIdx := by
  rw [symbols, List.zipIdx_map]
  rfl

theorem symbolTable_congr {m' : Module} (h : m'.symbols = m.symbols) :
    m'.symbolTable = m.symbolTable := by
  rw [symbolTable_eq, symbolTable_eq, h]

end Module

end PassEngine.Dialect
