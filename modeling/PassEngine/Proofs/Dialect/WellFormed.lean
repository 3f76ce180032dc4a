import Mathlib.Data.List.Nodup
import Mathlib.Data.List.Pairwise
import PassEngine.Dialect.Verify

namespace PassEngine.Dialect

theorem firstRepeat?_go_eq_none_iff {α : Type} [DecidableEq α] (seen xs : List α) :
    firstRepeat?.go seen xs = none ↔ xs.Nodup ∧ ∀ x ∈ xs, x ∉ seen := by
  induction xs generalizing seen with
  | nil => simp [firstRepeat?.go]
  | cons x xs ih =>
    rw [firstRepeat?.go]
    split
    · next hx => simp [hx]
    · next hx =>
      rw [ih, List.nodup_cons]
      grind

theorem firstRepeat?_eq_none_iff {α : Type} [DecidableEq α] (xs : List α) :
    firstRepeat? xs = none ↔ xs.Nodup := by
  simp [firstRepeat?, firstRepeat?_go_eq_none_iff]

theorem filterMap_sublist {α β : Type} {f g : α → Option β} {xs : List α}
    (h : ∀ x ∈ xs, f x = none ∨ f x = g x) : (xs.filterMap f).Sublist (xs.filterMap g) := by
  induction xs with
  | nil => simp
  | cons x xs ih =>
    have ih := ih fun y hy => h y (List.mem_cons_of_mem _ hy)
    rcases h x (by simp) with hx | hx
    · rw [List.filterMap_cons_none hx, List.filterMap_cons]
      split
      · exact ih
      · exact ih.cons _
    · rw [List.filterMap_cons, List.filterMap_cons, hx]
      split
      · exact ih
      · exact ih.cons_cons _

/-- There is one terminator, and it is the last operation. -/
def IsClosed (ops : List Op) : Prop :=
  ∃ body last, ops = body ++ [last] ∧ last.isTerminator = true ∧
    ∀ o ∈ body, o.isTerminator = false

namespace IsClosed

variable {ops : List Op}

theorem map {g : Op → Op} (hg : ∀ o, (g o).isTerminator = o.isTerminator) (h : IsClosed ops) :
    IsClosed (ops.map g) := by
  obtain ⟨body, last, rfl, hlast, hbody⟩ := h
  refine ⟨body.map g, g last, by simp, by rw [hg, hlast], fun o ho => ?_⟩
  obtain ⟨o', ho', rfl⟩ := List.mem_map.1 ho
  rw [hg, hbody o' ho']

theorem cons {o : Op} (ho : o.isTerminator = false) (h : IsClosed ops) : IsClosed (o :: ops) := by
  obtain ⟨body, last, rfl, hlast, hbody⟩ := h
  refine ⟨o :: body, last, by simp, hlast, ?_⟩
  simpa [ho] using hbody

theorem split {head tail : List Op} {o : Op} (ho : o.isTerminator = false)
    (h : IsClosed (head ++ o :: tail)) : (∀ o ∈ head, o.isTerminator = false) ∧ IsClosed tail := by
  obtain ⟨body, last, heq, hlast, hbody⟩ := h
  rcases List.eq_nil_or_concat' tail with rfl | ⟨tail, last', rfl⟩
  · have := (List.append_inj' heq rfl).2
    simp only [List.cons.injEq, and_true] at this
    rw [this, hlast] at ho
    cases ho
  · have hsplit : (head ++ o :: tail) ++ [last'] = body ++ [last] := by simpa using heq
    obtain ⟨rfl, hl⟩ := List.append_inj' hsplit rfl
    cases hl
    exact ⟨fun x hx => hbody x (by simp [hx]), tail, last, rfl, hlast,
      fun x hx => hbody x (by simp [hx])⟩

theorem exists_last (h : IsClosed ops) :
    ∃ body last, ops = body ++ [last] ∧ ∀ o ∈ ops, o.isTerminator = true → o = last := by
  obtain ⟨body, last, rfl, -, hbody⟩ := h
  refine ⟨body, last, rfl, fun o ho hterm => ?_⟩
  rcases List.mem_append.1 ho with ho | ho
  · rw [hbody o ho] at hterm
    cases hterm
  · exact List.mem_singleton.1 ho

end IsClosed

namespace Function

def ids (f : Function) : List BlockId := f.blocks.map Block.id

theorem isExternal_of_hasBody {f : Function} (h : f.hasBody = true) : f.isExternal = false := by
  rw [hasBody, Bool.and_eq_true] at h
  simpa using h.1

/-- Every value that is read is defined. -/
def Scoped (f : Function) : Prop :=
  ∀ o ∈ f.ops, ∀ v ∈ o.uses, v ∈ f.definitions

theorem mem_definitions_of_result {f : Function} {o : Op} (ho : o ∈ f.ops) {v : ValueId}
    (hv : o.result = some v) : v ∈ f.definitions :=
  List.mem_append_right _ (List.mem_filterMap.2 ⟨o, ho, hv⟩)

theorem not_mem_params_of_result {f : Function} (h : f.definitions.Nodup) {o : Op} (ho : o ∈ f.ops)
    {v : ValueId} (hv : o.result = some v) : v ∉ f.params.map (·.1) := fun hp =>
  List.disjoint_of_nodup_append h hp (List.mem_filterMap.2 ⟨o, ho, hv⟩)

theorem eq_of_result_eq {f : Function} (h : f.definitions.Nodup) {o o' : Op} (ho : o ∈ f.ops)
    (ho' : o' ∈ f.ops) {v : ValueId} (hv : o.result = some v) (hv' : o'.result = some v) :
    o = o' := by
  have hpairs := List.pairwise_filterMap.1 (List.nodup_append.1 h).2.1
  have hsymm : Std.Symm fun o o' : Op =>
      ∀ v, o.result = some v → ∀ v', o'.result = some v' → v ≠ v' :=
    ⟨fun _ _ hdistinct w hw w' hw' => (hdistinct w' hw' w hw).symm⟩
  by_contra hne
  exact hpairs.forall ho ho' hne v hv v hv' rfl

/-- The rules for a body, all but the one on the values that are read. -/
structure Framed (symbols : List String) (f : Function) : Prop where
  nonempty : f.blocks ≠ []
  ids_nodup : f.ids.Nodup
  definitions_nodup : f.definitions.Nodup
  closed : ∀ b ∈ f.blocks, IsClosed b.ops
  targets : ∀ o ∈ f.ops, ∀ t ∈ o.blocks, t ∈ f.ids
  edges : ∀ b ∈ f.blocks, ∀ t ∈ b.preds ++ b.succs, t ∈ f.ids
  calls : ∀ o ∈ f.ops, ∀ c, o.callee? = some c → c ∈ symbols

theorem redefined?_eq_none_iff (f : Function) : f.redefined? = none ↔ f.definitions.Nodup := by
  have hcount : f.definitions.Nodup ↔ ∀ v ∈ f.definitions, f.definitions.count v ≤ 1 := by
    rw [List.nodup_iff_count_le_one]
    refine ⟨fun h v _ => h v, fun h v => ?_⟩
    by_cases hv : v ∈ f.definitions
    · exact h v hv
    · rw [List.count_eq_zero_of_not_mem hv]
      omega
  rw [hcount, redefined?, Option.map_eq_none_iff, List.min?_eq_none_iff, List.map_eq_nil_iff,
    List.filter_eq_nil_iff]
  simp

theorem opFault?_eq_none_iff (f : Function) (symbols : List String) (b : Block) (index : Nat)
    (o : Op) : f.opFault? symbols b index o = none ↔
      (o.isTerminator = true → index + 1 = b.ops.length) ∧ (∀ t ∈ o.blocks, t ∈ f.ids) ∧
        (∀ v ∈ o.uses, v ∈ f.definitions) ∧ ∀ c, o.callee? = some c → c ∈ symbols := by
  simp [opFault?, ids]

end Function

theorem Block.isClosed_ops_iff (b : Block) : IsClosed b.ops ↔ b.terminator?.isSome = true ∧
    ∀ i o, b.ops[i]? = some o → o.isTerminator = true → i + 1 = b.ops.length := by
  constructor
  · rintro ⟨body, last, hops, hlast, hbody⟩
    refine ⟨by simp [terminator?, hops, hlast], fun i o hi ho => ?_⟩
    rw [hops] at hi ⊢
    rcases Nat.lt_or_ge i body.length with hlt | hge
    · rw [List.getElem?_append_left hlt] at hi
      simp [hbody o (List.mem_of_getElem? hi)] at ho
    · have hlen := (List.getElem?_eq_some_iff.1 hi).1
      simp only [List.length_append, List.length_singleton] at hlen ⊢
      omega
  · rintro ⟨hsome, hpos⟩
    rcases List.eq_nil_or_concat' b.ops with hnil | ⟨body, last, hops⟩
    · simp [terminator?, hnil] at hsome
    · refine ⟨body, last, hops, by simpa [terminator?, hops] using hsome, fun o ho => ?_⟩
      obtain ⟨i, hi, rfl⟩ := List.getElem_of_mem ho
      rw [Bool.eq_false_iff]
      intro hterm
      have := hpos i body[i] (by rw [hops, List.getElem?_append_left hi]; simp) hterm
      rw [hops, List.length_append, List.length_singleton] at this
      omega

namespace Function

theorem blockFault?_eq_none_iff (f : Function) (symbols : List String) (b : Block) :
    f.blockFault? symbols b = none ↔
      IsClosed b.ops ∧ (∀ o ∈ b.ops, (∀ t ∈ o.blocks, t ∈ f.ids) ∧
        (∀ v ∈ o.uses, v ∈ f.definitions) ∧ ∀ c, o.callee? = some c → c ∈ symbols) ∧
      ∀ t ∈ b.preds ++ b.succs, t ∈ f.ids := by
  have hedges : ((b.preds ++ b.succs).find? fun t => t ∉ f.blocks.map Block.id).map
      (VerifyError.unknownBlock f.symbol b.id) = none ↔ ∀ t ∈ b.preds ++ b.succs, t ∈ f.ids := by
    rw [Option.map_eq_none_iff, List.find?_eq_none]
    simp [ids]
  have hterm : (if b.terminator?.isNone then some (VerifyError.missingTerminator f.symbol b.id)
      else none) = none ↔ b.terminator?.isSome = true := by
    cases b.terminator? <;> simp
  simp only [blockFault?, Option.orElse_eq_orElse, Option.orElse_eq_or, Option.or_eq_none_iff,
    hterm, hedges, List.findSome?_eq_none_iff, Prod.forall, List.mem_zipIdx_iff_getElem?,
    opFault?_eq_none_iff, Block.isClosed_ops_iff]
  constructor
  · rintro ⟨hsome, hop, hedge⟩
    refine ⟨⟨hsome, fun i o hi => (hop o i hi).1⟩, fun o ho => ?_, hedge⟩
    obtain ⟨i, hi⟩ := List.mem_iff_getElem?.1 ho
    exact (hop o i hi).2
  · rintro ⟨⟨hsome, hpos⟩, hop, hedge⟩
    exact ⟨hsome, fun o i hi => ⟨hpos i o hi, hop o (List.mem_of_getElem? hi)⟩, hedge⟩

theorem fault?_eq_none_iff (f : Function) (symbols : List String) : f.fault? symbols = none ↔
    (f.isExternal = true ∧ f.blocks = []) ∨
      (f.isExternal = false ∧ f.Framed symbols ∧ f.Scoped) := by
  rw [fault?]
  split
  · next hext => simp [hext]
  · next hext =>
    split
    · next hnil =>
      have hf : ¬f.Framed symbols := fun h => h.nonempty (List.isEmpty_iff.1 hnil)
      simp [hext, hf]
    · next hnil =>
      simp only [Option.orElse_eq_orElse, Option.orElse_eq_or, Option.or_eq_none_iff,
        Option.map_eq_none_iff, firstRepeat?_eq_none_iff, redefined?_eq_none_iff,
        List.findSome?_eq_none_iff, blockFault?_eq_none_iff, hext, Bool.false_eq_true, false_and,
        true_and, false_or]
      constructor
      · rintro ⟨hids, hdefs, hblocks⟩
        have hops : ∀ o ∈ f.ops, (∀ t ∈ o.blocks, t ∈ f.ids) ∧
            (∀ v ∈ o.uses, v ∈ f.definitions) ∧ ∀ c, o.callee? = some c → c ∈ symbols := by
          intro o ho
          obtain ⟨b, hb, ho⟩ := List.mem_flatMap.1 ho
          exact (hblocks b hb).2.1 o ho
        exact ⟨{ nonempty := fun h => hnil (List.isEmpty_iff.2 h)
                 ids_nodup := hids
                 definitions_nodup := hdefs
                 closed := fun b hb => (hblocks b hb).1
                 targets := fun o ho => (hops o ho).1
                 edges := fun b hb => (hblocks b hb).2.2
                 calls := fun o ho => (hops o ho).2.2 }, fun o ho => (hops o ho).2.1⟩
      · rintro ⟨hf, hs⟩
        refine ⟨hf.ids_nodup, hf.definitions_nodup, fun b hb => ⟨hf.closed b hb, ?_, hf.edges b hb⟩⟩
        intro o ho
        have ho : o ∈ f.ops := List.mem_flatMap.2 ⟨b, hb, ho⟩
        exact ⟨hf.targets o ho, hs o ho, hf.calls o ho⟩

end Function

namespace Module

/-- The rules for a module, all but the one on the values that are read. -/
structure Framed (m : Module) : Prop where
  symbols_nodup : m.symbols.Nodup
  bodiless : ∀ f ∈ m.functions, f.isExternal = true → f.blocks = []
  bodies : ∀ f ∈ m.functions, f.isExternal = false → f.Framed m.symbols

def Scoped (m : Module) : Prop :=
  ∀ f ∈ m.functions, f.Scoped

theorem scoped_of_blocks_eq_nil {f : Function} (h : f.blocks = []) : f.Scoped := by
  intro o ho
  simp [Function.ops, h] at ho

theorem fault?_eq_none_iff (m : Module) : m.fault? = none ↔ m.Framed ∧ m.Scoped := by
  simp only [fault?, Option.orElse_eq_orElse, Option.orElse_eq_or, Option.or_eq_none_iff,
    Option.map_eq_none_iff, firstRepeat?_eq_none_iff, List.findSome?_eq_none_iff,
    Function.fault?_eq_none_iff]
  constructor
  · rintro ⟨hsymbols, hfunctions⟩
    refine ⟨⟨hsymbols, fun f hf hext => ?_, fun f hf hext => ?_⟩, fun f hf => ?_⟩
    · rcases hfunctions f hf with ⟨-, h⟩ | ⟨h, -⟩
      · exact h
      · simp [hext] at h
    · rcases hfunctions f hf with ⟨h, -⟩ | ⟨-, h, -⟩
      · simp [hext] at h
      · exact h
    · rcases hfunctions f hf with ⟨-, h⟩ | ⟨-, -, h⟩
      · exact scoped_of_blocks_eq_nil h
      · exact h
  · rintro ⟨hm, hs⟩
    refine ⟨hm.symbols_nodup, fun f hf => ?_⟩
    cases hext : f.isExternal with
    | true => exact .inl ⟨rfl, hm.bodiless f hf hext⟩
    | false => exact .inr ⟨rfl, hm.bodies f hf hext, hs f hf⟩

theorem verify_eq_ok_iff (m : Module) : m.verify = .ok () ↔ m.Framed ∧ m.Scoped := by
  rw [← fault?_eq_none_iff, verify]
  cases m.fault? <;> simp

end Module

end PassEngine.Dialect
