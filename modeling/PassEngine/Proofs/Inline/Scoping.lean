import Mathlib.Data.List.Zip
import PassEngine.Proofs.Inline.Validity

namespace PassEngine

namespace Dialect.Function

/-- Every direct call reads only values that rank below its own. -/
def Ranked (rank : ValueId → Nat) (f : Function) : Prop :=
  ∀ o ∈ f.ops, ∀ c, o.callee? = some c → ∀ r, o.result = some r → ∀ v ∈ o.uses, rank v < rank r

/-- No direct call needs its own value, be it through other calls. -/
def CallsOrdered (f : Function) : Prop :=
  ∃ rank, f.Ranked rank

def ReturnsPlain (f : Function) : Prop :=
  ∀ o ∈ f.ops, ∀ value, o.kind = .ret value → o.result = none

end Dialect.Function

namespace Inline

open Dialect

namespace Splicing

variable {caller callee : Function} (s : Splicing caller callee)

/-- What the body defines, for the fresh value of its copy. -/
def origin? (w : ValueId) : Option ValueId :=
  ((s.fresh.zip (callee.ops.filterMap Op.result)).reverse.find? (·.1 == w)).map (·.2)

theorem origin?_eq_some_iff {w v : ValueId} :
    s.origin? w = some v ↔ (w, v) ∈ s.fresh.zip (callee.ops.filterMap Op.result) := by
  rw [origin?, find?_reverse_eq_some_iff]
  exact s.fresh_nodup.sublist (map_fst_zip_sublist _ _)

theorem mem_fresh_of_origin? {w v : ValueId} (h : s.origin? w = some v) : w ∈ s.fresh :=
  (List.of_mem_zip (s.origin?_eq_some_iff.1 h)).1

theorem mem_results_of_origin? {w v : ValueId} (h : s.origin? w = some v) :
    v ∈ callee.ops.filterMap Op.result :=
  (List.of_mem_zip (s.origin?_eq_some_iff.1 h)).2

theorem length_fresh : s.fresh.length = (callee.ops.filterMap Op.result).length :=
  length_freshValues ..

theorem exists_origin?_of_mem_fresh {w : ValueId} (h : w ∈ s.fresh) :
    ∃ v, s.origin? w = some v := by
  obtain ⟨i, hi, rfl⟩ := List.getElem_of_mem h
  have hi' : i < (callee.ops.filterMap Op.result).length := by rwa [← s.length_fresh]
  refine ⟨(callee.ops.filterMap Op.result)[i], s.origin?_eq_some_iff.2 ?_⟩
  exact List.mem_iff_getElem.2 ⟨i, by rw [List.length_zip]; omega, by simp⟩

theorem exists_origin?_eq_some {v : ValueId} (h : v ∈ callee.ops.filterMap Op.result) :
    ∃ w, s.origin? w = some v := by
  obtain ⟨i, hi, rfl⟩ := List.getElem_of_mem h
  have hi' : i < s.fresh.length := by rwa [s.length_fresh]
  refine ⟨s.fresh[i], s.origin?_eq_some_iff.2 ?_⟩
  exact List.mem_iff_getElem.2 ⟨i, by rw [List.length_zip]; omega, by simp⟩

theorem origin?_of_mem_definitions {v : ValueId} (h : v ∈ caller.definitions) :
    s.origin? v = none := by
  cases hv : s.origin? v with
  | none => rfl
  | some u => exact absurd h (s.not_mem_definitions_of_mem_fresh (s.mem_fresh_of_origin? hv))

theorem value?_names (h : callee.definitions.Nodup) {v : ValueId} {x : Operand} :
    s.names.value? v = some x ↔ (v, x) ∈ (callee.params.map (·.1)).zip s.args ∨
      ∃ w, s.origin? w = some v ∧ x = .value w := by
  have hswap : ∀ w, (v, w) ∈ (callee.ops.filterMap Op.result).zip s.fresh ↔
      (w, v) ∈ s.fresh.zip (callee.ops.filterMap Op.result) := by
    intro w
    rw [← List.zip_swap, List.mem_map]
    constructor
    · rintro ⟨⟨w', v'⟩, hmem, heq⟩
      cases heq
      exact hmem
    · intro hmem
      exact ⟨(w, v), hmem, rfl⟩
  rw [names, Renaming.value?_ofCall h]
  refine or_congr Iff.rfl ?_
  rw [List.zip_map_right, List.mem_map]
  constructor
  · rintro ⟨⟨v', w⟩, hmem, heq⟩
    obtain ⟨rfl, rfl⟩ := Prod.mk.inj heq
    exact ⟨w, s.origin?_eq_some_iff.2 ((hswap w).1 hmem), rfl⟩
  · rintro ⟨w, hw, rfl⟩
    exact ⟨(v, w), (hswap w).2 (s.origin?_eq_some_iff.1 hw), rfl⟩

/-- A value in the copy is what is passed for a parameter, or fresh. -/
theorem operand_names_cases (h : callee.definitions.Nodup) {o : Op} (ho : o ∈ callee.ops)
    {y : Operand} (hy : y ∈ o.operands) {w : ValueId} (hw : s.names.operand y = .value w) :
    ∃ v, y = .value v ∧
      ((v, .value w) ∈ (callee.params.map (·.1)).zip s.args ∨ s.origin? w = some v) := by
  cases y with
  | value v =>
    obtain ⟨x, hx⟩ := s.renamed o ho v (o.mem_uses_iff.2 hy)
    rw [Renaming.operand_value (r := s.names) hx] at hw
    subst hw
    refine ⟨v, rfl, ?_⟩
    rcases (s.value?_names h).1 hx with hmem | ⟨w', hw', heq⟩
    · exact .inl hmem
    · cases heq
      exact .inr hw'
  | _ => simp [Renaming.operand] at hw

theorem operand_names (h : callee.definitions.Nodup) {o : Op} (ho : o ∈ callee.ops) {y : Operand}
    (hy : y ∈ o.operands) {w : ValueId} (hw : s.names.operand y = .value w) :
    w ∈ s.call.uses ∨ ∃ v, y = .value v ∧ s.origin? w = some v := by
  obtain ⟨v, hv, hmem | horigin⟩ := s.operand_names_cases h ho hy hw
  · left
    rw [Op.mem_uses_iff, s.operands_call]
    exact (List.of_mem_zip hmem).2
  · exact .inr ⟨v, hv, horigin⟩

theorem exists_of_result_copyOp (h : callee.definitions.Nodup) {o : Op} (ho : o ∈ callee.ops)
    {w : ValueId} (hw : (copyOp s.names s.cont o).result = some w) :
    ∃ v, o.result = some v ∧ s.origin? w = some v := by
  rcases eq_ret_or_ne_ret o with ⟨value, hret⟩ | hret
  · simp [copyOp_of_ret hret, Op.void] at hw
  · rw [copyOp_of_ne_ret hret, Renaming.op] at hw
    obtain ⟨v, hv, hbind⟩ := Option.bind_eq_some_iff.1 hw
    obtain ⟨x, hx, hxw⟩ := Option.bind_eq_some_iff.1 hbind
    have hv' : v ∈ callee.ops.filterMap Op.result := List.mem_filterMap.2 ⟨o, ho, hv⟩
    refine ⟨v, hv, ?_⟩
    rcases (s.value?_names h).1 hx with hmem | ⟨w', hw', rfl⟩
    · exact absurd hv' (List.disjoint_of_nodup_append h (List.of_mem_zip hmem).1)
    · cases hxw
      exact hw'

theorem result_copyOp (h : callee.definitions.Nodup) {o : Op} (hret : ∀ value, o.kind ≠ .ret value)
    {v w : ValueId} (hv : o.result = some v) (hw : s.origin? w = some v) :
    (copyOp s.names s.cont o).result = some w := by
  have hx := (s.value?_names h).2 (.inr ⟨w, hw, rfl⟩)
  rw [copyOp_of_ne_ret hret]
  simp [Renaming.op, hv, hx, Operand.value?]

/-- Each fresh value is defined in the copy, unless a return defined its origin. -/
theorem mem_results_copied (h : callee.definitions.Nodup) (hplain : callee.ReturnsPlain)
    {w : ValueId} (hw : w ∈ s.fresh) : w ∈ s.copied.filterMap Op.result := by
  obtain ⟨v, hv⟩ := s.exists_origin?_of_mem_fresh hw
  obtain ⟨o, ho, hov⟩ := List.mem_filterMap.1 (s.mem_results_of_origin? hv)
  have hret : ∀ value, o.kind ≠ .ret value := by
    intro value hret
    rw [hplain o ho value hret] at hov
    cases hov
  exact List.mem_filterMap.2 ⟨_, List.mem_map_of_mem ho, s.result_copyOp h hret hov hv⟩

/-- The value of the call stays where a phi defines it again, and elsewhere what the body returns
takes its place. -/
theorem merged_operand_cases {y : Operand} {v : ValueId} (h : s.merged.operand y = .value v) :
    (y = .value v ∧ (s.call.result = some v → v ∈ s.mergeOps.filterMap Op.result)) ∨
    ∃ r, s.call.result = some r ∧ y = .value r ∧
      ∃ o ∈ callee.ops, ∃ z ∈ o.operands, s.names.operand z = .value v := by
  cases y with
  | value u =>
    rcases s.merged_operand_value u with ⟨x, hm, hx⟩ | ⟨hne, hu⟩
    · obtain ⟨hr, rfl | ⟨o, ho, z, hk, rfl⟩⟩ := s.of_merged_eq_replace hm
      · rw [hx] at h
        cases h
      · exact .inr ⟨u, hr, rfl, o, ho, z, Op.mem_operands_of_ret hk, hx.symm.trans h⟩
    · rw [hu] at h
      cases h
      exact .inl ⟨rfl, fun hr => s.result_mem_results_mergeOps hr hne⟩
  | _ =>
    rw [s.merged_operand_of_ne (by simp)] at h
    cases h

/-- Before the value of the call is merged, what is read is a value of the caller or fresh. -/
theorem mem_definitions_or_mem_fresh (hcaller : caller.Scoped) (h : callee.definitions.Nodup)
    {o : Op} (ho : o ∈ s.blocks.flatMap Block.ops) {v : ValueId} (hv : .value v ∈ o.operands) :
    v ∈ caller.definitions ∨ v ∈ s.fresh := by
  have hcopy : ∀ o' ∈ callee.ops, ∀ y ∈ o'.operands, s.names.operand y = .value v →
      v ∈ caller.definitions ∨ v ∈ s.fresh := by
    intro o' ho' y hy hyv
    rcases s.operand_names h ho' hy hyv with hcall | ⟨u, -, hu⟩
    · exact .inl (hcaller s.call s.call_mem_ops v hcall)
    · exact .inr (s.mem_fresh_of_origin? hu)
  rcases s.mem_ops_blocks.1 ho with ho | rfl | ho | ho
  · exact .inl (hcaller o (s.mem_ops_caller_of_mem_kept ho) v (o.mem_uses_iff.2 hv))
  · simp [Op.void, Op.operands, OpKind.operands] at hv
  · obtain ⟨o', ho', rfl⟩ := List.mem_map.1 ho
    obtain ⟨y, hy, hyv⟩ := mem_operands_copyOp hv
    exact hcopy o' ho' y hy hyv
  · obtain ⟨r, -, rfl⟩ := s.mem_mergeOps ho
    obtain ⟨⟨x, id⟩, hx, rfl⟩ := List.mem_map.1 hv
    rcases s.operand_of_mem_returns hx with hundef | ⟨o', ho', y, hk, hy⟩
    · cases hundef
    · exact hcopy o' ho' y (Op.mem_operands_of_ret hk) hy.symm

theorem mem_definitions_result {v : ValueId} (h : v ∈ caller.definitions)
    (hv : s.call.result = some v → v ∈ s.mergeOps.filterMap Op.result) :
    v ∈ s.result.definitions := by
  rw [s.definitions_caller_perm.mem_iff, List.mem_append] at h
  rw [s.definitions_result_perm.mem_iff, List.mem_append, List.mem_append]
  rcases h with h | h
  · exact .inl (.inl h)
  · exact .inl (.inr (hv (by simpa using h)))

/-- What is read is defined, unless it is the value of the call and the body gives just that value
back. -/
theorem mem_definitions_or_merged_eq (hcaller : caller.Scoped) (h : callee.definitions.Nodup)
    (hplain : callee.ReturnsPlain) {o : Op} (ho : o ∈ s.result.ops) {v : ValueId}
    (hv : v ∈ o.uses) : v ∈ s.result.definitions ∨ s.merged = .replace v (.value v) := by
  have hfresh : ∀ v ∈ s.fresh, v ∈ s.result.definitions := by
    intro v hv
    rw [s.definitions_result_perm.mem_iff, List.mem_append]
    exact .inr (s.mem_results_copied h hplain hv)
  obtain ⟨b, hb, x, hx, rfl⟩ := s.mem_ops_result.1 ho
  rw [Op.mem_uses_iff, operands_edit, List.mem_map] at hv
  obtain ⟨y, hy, hyv⟩ := hv
  rcases s.merged_operand_cases hyv with ⟨rfl, hr⟩ | ⟨r, hr, rfl, o', ho', z, hz, hzv⟩
  · left
    rcases s.mem_definitions_or_mem_fresh hcaller h (List.mem_flatMap.2 ⟨b, hb, hx⟩) hy with hv | hv
    · exact s.mem_definitions_result hv hr
    · exact hfresh v hv
  · rcases s.operand_names h ho' hz hzv with hcall | ⟨u, -, hu⟩
    · by_cases hm : s.merged = .replace v (.value v)
      · exact .inr hm
      · refine .inl (s.mem_definitions_result (hcaller s.call s.call_mem_ops v hcall) fun hv => ?_)
        -- Here `v` is the value of the call, and what stands for it would be `v` itself.
        rw [hr] at hv
        cases hv
        refine s.result_mem_results_mergeOps hr fun x hx => hm ?_
        rw [hx, Merge.operand, if_pos rfl] at hyv
        rw [hx, hyv]
    · exact .inl (hfresh v (s.mem_fresh_of_origin? hu))

/-- A call that does not read its own value leaves nothing undefined, if no return defines a
value. -/
theorem scoped_result (hcaller : caller.Scoped) (h : callee.definitions.Nodup)
    (hplain : callee.ReturnsPlain) (hself : ∀ r, s.call.result = some r → r ∉ s.call.uses) :
    s.result.Scoped := by
  intro o ho v hv
  rcases s.mem_definitions_or_merged_eq hcaller h hplain ho hv with hmem | hm
  · exact hmem
  · obtain ⟨hr, hundef | ⟨o', ho', z, hk, hz⟩⟩ := s.of_merged_eq_replace hm
    · cases hundef
    · rcases s.operand_names h ho' (Op.mem_operands_of_ret hk) hz.symm with hcall | ⟨u, -, hu⟩
      · exact absurd hcall (hself v hr)
      · have hdef := Function.mem_definitions_of_result s.call_mem_ops hr
        rw [s.origin?_of_mem_definitions hdef] at hu
        cases hu

theorem returnsPlain_result (hcaller : caller.ReturnsPlain) : s.result.ReturnsPlain := by
  intro o ho value hk
  obtain ⟨b, hb, x, hx, rfl⟩ := s.mem_ops_result.1 ho
  have hxk := (OpKind.exists_ret_mapOperands_iff _ _).1 ⟨value, hk⟩
  have hxk : ∃ value, x.kind = .ret value := by
    rw [redirectOp] at hxk
    split at hxk
    · simp only [Op.mapBlocks] at hxk
      exact (OpKind.exists_ret_mapBlocks_iff _ _).1 hxk
    · exact hxk
  obtain ⟨value', hxk⟩ := hxk
  rw [result_edit]
  rcases s.mem_ops_blocks.1 (List.mem_flatMap.2 ⟨b, hb, hx⟩) with hx | rfl | hx | hx
  · exact hcaller x (s.mem_ops_caller_of_mem_kept hx) value' hxk
  · rfl
  · obtain ⟨x', hx', rfl⟩ := List.mem_map.1 hx
    rcases eq_ret_or_ne_ret x' with ⟨value, hret⟩ | hret
    · rw [copyOp_of_ret hret]
      rfl
    · rw [copyOp_of_ne_ret hret] at hxk
      obtain ⟨value, hk⟩ := (OpKind.exists_ret_mapOperands_iff _ _).1
        ((OpKind.exists_ret_mapBlocks_iff _ _).1 ⟨value', hxk⟩)
      exact absurd hk (hret value)
  · obtain ⟨v, -, rfl⟩ := s.mem_mergeOps hx
    cases hxk

theorem exists_bound (g : ValueId → Nat) (vs : List ValueId) : ∃ n, ∀ v ∈ vs, g v < n := by
  induction vs with
  | nil => exact ⟨0, by simp⟩
  | cons v vs ih =>
    obtain ⟨n, hn⟩ := ih
    refine ⟨max n (g v + 1), fun u hu => ?_⟩
    rcases List.mem_cons.1 hu with rfl | hu
    · omega
    · have := hn u hu
      omega

/-- The ranks of the body fit, `width` of them to each rank of the caller, below those of rank
`level`. -/
def rank (callerRank calleeRank : ValueId → Nat) (level width : Nat) (w : ValueId) : Nat :=
  match s.origin? w with
  | some v => level * (width + 1) + calleeRank v
  | none => callerRank w * (width + 1) + width

section Rank

variable {callerRank calleeRank : ValueId → Nat} {level width : Nat}

theorem rank_of_origin? {w v : ValueId} (h : s.origin? w = some v) :
    s.rank callerRank calleeRank level width w = level * (width + 1) + calleeRank v := by
  rw [rank, h]

theorem rank_of_mem_definitions {v : ValueId} (h : v ∈ caller.definitions) :
    s.rank callerRank calleeRank level width v = callerRank v * (width + 1) + width := by
  rw [rank, s.origin?_of_mem_definitions h]

theorem rank_lt_of_lt {v r : ValueId} (hv : v ∈ caller.definitions) (hr : r ∈ caller.definitions)
    (h : callerRank v < callerRank r) :
    s.rank callerRank calleeRank level width v < s.rank callerRank calleeRank level width r := by
  rw [s.rank_of_mem_definitions hv, s.rank_of_mem_definitions hr]
  have := Nat.mul_lt_mul_of_pos_right h (by omega : 0 < width + 1)
  omega

theorem rank_lt_level (calleeRank : ValueId → Nat) (width : Nat) {v : ValueId}
    (hv : v ∈ caller.definitions) (h : callerRank v < level) :
    s.rank callerRank calleeRank level width v < level * (width + 1) := by
  rw [s.rank_of_mem_definitions hv]
  have := Nat.mul_le_mul_right (width + 1) (Nat.succ_le_of_lt h)
  rw [Nat.succ_mul] at this
  omega

/-- What the body returns ranks no higher than the value of the call. -/
theorem rank_le_of_merged (hcaller : caller.Scoped) (h : callee.definitions.Nodup)
    (hlevel : ∀ v ∈ s.call.uses, callerRank v < level)
    (hwidth : ∀ v ∈ callee.ops.filterMap Op.result, calleeRank v < width) {r : ValueId}
    (hr : s.call.result = some r) (hrlevel : level ≤ callerRank r) {o : Op} (ho : o ∈ callee.ops)
    {z : Operand} (hz : z ∈ o.operands) {v : ValueId} (hzv : s.names.operand z = .value v) :
    s.rank callerRank calleeRank level width v ≤ s.rank callerRank calleeRank level width r := by
  rw [s.rank_of_mem_definitions (Function.mem_definitions_of_result s.call_mem_ops hr)]
  have := Nat.mul_le_mul_right (width + 1) hrlevel
  rcases s.operand_names h ho hz hzv with hcall | ⟨u, -, hu⟩
  · have := s.rank_lt_level calleeRank width (hcaller s.call s.call_mem_ops v hcall)
      (hlevel v hcall)
    omega
  · rw [s.rank_of_origin? hu]
    have := hwidth u (s.mem_results_of_origin? hu)
    omega

theorem ranked_blocks (hcaller : caller.Scoped) (h : callee.definitions.Nodup)
    (hcallerRank : caller.Ranked callerRank) (hcalleeRank : callee.Ranked calleeRank)
    (hlevel : ∀ v ∈ s.call.uses, callerRank v < level) {o : Op}
    (ho : o ∈ s.blocks.flatMap Block.ops) {c : String} (hc : o.callee? = some c) {r : ValueId}
    (hr : o.result = some r) {v : ValueId} (hv : .value v ∈ o.operands) :
    s.rank callerRank calleeRank level width v < s.rank callerRank calleeRank level width r := by
  -- Kept, the jump into the copy, copied, or the merging phi: two of them are no calls.
  rcases s.mem_ops_blocks.1 ho with ho | rfl | ho | ho
  · have ho := s.mem_ops_caller_of_mem_kept ho
    have hv := o.mem_uses_iff.2 hv
    exact s.rank_lt_of_lt (hcaller o ho v hv) (Function.mem_definitions_of_result ho hr)
      (hcallerRank o ho c hc r hr v hv)
  · cases hc
  · obtain ⟨o', ho', rfl⟩ := List.mem_map.1 ho
    rw [callee?_copyOp] at hc
    obtain ⟨r', hr', horigin⟩ := s.exists_of_result_copyOp h ho' hr
    rw [s.rank_of_origin? horigin]
    obtain ⟨y, hy, hyv⟩ := mem_operands_copyOp hv
    rcases s.operand_names h ho' hy hyv with hcall | ⟨u, rfl, hu⟩
    · have := s.rank_lt_level calleeRank width (hcaller s.call s.call_mem_ops v hcall)
        (hlevel v hcall)
      omega
    · rw [s.rank_of_origin? hu]
      have := hcalleeRank o' ho' c hc r' hr' u (o'.mem_uses_iff.2 hy)
      omega
  · obtain ⟨u, -, rfl⟩ := s.mem_mergeOps ho
    cases hc

end Rank

theorem callsOrdered_result (hcaller : caller.Scoped) (h : callee.definitions.Nodup)
    (hcallerOrder : caller.CallsOrdered) (hcalleeOrder : callee.CallsOrdered) :
    s.result.CallsOrdered := by
  obtain ⟨callerRank, hcallerRank⟩ := hcallerOrder
  obtain ⟨calleeRank, hcalleeRank⟩ := hcalleeOrder
  obtain ⟨width, hwidth⟩ := exists_bound calleeRank (callee.ops.filterMap Op.result)
  -- The body goes right below the value of the call, or above all arguments if there is none.
  have hlevel : ∃ level, (∀ v ∈ s.call.uses, callerRank v < level) ∧
      ∀ r, s.call.result = some r → level ≤ callerRank r := by
    cases hr : s.call.result with
    | none =>
      obtain ⟨level, hlevel⟩ := exists_bound callerRank s.call.uses
      exact ⟨level, hlevel, by simp⟩
    | some r =>
      refine ⟨callerRank r, hcallerRank s.call s.call_mem_ops s.symbol s.callee?_call r hr, ?_⟩
      intro r' hr'
      rw [Option.some.inj hr']
  obtain ⟨level, hlevel, hresult⟩ := hlevel
  refine ⟨s.rank callerRank calleeRank level width, fun o ho c hc r hr v hv => ?_⟩
  obtain ⟨b, hb, x, hx, rfl⟩ := s.mem_ops_result.1 ho
  have hx : x ∈ s.blocks.flatMap Block.ops := List.mem_flatMap.2 ⟨b, hb, hx⟩
  rw [callee?_edit] at hc
  rw [result_edit] at hr
  rw [Op.mem_uses_iff, operands_edit, List.mem_map] at hv
  obtain ⟨y, hy, hyv⟩ := hv
  rcases s.merged_operand_cases hyv with ⟨rfl, -⟩ | ⟨r', hr', rfl, o', ho', z, hz, hzv⟩
  · exact s.ranked_blocks hcaller h hcallerRank hcalleeRank hlevel hx hc hr hy
  · refine Nat.lt_of_le_of_lt ?_
      (s.ranked_blocks hcaller h hcallerRank hcalleeRank hlevel hx hc hr hy)
    exact s.rank_le_of_merged hcaller h hlevel hwidth hr' (hresult r' hr') ho' hz hzv

end Splicing

end Inline

end PassEngine
