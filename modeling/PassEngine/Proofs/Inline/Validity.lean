import Mathlib.Data.List.Perm.Subperm
import PassEngine.Proofs.Inline.Splicing

namespace PassEngine.Inline

open Dialect

namespace Splicing

variable {caller callee : Function} (s : Splicing caller callee)

/-- The values made up for what the body defines. -/
def fresh (_ : Splicing caller callee) : List ValueId :=
  freshValues caller.nextValue (callee.ops.filterMap Op.result).length

theorem not_mem_definitions_of_mem_fresh {v : ValueId} (hv : v ∈ s.fresh) :
    v ∉ caller.definitions :=
  not_mem_definitions_of_mem_freshValues (Nat.le_of_lt s.values_fit) hv

theorem fresh_nodup : s.fresh.Nodup :=
  freshValues_nodup (Nat.le_of_lt s.values_fit)

theorem ids_copies (h : callee.ids.Nodup) :
    s.copies.map Block.id = freshBlocks (caller.nextBlock + 1) callee.ids.length := by
  have hcopies : s.copies.map Block.id = callee.ids.map s.names.block := by
    simp [copies, copyBlock, Function.ids]
  rw [hcopies, names, Renaming.map_block_ids h]

theorem cont_cons_ids_copies (h : callee.ids.Nodup) :
    s.cont :: s.copies.map Block.id = freshBlocks caller.nextBlock (callee.ids.length + 1) := by
  rw [s.ids_copies h, freshBlocks_succ]
  rfl

theorem length_ids (f : Function) : f.ids.length = f.blocks.length :=
  List.length_map ..

theorem not_mem_ids_of_mem_cont_cons (h : callee.ids.Nodup) {id : BlockId}
    (hid : id ∈ s.cont :: s.copies.map Block.id) : id ∉ caller.ids := by
  rw [s.cont_cons_ids_copies h] at hid
  have := s.blocks_fit
  exact not_mem_ids_of_mem_freshBlocks (by rw [length_ids]; omega) hid

theorem ids_blocks_perm :
    (s.blocks.map Block.id).Perm (caller.ids ++ s.cont :: s.copies.map Block.id) := by
  rw [List.perm_iff_count]
  intro id
  simp only [blocks, first, last, continuation, Function.ids, s.blocks_eq, List.map_append,
    List.map_cons, List.count_append, List.count_cons]
  omega

theorem ids_result_nodup (hcaller : caller.ids.Nodup) (hcallee : callee.ids.Nodup) :
    s.result.ids.Nodup := by
  rw [ids_result, s.ids_blocks_perm.nodup_iff, List.nodup_append']
  refine ⟨hcaller, ?_, fun id hid hnew => s.not_mem_ids_of_mem_cont_cons hcallee hnew hid⟩
  rw [s.cont_cons_ids_copies hcallee]
  have := s.blocks_fit
  exact freshBlocks_nodup (by rw [length_ids]; omega)

theorem mem_ids_result {id : BlockId} :
    id ∈ s.result.ids ↔ id ∈ caller.ids ∨ id = s.cont ∨ ∃ t ∈ callee.ids, s.names.block t = id := by
  rw [ids_result, s.ids_blocks_perm.mem_iff]
  simp [copies, copyBlock, Function.ids]

theorem results_copied_sublist (h : callee.definitions.Nodup) :
    (s.copied.filterMap Op.result).Sublist s.fresh := by
  have hall : callee.ops.filterMap (fun o => (s.names.op o).result) = s.fresh := by
    have hmap := Renaming.map_value?_results h s.args caller.nextValue (caller.nextBlock + 1)
    calc callee.ops.filterMap (fun o => (s.names.op o).result)
        = (callee.ops.filterMap Op.result).filterMap (fun v =>
            (s.names.value? v).bind Operand.value?) := by rw [List.filterMap_filterMap]; rfl
      _ = ((callee.ops.filterMap Op.result).map s.names.value?).filterMap
            (Option.bind · Operand.value?) := by rw [List.filterMap_map]; rfl
      _ = s.fresh := by
          rw [names, hmap, List.filterMap_map]
          exact List.filterMap_some
  rw [← hall, copied, List.filterMap_map]
  refine filterMap_sublist fun o _ => ?_
  rcases eq_ret_or_ne_ret o with ⟨value, hret⟩ | hret
  · exact .inl (by simp [copyOp_of_ret hret, Op.void])
  · exact .inr (by simp [copyOp_of_ne_ret hret])

theorem results_mergeOps_sublist :
    (s.mergeOps.filterMap Op.result).Sublist s.call.result.toList := by
  rw [mergeOps, merged]
  rcases merge_cases s.call (returns s.names callee) with
    ⟨hv, hm⟩ | ⟨v, hv, ⟨-, hm⟩ | ⟨x, b, -, hm⟩ | ⟨-, hm⟩⟩
  all_goals simp [hm, hv]

theorem definitions_caller_perm :
    caller.definitions.Perm (caller.params.map (·.1) ++ s.kept.filterMap Op.result ++
      s.call.result.toList) := by
  have h := s.ops_caller_perm.filterMap Op.result
  rw [Function.definitions, List.append_assoc]
  refine (h.append_left _).trans (List.Perm.append_left _ ?_)
  cases hv : s.call.result with
  | none => simp [hv]
  | some v => simpa [hv] using (List.perm_append_singleton v _).symm

theorem definitions_result_perm :
    s.result.definitions.Perm (caller.params.map (·.1) ++ s.kept.filterMap Op.result ++
      s.mergeOps.filterMap Op.result ++ s.copied.filterMap Op.result) := by
  have h := s.ops_blocks_perm.filterMap Op.result
  rw [Function.definitions, filterMap_result_ops_result, params_result]
  refine (h.append_left _).trans ?_
  simp only [List.filterMap_append, List.filterMap_cons, Op.void, List.append_assoc]
  exact ((List.perm_append_comm.append_left _).append_left _)

/-- Every definition afterwards is one from before or a fresh one. -/
theorem definitions_result_subperm (h : callee.definitions.Nodup) :
    s.result.definitions.Subperm (caller.definitions ++ s.fresh) := by
  refine s.definitions_result_perm.subperm.trans ?_
  refine List.Subperm.trans ?_ (s.definitions_caller_perm.symm.append_right _).subperm
  exact ((List.Sublist.append_left s.results_mergeOps_sublist _).append
    (s.results_copied_sublist h)).subperm

theorem definitions_result_nodup (hcaller : caller.definitions.Nodup)
    (hcallee : callee.definitions.Nodup) : s.result.definitions.Nodup := by
  obtain ⟨l, hperm, hsub⟩ := s.definitions_result_subperm hcallee
  rw [← hperm.nodup_iff]
  refine List.Nodup.sublist hsub (List.nodup_append'.2 ⟨hcaller, s.fresh_nodup, ?_⟩)
  exact fun v hv hfresh => s.not_mem_definitions_of_mem_fresh hfresh hv

theorem mem_ops_blocks {o : Op} : o ∈ s.blocks.flatMap Block.ops ↔
    o ∈ s.kept ∨ o = .void (.br (s.names.block s.entry.id)) ∨ o ∈ s.copied ∨ o ∈ s.mergeOps := by
  rw [s.ops_blocks_perm.mem_iff]
  simp

theorem mem_ops_caller_of_mem_kept {o : Op} (ho : o ∈ s.kept) : o ∈ caller.ops :=
  s.ops_caller_perm.mem_iff.2 (List.mem_cons_of_mem _ ho)

theorem call_mem_ops : s.call ∈ caller.ops :=
  s.ops_caller_perm.mem_iff.2 List.mem_cons_self

theorem mem_mergeOps {o : Op} (ho : o ∈ s.mergeOps) :
    ∃ v, s.call.result = some v ∧ o = ⟨some v, s.call.ty, .phi (returns s.names callee)⟩ := by
  rw [mergeOps, merged] at ho
  rcases merge_cases s.call (returns s.names callee) with
    ⟨hv, hm⟩ | ⟨v, hv, ⟨-, hm⟩ | ⟨x, b, -, hm⟩ | ⟨-, hm⟩⟩
  all_goals simp only [hm, List.mem_singleton, List.not_mem_nil] at ho
  exact ⟨v, hv, ho⟩

theorem mem_returns {x : Operand} {id : BlockId} (h : (x, id) ∈ returns s.names callee) :
    ∃ b ∈ callee.blocks, id = s.names.block b.id ∧ ∃ o ∈ b.ops, ∃ value,
      o.kind = .ret value ∧ x = (value.map s.names.operand).getD .undef := by
  rw [returns, List.mem_flatMap] at h
  obtain ⟨b, hb, h⟩ := h
  obtain ⟨o, ho, h⟩ := List.mem_filterMap.1 h
  cases hk : o.kind with
  | ret value =>
    simp only [hk, Option.some.injEq, Prod.mk.injEq] at h
    exact ⟨b, hb, h.2.symm, o, ho, value, hk, h.1.symm⟩
  | _ => simp [hk] at h

theorem mem_returns_of_ret {b : Block} (hb : b ∈ callee.blocks) {o : Op} (ho : o ∈ b.ops)
    {value : Option Operand} (hk : o.kind = .ret value) :
    ((value.map s.names.operand).getD .undef, s.names.block b.id) ∈ returns s.names callee := by
  refine List.mem_flatMap.2 ⟨b, hb, List.mem_filterMap.2 ⟨o, ho, ?_⟩⟩
  rw [hk]

theorem operand_of_mem_returns {x : Operand} {id : BlockId}
    (h : (x, id) ∈ returns s.names callee) :
    x = .undef ∨ ∃ o ∈ callee.ops, ∃ z, o.kind = .ret (some z) ∧ x = s.names.operand z := by
  obtain ⟨b, hb, -, o, ho, value, hk, hx⟩ := s.mem_returns h
  cases value with
  | none => exact .inl hx
  | some z => exact .inr ⟨o, List.mem_flatMap.2 ⟨b, hb, ho⟩, z, hk, hx⟩

/-- What stands for the value of the call is what the body returns. -/
theorem of_merged_eq_replace {r : ValueId} {x : Operand} (h : s.merged = .replace r x) :
    s.call.result = some r ∧
      (x = .undef ∨ ∃ o ∈ callee.ops, ∃ z, o.kind = .ret (some z) ∧ x = s.names.operand z) := by
  rw [merged] at h
  rcases merge_cases s.call (returns s.names callee) with
    ⟨-, hm⟩ | ⟨r', hr, ⟨-, hm⟩ | ⟨x', b, hrets, hm⟩ | ⟨-, hm⟩⟩
  all_goals
    rw [hm] at h
    cases h
  · exact ⟨hr, .inl rfl⟩
  · exact ⟨hr, s.operand_of_mem_returns (hrets ▸ List.mem_singleton_self _)⟩

theorem result_mem_results_mergeOps {r : ValueId} (hr : s.call.result = some r)
    (h : ∀ x, s.merged ≠ .replace r x) : r ∈ s.mergeOps.filterMap Op.result := by
  rw [mergeOps]
  rw [merged] at h ⊢
  rcases merge_cases s.call (returns s.names callee) with
    ⟨hr', -⟩ | ⟨r', hr', ⟨-, hm⟩ | ⟨x', b, -, hm⟩ | ⟨-, hm⟩⟩
  all_goals
    rw [hr] at hr'
    cases hr'
  · exact absurd hm (h _)
  · exact absurd hm (h _)
  · simp [hm]

theorem merged_operand_value (v : ValueId) :
    (∃ x, s.merged = .replace v x ∧ s.merged.operand (.value v) = x) ∨
    ((∀ x, s.merged ≠ .replace v x) ∧ s.merged.operand (.value v) = .value v) := by
  cases hm : s.merged with
  | replace r x =>
    by_cases hv : v = r
    · subst hv
      exact .inl ⟨x, rfl, by simp [Merge.operand]⟩
    · refine .inr ⟨fun x' h => hv (Merge.replace.inj h).1.symm, ?_⟩
      simp [Merge.operand, hv]
  | nothing => exact .inr ⟨by simp, rfl⟩
  | phi o => exact .inr ⟨by simp, rfl⟩

theorem merged_operand_of_ne {y : Operand} (h : ∀ v, y ≠ .value v) : s.merged.operand y = y := by
  cases hm : s.merged with
  | replace r x => exact if_neg (h r)
  | nothing => rfl
  | phi o => rfl

theorem targets_blocks (hcaller : ∀ o ∈ caller.ops, ∀ t ∈ o.blocks, t ∈ caller.ids)
    (hcallee : ∀ o ∈ callee.ops, ∀ t ∈ o.blocks, t ∈ callee.ids) {o : Op}
    (ho : o ∈ s.blocks.flatMap Block.ops) {t : BlockId} (ht : t ∈ o.blocks) :
    t ∈ s.result.ids := by
  rw [mem_ids_result]
  rcases s.mem_ops_blocks.1 ho with ho | rfl | ho | ho
  · exact .inl (hcaller o (s.mem_ops_caller_of_mem_kept ho) t ht)
  · refine .inr (.inr ⟨s.entry.id, by simp [Function.ids, s.callee_eq], ?_⟩)
    have ht : t = s.names.block s.entry.id := by
      simpa [Op.void, Op.blocks, OpKind.blocks, OpKind.successors] using ht
    exact ht.symm
  · obtain ⟨o', ho', rfl⟩ := List.mem_map.1 ho
    rcases mem_blocks_copyOp ht with rfl | ⟨t', ht', rfl⟩
    · exact .inr (.inl rfl)
    · exact .inr (.inr ⟨t', hcallee o' ho' t' ht', rfl⟩)
  · obtain ⟨v, -, rfl⟩ := s.mem_mergeOps ho
    obtain ⟨⟨x, id⟩, hx, rfl⟩ := List.mem_map.1 ht
    obtain ⟨b, hb, rfl, -⟩ := s.mem_returns hx
    exact .inr (.inr ⟨b.id, List.mem_map_of_mem hb, rfl⟩)

theorem targets_result (hcaller : ∀ o ∈ caller.ops, ∀ t ∈ o.blocks, t ∈ caller.ids)
    (hcallee : ∀ o ∈ callee.ops, ∀ t ∈ o.blocks, t ∈ callee.ids) :
    ∀ o ∈ s.result.ops, ∀ t ∈ o.blocks, t ∈ s.result.ids := by
  intro o ho t ht
  obtain ⟨b, hb, x, hx, rfl⟩ := s.mem_ops_result.1 ho
  rcases s.mem_blocks_edit ht with ht | rfl
  · exact s.targets_blocks hcaller hcallee (List.mem_flatMap.2 ⟨b, hb, hx⟩) ht
  · exact s.mem_ids_result.2 (.inr (.inl rfl))

theorem calls_result {symbols : List String}
    (hcaller : ∀ o ∈ caller.ops, ∀ c, o.callee? = some c → c ∈ symbols)
    (hcallee : ∀ o ∈ callee.ops, ∀ c, o.callee? = some c → c ∈ symbols) :
    ∀ o ∈ s.result.ops, ∀ c, o.callee? = some c → c ∈ symbols := by
  intro o ho c hc
  obtain ⟨b, hb, x, hx, rfl⟩ := s.mem_ops_result.1 ho
  rw [callee?_edit] at hc
  rcases s.mem_ops_blocks.1 (List.mem_flatMap.2 ⟨b, hb, hx⟩) with hx | rfl | hx | hx
  · exact hcaller x (s.mem_ops_caller_of_mem_kept hx) c hc
  · cases hc
  · obtain ⟨x', hx', rfl⟩ := List.mem_map.1 hx
    rw [callee?_copyOp] at hc
    exact hcallee x' hx' c hc
  · obtain ⟨v, -, rfl⟩ := s.mem_mergeOps hx
    cases hc

theorem operands_call : s.call.operands = s.args := by
  rw [Op.operands, s.kind_eq]
  rfl

theorem callee?_call : s.call.callee? = some s.symbol := by
  rw [Op.callee?, s.kind_eq]
  rfl

theorem isTerminator_call : s.call.isTerminator = false := by
  simp [Op.isTerminator, s.kind_eq, OpKind.isTerminator]

/-- Only the second half of the split block has a terminator. -/
theorem closed_halves (h : ∀ b ∈ caller.blocks, IsClosed b.ops) :
    (∀ o ∈ s.head, o.isTerminator = false) ∧ IsClosed s.tail := by
  have hblock := h s.block (by simp [s.blocks_eq])
  rw [s.ops_eq] at hblock
  exact hblock.split s.isTerminator_call

theorem closed_blocks (hcaller : ∀ b ∈ caller.blocks, IsClosed b.ops)
    (hcallee : ∀ b ∈ callee.blocks, IsClosed b.ops) : ∀ b ∈ s.blocks, IsClosed b.ops := by
  obtain ⟨hhead, htail⟩ := s.closed_halves hcaller
  intro b hb
  simp only [blocks, List.append_assoc, List.cons_append, List.mem_append, List.mem_cons] at hb
  rcases hb with hb | rfl | hb | rfl | hb
  · exact hcaller b (by simp [s.blocks_eq, hb])
  · exact ⟨s.head, _, rfl, rfl, hhead⟩
  · obtain ⟨b', hb', rfl⟩ := List.mem_map.1 hb
    exact (hcallee b' hb').map (isTerminator_copyOp _ _)
  · rw [ops_last, mergeOps, merged]
    rcases merge_cases s.call (returns s.names callee) with
      ⟨hv, hm⟩ | ⟨v, hv, ⟨-, hm⟩ | ⟨x, b, -, hm⟩ | ⟨-, hm⟩⟩
    all_goals simp only [hm]
    · exact htail
    · exact htail
    · exact htail
    · exact htail.cons rfl
  · exact hcaller b (by simp [s.blocks_eq, hb])

theorem closed_result (hcaller : ∀ b ∈ caller.blocks, IsClosed b.ops)
    (hcallee : ∀ b ∈ callee.blocks, IsClosed b.ops) : ∀ b ∈ s.result.blocks, IsClosed b.ops := by
  intro b hb
  have hcode : (b.id, b.ops) ∈ s.result.code := List.mem_map_of_mem hb
  rw [code_result, List.mem_map] at hcode
  obtain ⟨b', hb', heq⟩ := hcode
  obtain ⟨-, hops⟩ := Prod.mk.inj heq
  rw [← hops]
  exact (s.closed_blocks hcaller hcallee b' hb').map (s.isTerminator_edit b'.id)

theorem framed_result {symbols : List String} (hcaller : caller.Framed symbols)
    (hcallee : callee.Framed symbols) : s.result.Framed symbols where
  nonempty hnil := by
    have := s.ids_result
    simp [Function.ids, hnil, blocks] at this
  ids_nodup := s.ids_result_nodup hcaller.ids_nodup hcallee.ids_nodup
  definitions_nodup :=
    s.definitions_result_nodup hcaller.definitions_nodup hcallee.definitions_nodup
  closed := s.closed_result hcaller.closed hcallee.closed
  targets := s.targets_result hcaller.targets hcallee.targets
  edges b hb t ht := by
    have htargets := s.targets_result hcaller.targets hcallee.targets
    rw [result, Function.ops_relinked, Function.ids_relinked] at htargets
    rw [result, Function.ids_relinked]
    exact Function.mem_ids_of_mem_edges_relinked htargets hb ht
  calls := s.calls_result hcaller.calls hcallee.calls

end Splicing

end PassEngine.Inline
