import PassEngine.Proofs.Dialect.CallSites
import PassEngine.Proofs.Inline.Validity

namespace PassEngine.Inline

open Dialect

theorem exists_find?_reverse_append_zip {α β : Type} [DecidableEq α] {xs : List α} {a : α}
    (before : List (α × β)) (ys : List β) (ha : a ∈ xs) (h : xs.length = ys.length) :
    ∃ y ∈ ys, ((before ++ xs.zip ys).reverse.find? (·.1 == a)).map (·.2) = some y := by
  obtain ⟨y, hy⟩ := exists_mem_zip ha ys h
  have hsome : ((xs.zip ys).reverse.find? (·.1 == a)).isSome = true :=
    List.find?_isSome.2 ⟨(a, y), List.mem_reverse.2 hy, by simp⟩
  obtain ⟨p, hp⟩ := Option.isSome_iff_exists.1 hsome
  have hmem := List.mem_reverse.1 (List.mem_of_find?_eq_some hp)
  refine ⟨p.2, (List.of_mem_zip hmem).2, ?_⟩
  rw [List.reverse_append, List.find?_append, hp]
  rfl

namespace Renaming

variable {callee : Function} (args : List Operand) (nextValue nextBlock : Nat)

/-- What the body defines stands for a fresh value, also where a parameter has the same id. -/
theorem exists_fresh_of_mem_results {v : ValueId} (hv : v ∈ callee.ops.filterMap Op.result) :
    ∃ w ∈ freshValues nextValue (callee.ops.filterMap Op.result).length,
      (ofCall callee args nextValue nextBlock).value? v = some (.value w) := by
  obtain ⟨x, hx, hfind⟩ := exists_find?_reverse_append_zip ((callee.params.map (·.1)).zip args)
    ((freshValues nextValue (callee.ops.filterMap Op.result).length).map Operand.value) hv (by simp)
  obtain ⟨w, hw, rfl⟩ := List.mem_map.1 hx
  exact ⟨w, hw, hfind⟩

theorem block_mem_freshBlocks {b : BlockId} (hb : b ∈ callee.ids) :
    (ofCall callee args nextValue nextBlock).block b ∈
      freshBlocks nextBlock callee.blocks.length := by
  obtain ⟨y, hy, hfind⟩ := exists_find?_reverse_append_zip []
    (freshBlocks nextBlock callee.blocks.length) hb (by simp [Function.ids])
  rw [List.nil_append] at hfind
  have hblock : (ofCall callee args nextValue nextBlock).block b = y :=
    congrArg (Option.getD · b) hfind
  rwa [hblock]

end Renaming

namespace Splicing

variable {caller callee : Function} (s : Splicing caller callee)

theorem definitions_result_subset : s.result.definitions ⊆ caller.definitions ++ s.fresh := by
  intro v hv
  rw [s.definitions_result_perm.mem_iff, List.mem_append, List.mem_append] at hv
  rw [List.mem_append, s.definitions_caller_perm.mem_iff, List.mem_append]
  rcases hv with (hv | hv) | hv
  · exact .inl (.inl hv)
  · exact .inl (.inr (s.results_mergeOps_sublist.subset hv))
  · obtain ⟨copy, hcopy, hresult⟩ := List.mem_filterMap.1 hv
    obtain ⟨o, ho, rfl⟩ := List.mem_map.1 hcopy
    rcases eq_ret_or_ne_ret o with ⟨value, hret⟩ | hret
    · rw [copyOp_of_ret hret] at hresult
      cases hresult
    · rw [copyOp_of_ne_ret hret] at hresult
      obtain ⟨u, hu, hresult⟩ := Option.bind_eq_some_iff.1 hresult
      obtain ⟨w, hw, hvalue⟩ := Renaming.exists_fresh_of_mem_results s.args caller.nextValue
        (caller.nextBlock + 1) (List.mem_filterMap.2 ⟨o, ho, hu⟩)
      rw [names, hvalue] at hresult
      cases hresult
      exact .inr hw

theorem ids_result_subset : s.result.ids ⊆
    caller.ids ++ s.cont :: freshBlocks (caller.nextBlock + 1) callee.blocks.length := by
  intro id hid
  rw [List.mem_append, List.mem_cons]
  refine (s.mem_ids_result.1 hid).imp_right (Or.imp_right ?_)
  rintro ⟨t, ht, rfl⟩
  exact Renaming.block_mem_freshBlocks s.args caller.nextValue (caller.nextBlock + 1) ht

end Splicing

/-- Ids are as many as a copy of `callee` takes, each once, and none is in use in `caller`. -/
structure FreshIds.NewIn (ids : FreshIds) (caller callee : Function) : Prop where
  values_length : ids.values.length = (callee.ops.filterMap Op.result).length
  blocks_length : (ids.cont :: ids.blocks).length = callee.blocks.length + 1
  values_nodup : ids.values.Nodup
  blocks_nodup : (ids.cont :: ids.blocks).Nodup
  values_new : ∀ v ∈ ids.values, v ∉ caller.definitions
  blocks_new : ∀ b ∈ ids.cont :: ids.blocks, b ∉ caller.ids

theorem newIn_of_freshIds {caller callee : Function} {ids : FreshIds}
    (h : freshIds caller callee = .ok ids) : ids.NewIn caller callee := by
  rw [freshIds_eq] at h
  split at h
  · next hroom =>
    cases h
    obtain ⟨hvalues, hblocks⟩ := hroom
    have hvaluesFit := Nat.le_of_lt hvalues
    have hblocksFit : caller.nextBlock + (callee.blocks.length + 1) ≤ idCount := by omega
    constructor
    case values_length => simp
    case blocks_length => simp
    case values_nodup => exact freshValues_nodup hvaluesFit
    case blocks_nodup =>
      rw [← freshBlocks_succ]
      exact freshBlocks_nodup hblocksFit
    case values_new => exact fun v hv => not_mem_definitions_of_mem_freshValues hvaluesFit hv
    case blocks_new =>
      rw [← freshBlocks_succ]
      exact fun b hb => not_mem_ids_of_mem_freshBlocks hblocksFit hb
  · cases h

/-- Replacing a call by a body overflows exactly if one of the two counters would have to go past
the last id. Otherwise the ids that are handed out are new, and whatever the function has afterwards
beyond what it had is among them. -/
theorem splice_overflow_exact {caller : Function} (callee : Function) {i j : Nat} {call : Op}
    {symbol : String} {args : List Operand} {known : Bool} (hcall : caller.op? i j = some call)
    (hkind : call.kind = .call symbol args known) :
    (splice caller i j callee = .error .overflow ↔
      2 ^ 32 - 1 < caller.nextValue + (callee.ops.filterMap Op.result).length ∨
      2 ^ 32 - 1 < caller.nextBlock + 1 + callee.blocks.length) ∧
    (splice caller i j callee ≠ .error .overflow → ∃ ids, freshIds caller callee = .ok ids ∧
      ids.NewIn caller callee ∧ ∀ f, splice caller i j callee = .ok f →
        f.definitions ⊆ caller.definitions ++ ids.values ∧
        f.ids ⊆ caller.ids ++ ids.cont :: ids.blocks) := by
  obtain ⟨b, hb, hop⟩ := Function.op?_eq_some_iff.1 hcall
  have hoverflow : splice caller i j callee = .error .overflow ↔ ¬HasRoom caller callee :=
    splice_eq_overflow_iff hb hop hkind
  constructor
  · rw [hoverflow, HasRoom, show idCount = 2 ^ 32 from rfl]
    omega
  · intro hsplice
    have hroom : HasRoom caller callee := Decidable.not_not.1 (mt hoverflow.2 hsplice)
    have hids := freshIds_eq caller callee
    rw [if_pos hroom] at hids
    refine ⟨_, hids, newIn_of_freshIds hids, fun f hf => ?_⟩
    obtain ⟨s, -, -, rfl⟩ := Splicing.exists_of_splice hf
    exact ⟨s.definitions_result_subset, s.ids_result_subset⟩

/-- A caller with three ids left for values and three for blocks. -/
def brimful : Function where
  symbol := "brimful"
  params := [(⟨4294967292⟩, .int 32)]
  ret := .void
  blocks := [{ id := ⟨4294967292⟩
               ops := [.void (.call "loading" [] false), .void (.ret none)] }]

def loading (count : Nat) : Function where
  symbol := "loading"
  ret := .void
  blocks := [{ id := ⟨0⟩
               ops := (freshValues 0 count).map (⟨some ·, .int 32, .load .undef⟩) ++
                 [.void (.ret none)] }]

/-- Of three ids only two can be handed out, because the counter must go on after the last one. -/
theorem splice_overflow_exact_brimful :
    brimful.op? 0 0 = some (.void (.call "loading" [] false)) ∧
    splice brimful 0 0 (loading 3) = .error .overflow ∧
    splice brimful 0 0 (loading 2) ≠ .error .overflow ∧
    ∃ ids, freshIds brimful (loading 2) = .ok ids ∧ ids.NewIn brimful (loading 2) ∧
      ids = ⟨⟨4294967293⟩, [⟨4294967294⟩], [⟨4294967293⟩, ⟨4294967294⟩]⟩ := by
  have hcall : brimful.op? 0 0 = some (.void (.call "loading" [] false)) := rfl
  obtain ⟨hiff, hnew⟩ := splice_overflow_exact (loading 2) hcall rfl
  have hfits : splice brimful 0 0 (loading 2) ≠ .error .overflow :=
    mt hiff.1 (by decide +kernel)
  obtain ⟨ids, hids, hnewIn, -⟩ := hnew hfits
  have hfull : splice brimful 0 0 (loading 3) = .error .overflow :=
    (splice_overflow_exact (loading 3) hcall rfl).1.2 (.inl (by decide +kernel))
  refine ⟨hcall, hfull, hfits, ids, hids, hnewIn, ?_⟩
  have hdrawn : freshIds brimful (loading 2) =
      .ok ⟨⟨4294967293⟩, [⟨4294967294⟩], [⟨4294967293⟩, ⟨4294967294⟩]⟩ := by decide +kernel
  rw [hids] at hdrawn
  exact Except.ok.inj hdrawn

end PassEngine.Inline
