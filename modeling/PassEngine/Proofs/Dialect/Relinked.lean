import PassEngine.Proofs.Dialect.Operands
import PassEngine.Proofs.Dialect.WellFormed
import PassEngine.Proofs.Ir.Predecessors

namespace PassEngine

namespace Dialect.Block

/-- A block with these predecessors, and with the successors that its terminator gives it. -/
def linked (b : Block) (preds : List BlockId) : Block :=
  { b with preds, succs := b.flow.succs }

/-- Blocks that take their predecessors out of a table each get what is known of their id, where it
stands for the first time. -/
theorem linkAll_eq {t : PredTable} {known : BlockId → List BlockId} {seen : List BlockId}
    {blocks : List Block}
    (h : ∀ b ∈ blocks, t.getD b.id [] = if b.id ∈ seen then [] else known b.id) :
    linkAll t blocks =
      blocks.zipWith linked (FlowNode.atFirst known seen (blocks.map Block.id)) := by
  induction blocks generalizing t seen with
  | nil => rfl
  | cons b rest ih =>
    rw [linkAll, List.map_cons, FlowNode.atFirst, List.zipWith_cons_cons, ih]
    · rw [linked, h b List.mem_cons_self]
    · intro b' hb'
      rw [Std.TreeMap.getD_erase, h b' (List.mem_cons_of_mem _ hb')]
      by_cases hid : b.id = b'.id
      · simp [hid]
      · simp [hid, Ne.symm hid]

end Dialect.Block

namespace Dialect.Function

variable (f : Function)

theorem blocks_relinked : f.relinked.blocks =
    f.blocks.zipWith Block.linked (FlowNode.preds (f.blocks.map Block.flow)) := by
  have hids : (f.blocks.map Block.flow).map FlowNode.id = f.blocks.map Block.id := by
    simp [Block.flow]
  rw [relinked, FlowNode.preds, hids]
  apply Block.linkAll_eq
  intro b hb
  have hb : b.id ∈ (f.blocks.map Block.flow).map FlowNode.id := hids ▸ List.mem_map_of_mem hb
  rw [Std.TreeMap.getD_eq_getD_getElem?, PredTable.holds_ofNodes _ b.id hb]
  rfl

/-- The blocks without their recorded edges. -/
def code : List (BlockId × List Op) := f.blocks.map fun b => (b.id, b.ops)

theorem ids_eq_map_code : f.ids = f.code.map Prod.fst := by
  simp [ids, code]

theorem ops_eq_flatMap_code : f.ops = f.code.flatMap Prod.snd := by
  simp [ops, code, List.flatMap_map]

@[simp]
theorem code_relinked : f.relinked.code = f.code := by
  rw [code, code, blocks_relinked]
  apply map_zipWith_of_eq
  · intro b preds
    rfl
  · rw [FlowNode.length_preds, List.length_map]

@[simp]
theorem ids_relinked : f.relinked.ids = f.ids := by
  rw [ids_eq_map_code, code_relinked, ids_eq_map_code]

@[simp]
theorem ops_relinked : f.relinked.ops = f.ops := by
  rw [ops_eq_flatMap_code, code_relinked, ops_eq_flatMap_code]

theorem flow_targets_subset {b : Block} {t : BlockId} (ht : t ∈ b.flow.targets) :
    ∃ o ∈ b.ops, t ∈ o.blocks := by
  cases hterm : b.terminator? with
  | none => simp [Block.flow, hterm] at ht
  | some o =>
    have ht : t ∈ o.successors := by simpa [Block.flow, hterm] using ht
    rw [Block.terminator?, Option.filter_eq_some_iff] at hterm
    exact ⟨o, List.mem_of_getLast? hterm.1, o.successors_subset_blocks ht⟩

/-- The edges that are recorded lead to blocks of the function if the branches do. -/
theorem mem_ids_of_mem_edges_relinked {f : Function} (h : ∀ o ∈ f.ops, ∀ t ∈ o.blocks, t ∈ f.ids)
    {b : Block} (hb : b ∈ f.relinked.blocks) {t : BlockId} (ht : t ∈ b.preds ++ b.succs) :
    t ∈ f.ids := by
  rw [blocks_relinked] at hb
  obtain ⟨i, hi, rfl⟩ := List.getElem_of_mem hb
  rw [List.getElem_zipWith] at ht
  rcases List.mem_append.1 ht with hp | hs
  · have hids : f.ids = (f.blocks.map Block.flow).map FlowNode.id := by simp [ids, Block.flow]
    rw [hids]
    exact FlowNode.mem_ids_of_mem_preds (List.getElem_mem _) hp
  · obtain ⟨o, ho, ht⟩ := flow_targets_subset (FlowNode.mem_succs.1 hs)
    exact h o (List.mem_flatMap.2 ⟨_, List.getElem_mem _, ho⟩) t ht

end Dialect.Function

end PassEngine
