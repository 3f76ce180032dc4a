import PassEngine.Proofs.Dialect.Relinked

namespace PassEngine.Dialect

namespace Function

/-- The recorded edges are the ones that the terminators make. -/
structure Linked (f : Function) : Prop where
  /-- Where a block may go: the targets of its terminator, in their order and each once. -/
  succs : ∀ b ∈ f.blocks, b.succs = ((b.terminator?.map Op.successors).getD []).eraseDups
  succs_nodup : ∀ b ∈ f.blocks, b.succs.Nodup
  /-- Where control may come from: the blocks that may go there, in their order. -/
  preds : ∀ b ∈ f.blocks, b.preds = (f.blocks.filter fun p => b.id ∈ p.succs).map Block.id
  preds_nodup : ∀ b ∈ f.blocks, b.preds.Nodup

variable {f : Function}

theorem ids_flow (f : Function) : (f.blocks.map Block.flow).map FlowNode.id = f.ids := by
  rw [List.map_map]
  rfl

theorem blocks_relinked_of_nodup (h : f.ids.Nodup) : f.relinked.blocks = f.blocks.map fun b =>
    b.linked (FlowNode.predsOf (f.blocks.map Block.flow) b.id) := by
  rw [blocks_relinked, FlowNode.preds_eq_map (by rwa [ids_flow]), List.map_map,
    List.zipWith_map_right, List.zipWith_self]
  rfl

/-- The predecessors among the blocks of a function are read off the recorded successors. -/
theorem predsOf_flow (h : f.ids.Nodup) (id : BlockId) :
    FlowNode.predsOf (f.blocks.map Block.flow) id =
      (f.relinked.blocks.filter fun p => id ∈ p.succs).map Block.id := by
  have hnodup : ((f.blocks.filter fun b => id ∈ b.flow.targets).map Block.id).Nodup :=
    (List.filter_sublist.map Block.id).nodup h
  have hflow : ((f.blocks.map Block.flow).filter fun n => id ∈ n.targets).map FlowNode.id =
      (f.blocks.filter fun b => id ∈ b.flow.targets).map Block.id := by
    rw [List.filter_map, List.map_map]
    rfl
  rw [FlowNode.predsOf, hflow, eraseDups_eq_self hnodup, blocks_relinked_of_nodup h,
    List.filter_map, List.map_map]
  refine congrArg (List.map Block.id) (List.filter_congr fun b _ => ?_)
  simp [Block.linked, FlowNode.mem_succs]

theorem linked_relinked (h : f.ids.Nodup) : f.relinked.Linked := by
  have hblock {b : Block} (hb : b ∈ f.relinked.blocks) :
      ∃ b' ∈ f.blocks, b = b'.linked (FlowNode.predsOf (f.blocks.map Block.flow) b'.id) := by
    rw [blocks_relinked_of_nodup h, List.mem_map] at hb
    obtain ⟨b', hb', rfl⟩ := hb
    exact ⟨b', hb', rfl⟩
  constructor
  · intro b hb
    obtain ⟨b, -, rfl⟩ := hblock hb
    exact FlowNode.succs_eq b.flow
  · intro b hb
    obtain ⟨b, -, rfl⟩ := hblock hb
    rw [Block.linked, FlowNode.succs_eq]
    exact nodup_eraseDups b.flow.targets
  · intro b hb
    obtain ⟨b, -, rfl⟩ := hblock hb
    exact predsOf_flow h b.id
  · intro b hb
    obtain ⟨b, -, rfl⟩ := hblock hb
    exact nodup_eraseDups _

/-- Where control may go is a matter of the code alone. -/
theorem flow_relinked (f : Function) :
    f.relinked.blocks.map Block.flow = f.blocks.map Block.flow := by
  have hcode (f : Function) : f.blocks.map Block.flow =
      f.code.map fun (id, ops) => Block.flow { id, ops } := by
    rw [code, List.map_map]
    rfl
  rw [hcode, code_relinked, ← hcode]

theorem relinked_relinked (f : Function) : f.relinked.relinked = f.relinked := by
  have hblocks : f.relinked.relinked.blocks = f.relinked.blocks := by
    rw [blocks_relinked, flow_relinked, blocks_relinked,
      zipWith_zipWith_of_eq (f := Block.linked) fun _ _ => rfl]
  calc f.relinked.relinked = { f.relinked with blocks := f.relinked.relinked.blocks } := rfl
    _ = f.relinked := by rw [hblocks]

@[simp]
theorem definitions_relinked (f : Function) : f.relinked.definitions = f.definitions := by
  rw [definitions, ops_relinked]
  rfl

theorem Framed.relinked {symbols : List String} (h : f.Framed symbols) :
    f.relinked.Framed symbols where
  nonempty hnil := by
    have hids : f.ids = [] := by rw [← ids_relinked, ids, hnil, List.map_nil]
    exact h.nonempty (List.map_eq_nil_iff.1 hids)
  ids_nodup := by simpa using h.ids_nodup
  definitions_nodup := by simpa using h.definitions_nodup
  closed b hb := by
    have hcode : (b.id, b.ops) ∈ f.code := by
      rw [← code_relinked]
      exact List.mem_map_of_mem hb
    obtain ⟨b', hb', heq⟩ := List.mem_map.1 hcode
    rw [← (Prod.mk.inj heq).2]
    exact h.closed b' hb'
  targets := by simpa using h.targets
  edges b hb t ht := by
    rw [ids_relinked]
    exact mem_ids_of_mem_edges_relinked h.targets hb ht
  calls := by simpa using h.calls

theorem fault?_relinked {symbols : List String} (h : f.fault? symbols = none) :
    f.relinked.fault? symbols = none := by
  rw [fault?_eq_none_iff] at h ⊢
  rcases h with ⟨hexternal, hnil⟩ | ⟨hexternal, hframed, hscoped⟩
  · exact .inl ⟨hexternal, by rw [blocks_relinked, hnil]; rfl⟩
  · refine .inr ⟨hexternal, hframed.relinked, ?_⟩
    rw [Scoped, ops_relinked, definitions_relinked]
    exact hscoped

/-- In a function whose blocks have distinct ids the edges that are recorded are those that the
terminators make. Nothing else of the function changes, to record them once more changes nothing,
and the verifier still accepts the function if it did before. -/
theorem relinked_exact (h : f.ids.Nodup) :
    f.relinked.Linked ∧ f.relinked.code = f.code ∧
    f.relinked = { f with blocks := f.relinked.blocks } ∧ f.relinked.relinked = f.relinked ∧
    ∀ symbols, f.fault? symbols = none → f.relinked.fault? symbols = none :=
  ⟨linked_relinked h, f.code_relinked, rfl, f.relinked_relinked, fun _ => fault?_relinked⟩

/-- A loop with both arms of a branch to one block, and edges that were never there. -/
def spinning : Function where
  symbol := "spin"
  params := [(⟨0⟩, .bool)]
  ret := .void
  blocks := [
    { id := ⟨4⟩, ops := [.void (.condBr (.value ⟨0⟩) ⟨2⟩ ⟨2⟩)], preds := [⟨2⟩, ⟨2⟩] },
    { id := ⟨2⟩, ops := [.void (.condBr (.value ⟨0⟩) ⟨2⟩ ⟨7⟩)], succs := [⟨4⟩] },
    { id := ⟨7⟩, ops := [.void (.ret none)], preds := [⟨7⟩] }]

theorem relinked_exact_spinning : spinning.ids.Nodup ∧ spinning.fault? ["spin"] = none ∧
    spinning.relinked.blocks.map (fun b => (b.preds, b.succs)) =
      [([], [⟨2⟩]), ([⟨4⟩, ⟨2⟩], [⟨2⟩, ⟨7⟩]), ([⟨2⟩], [])] ∧
    spinning.relinked.Linked ∧ spinning.relinked.code = spinning.code ∧
    spinning.relinked.relinked = spinning.relinked ∧
    spinning.relinked.fault? ["spin"] = none := by
  have hids : spinning.ids.Nodup := by decide
  have hfault : spinning.fault? ["spin"] = none := by decide +kernel
  obtain ⟨hlinked, hcode, -, htwice, hverify⟩ := relinked_exact hids
  exact ⟨hids, hfault, by decide +kernel, hlinked, hcode, htwice, hverify _ hfault⟩

end Function

end PassEngine.Dialect
