import Mathlib.Data.List.Basic
import PassEngine.Dialect.Module

namespace PassEngine.Dialect

namespace OpKind

variable (f g : Operand → Operand) (h : BlockId → BlockId) (k : OpKind)

@[simp]
theorem operands_mapOperands : (k.mapOperands f).operands = k.operands.map f := by
  cases k <;> simp [mapOperands, operands, Option.toList_map]

@[simp]
theorem blocks_mapOperands : (k.mapOperands f).blocks = k.blocks := by
  cases k <;> simp [mapOperands, blocks, successors]

@[simp]
theorem successors_mapOperands : (k.mapOperands f).successors = k.successors := by
  cases k <;> rfl

@[simp]
theorem isTerminator_mapOperands : (k.mapOperands f).isTerminator = k.isTerminator := by
  cases k <;> rfl

@[simp]
theorem isPhi_mapOperands : (k.mapOperands f).isPhi = k.isPhi := by
  cases k <;> rfl

@[simp]
theorem isAnnotation_mapOperands : isAnnotation (k.mapOperands f) = k.isAnnotation := by
  cases k <;> rfl

@[simp]
theorem callee?_mapOperands : (k.mapOperands f).callee? = k.callee? := by
  cases k <;> rfl

@[simp]
theorem operands_mapBlocks : (k.mapBlocks h).operands = k.operands := by
  cases k <;> simp [mapBlocks, operands]

@[simp]
theorem blocks_mapBlocks : (k.mapBlocks h).blocks = k.blocks.map h := by
  cases k <;> simp [mapBlocks, blocks, successors]

@[simp]
theorem successors_mapBlocks : (k.mapBlocks h).successors = k.successors.map h := by
  cases k <;> rfl

@[simp]
theorem isTerminator_mapBlocks : (k.mapBlocks h).isTerminator = k.isTerminator := by
  cases k <;> rfl

@[simp]
theorem isPhi_mapBlocks : (k.mapBlocks h).isPhi = k.isPhi := by
  cases k <;> rfl

@[simp]
theorem isAnnotation_mapBlocks : isAnnotation (k.mapBlocks h) = k.isAnnotation := by
  cases k <;> rfl

@[simp]
theorem callee?_mapBlocks : (k.mapBlocks h).callee? = k.callee? := by
  cases k <;> rfl

variable {f g k} in
/-- Only what `f` does to the operands that are there counts. -/
theorem mapOperands_congr (hfg : ∀ o ∈ k.operands, f o = g o) :
    k.mapOperands f = k.mapOperands g := by
  cases k <;> simp_all [mapOperands, operands]
  case alloca ty count => cases count <;> simp_all
  case phi incoming => exact fun o b ho => hfg o b ho
  case ret value => cases value <;> simp_all

theorem mapOperands_mapOperands : (k.mapOperands f).mapOperands g = k.mapOperands (g ∘ f) := by
  cases k <;> simp [mapOperands]

theorem mapOperands_id : k.mapOperands id = k := by
  cases k <;> simp [mapOperands]

theorem mapBlocks_id : k.mapBlocks id = k := by
  cases k <;> simp [mapBlocks]

theorem mapOperands_mapBlocks : (k.mapBlocks h).mapOperands f = (k.mapOperands f).mapBlocks h := by
  cases k <;> simp [mapOperands, mapBlocks]

theorem exists_ret_mapOperands_iff : (∃ x, k.mapOperands f = .ret x) ↔ ∃ x, k = .ret x := by
  cases k <;> simp [mapOperands]

theorem exists_ret_mapBlocks_iff : (∃ x, k.mapBlocks h = .ret x) ↔ ∃ x, k = .ret x := by
  cases k <;> simp [mapBlocks]

theorem callee?_eq_some_iff {k : OpKind} {callee : String} :
    k.callee? = some callee ↔ ∃ args known, k = .call callee args known := by
  cases k <;> simp [callee?]

end OpKind

namespace Op

variable (f : Operand → Operand) (h : BlockId → BlockId) (o : Op)

theorem mapOperands_id : o.mapOperands id = o := by
  rw [mapOperands, OpKind.mapOperands_id]

@[simp]
theorem result_mapOperands : (o.mapOperands f).result = o.result := rfl

@[simp]
theorem operands_mapOperands : (o.mapOperands f).operands = o.operands.map f :=
  OpKind.operands_mapOperands f o.kind

@[simp]
theorem blocks_mapOperands : (o.mapOperands f).blocks = o.blocks :=
  OpKind.blocks_mapOperands f o.kind

@[simp]
theorem successors_mapOperands : (o.mapOperands f).successors = o.successors :=
  OpKind.successors_mapOperands f o.kind

@[simp]
theorem isTerminator_mapOperands : (o.mapOperands f).isTerminator = o.isTerminator :=
  OpKind.isTerminator_mapOperands f o.kind

@[simp]
theorem isAnnotation_mapOperands : isAnnotation (o.mapOperands f) = o.isAnnotation :=
  OpKind.isAnnotation_mapOperands f o.kind

@[simp]
theorem callee?_mapOperands : (o.mapOperands f).callee? = o.callee? :=
  OpKind.callee?_mapOperands f o.kind

@[simp]
theorem result_mapBlocks : (o.mapBlocks h).result = o.result := rfl

@[simp]
theorem operands_mapBlocks : (o.mapBlocks h).operands = o.operands :=
  OpKind.operands_mapBlocks h o.kind

@[simp]
theorem blocks_mapBlocks : (o.mapBlocks h).blocks = o.blocks.map h :=
  OpKind.blocks_mapBlocks h o.kind

@[simp]
theorem isTerminator_mapBlocks : (o.mapBlocks h).isTerminator = o.isTerminator :=
  OpKind.isTerminator_mapBlocks h o.kind

@[simp]
theorem isAnnotation_mapBlocks : isAnnotation (o.mapBlocks h) = o.isAnnotation :=
  OpKind.isAnnotation_mapBlocks h o.kind

@[simp]
theorem callee?_mapBlocks : (o.mapBlocks h).callee? = o.callee? :=
  OpKind.callee?_mapBlocks h o.kind

theorem successors_subset_blocks : o.successors ⊆ o.blocks := by
  intro b hb
  cases hk : o.kind <;> simp_all [successors, blocks, OpKind.successors, OpKind.blocks]

theorem isTerminator_of_mem_successors {b : BlockId} (h : b ∈ o.successors) :
    o.isTerminator = true := by
  cases hk : o.kind <;> simp_all [successors, isTerminator, OpKind.successors, OpKind.isTerminator]

variable {o} in
theorem mem_operands_of_ret {x : Operand} (h : o.kind = .ret (some x)) : x ∈ o.operands := by
  rw [operands, h]
  exact List.mem_singleton_self _

theorem mem_uses_iff {v : ValueId} : v ∈ o.uses ↔ .value v ∈ o.operands := by
  rw [uses, List.mem_filterMap]
  constructor
  · rintro ⟨x, hx, hv⟩
    cases x <;> simp_all [Operand.value?]
  · intro hv
    exact ⟨_, hv, rfl⟩

end Op

end PassEngine.Dialect
