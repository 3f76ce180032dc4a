import PassEngine.Proofs.Dialect.Operands
import PassEngine.Proofs.Inline.FreshIds

namespace PassEngine

namespace Inline

open Dialect

/-- Of distinct keys, each finds its own entry, in whatever order the entries stand. -/
theorem find?_reverse_eq_some_iff {α β : Type} [DecidableEq α] {l : List (α × β)}
    (h : (l.map Prod.fst).Nodup) {a : α} {b : β} :
    (l.reverse.find? (·.1 == a)).map (·.2) = some b ↔ (a, b) ∈ l := by
  constructor
  · intro hfind
    obtain ⟨p, hp, rfl⟩ := Option.map_eq_some_iff.1 hfind
    have hkey := List.find?_some hp
    have hmem := List.mem_of_find?_eq_some hp
    simp only [beq_iff_eq] at hkey
    subst hkey
    exact List.mem_reverse.1 hmem
  · intro hmem
    cases hfind : l.reverse.find? (·.1 == a) with
    | none =>
      have := List.find?_eq_none.1 hfind (a, b) (List.mem_reverse.2 hmem)
      simp at this
    | some p =>
      have hkey := List.find?_some hfind
      have hp := List.mem_reverse.1 (List.mem_of_find?_eq_some hfind)
      simp only [beq_iff_eq] at hkey
      -- An entry with this key was found, and there is only one.
      rw [List.inj_on_of_nodup_map h hp hmem hkey]
      rfl

theorem map_fst_zip_sublist {α β : Type} (xs : List α) (ys : List β) :
    ((xs.zip ys).map Prod.fst).Sublist xs := by
  induction xs generalizing ys with
  | nil => simp
  | cons x xs ih =>
    cases ys with
    | nil => simp
    | cons y ys => simpa using ih ys

theorem exists_mem_zip {α β : Type} {xs : List α} {a : α} (ha : a ∈ xs) (ys : List β)
    (h : xs.length = ys.length) : ∃ b, (a, b) ∈ xs.zip ys := by
  rw [← List.map_fst_zip (Nat.le_of_eq h)] at ha
  obtain ⟨⟨a', b⟩, hmem, rfl⟩ := List.mem_map.1 ha
  exact ⟨b, hmem⟩

namespace Renaming

/-- The renaming for ids in a row from two numbers on. -/
def ofCall (callee : Function) (args : List Operand) (nextValue nextBlock : Nat) : Renaming :=
  ofIds callee args (freshValues nextValue (callee.ops.filterMap Op.result).length)
    (freshBlocks nextBlock callee.blocks.length)

variable {callee : Function} {args : List Operand} {nextValue nextBlock : Nat}

/-- A parameter stands for its argument, and what the body defines for a fresh value. -/
theorem value?_ofCall (h : callee.definitions.Nodup) {v : ValueId} {x : Operand} :
    (ofCall callee args nextValue nextBlock).value? v = some x ↔
      (v, x) ∈ (callee.params.map (·.1)).zip args ∨
      (v, x) ∈ (callee.ops.filterMap Op.result).zip
        ((freshValues nextValue (callee.ops.filterMap Op.result).length).map Operand.value) := by
  rw [value?, ofCall, ofIds, find?_reverse_eq_some_iff, List.mem_append]
  rw [List.map_append]
  exact h.sublist ((map_fst_zip_sublist _ _).append (map_fst_zip_sublist _ _))

theorem map_value?_results (h : callee.definitions.Nodup) (args : List Operand)
    (nextValue nextBlock : Nat) :
    (callee.ops.filterMap Op.result).map (ofCall callee args nextValue nextBlock).value? =
      (freshValues nextValue (callee.ops.filterMap Op.result).length).map fun v =>
        some (.value v) := by
  apply List.ext_getElem (by simp)
  intro i hi hi'
  rw [List.length_map] at hi
  simp only [List.getElem_map]
  rw [value?_ofCall h]
  refine .inr (List.mem_iff_getElem.2 ⟨i, by simpa using hi, ?_⟩)
  simp

theorem exists_value?_of_mem {r : Renaming} {v : ValueId} {x : Operand} (h : (v, x) ∈ r.values) :
    ∃ y, r.value? v = some y := by
  have hfind : (r.values.find? (·.1 == v)).isSome = true := List.find?_isSome.2 ⟨(v, x), h, by simp⟩
  obtain ⟨p, hp⟩ := Option.isSome_iff_exists.1 hfind
  exact ⟨p.2, by rw [value?, hp, Option.map_some]⟩

theorem exists_value?_ofCall (hargs : args.length = callee.params.length) {v : ValueId}
    (hv : v ∈ callee.definitions) :
    ∃ x, (ofCall callee args nextValue nextBlock).value? v = some x := by
  rcases List.mem_append.1 hv with hv | hv
  · obtain ⟨x, hx⟩ := exists_mem_zip hv args (by simp [hargs])
    exact exists_value?_of_mem (List.mem_reverse.2 (List.mem_append_left _ hx))
  · obtain ⟨x, hx⟩ := exists_mem_zip hv
      ((freshValues nextValue (callee.ops.filterMap Op.result).length).map Operand.value) (by simp)
    exact exists_value?_of_mem (List.mem_reverse.2 (List.mem_append_right _ hx))

theorem map_block_ids (h : callee.ids.Nodup) :
    callee.ids.map (ofCall callee args nextValue nextBlock).block =
      freshBlocks nextBlock callee.ids.length := by
  apply List.ext_getElem (by simp)
  intro i hi hi'
  rw [List.length_map] at hi
  have hkeys : ((callee.ids.zip (freshBlocks nextBlock callee.ids.length)).map Prod.fst).Nodup :=
    h.sublist (map_fst_zip_sublist _ _)
  have hmem : (callee.ids[i], (freshBlocks nextBlock callee.ids.length)[i]) ∈
      callee.ids.zip (freshBlocks nextBlock callee.ids.length) :=
    List.mem_iff_getElem.2 ⟨i, by simpa using hi, by simp⟩
  have hfind := (find?_reverse_eq_some_iff hkeys).2 hmem
  have hlength : callee.ids.length = callee.blocks.length := List.length_map ..
  simp only [hlength] at hfind ⊢
  rw [List.getElem_map, block]
  exact congrArg (Option.getD · _) hfind

theorem operand_value {r : Renaming} {v : ValueId} {x : Operand} (h : r.value? v = some x) :
    r.operand (.value v) = x := by
  simp [operand, h]

end Renaming

section Copy

variable {r : Renaming} {cont : BlockId} {o : Op}

theorem copyOp_of_ret {value : Option Operand} (h : o.kind = .ret value) :
    copyOp r cont o = .void (.br cont) := by
  simp [copyOp, Renaming.op, h, OpKind.mapOperands, OpKind.mapBlocks]

theorem copyOp_of_ne_ret (h : ∀ value, o.kind ≠ .ret value) : copyOp r cont o = r.op o := by
  cases hk : o.kind <;> simp_all [copyOp, Renaming.op, OpKind.mapOperands, OpKind.mapBlocks]

theorem eq_ret_or_ne_ret (o : Op) :
    (∃ value, o.kind = .ret value) ∨ ∀ value, o.kind ≠ .ret value := by
  cases hk : o.kind <;> simp

theorem ne_ret_of_isPhi (h : o.kind.isPhi = true) (value : Option Operand) :
    o.kind ≠ .ret value := by
  intro hk
  rw [hk] at h
  cases h

@[simp]
theorem isTerminator_copyOp (r : Renaming) (cont : BlockId) (o : Op) :
    (copyOp r cont o).isTerminator = o.isTerminator := by
  rcases eq_ret_or_ne_ret o with ⟨value, h⟩ | h
  · rw [copyOp_of_ret h, Op.isTerminator, Op.isTerminator, h]
    rfl
  · rw [copyOp_of_ne_ret h]
    simp [Renaming.op, Op.isTerminator]

@[simp]
theorem callee?_copyOp (r : Renaming) (cont : BlockId) (o : Op) :
    (copyOp r cont o).callee? = o.callee? := by
  rcases eq_ret_or_ne_ret o with ⟨value, h⟩ | h
  · rw [copyOp_of_ret h, Op.callee?, Op.callee?, h]
    rfl
  · rw [copyOp_of_ne_ret h]
    simp [Renaming.op, Op.callee?]

/-- A copy names the copies of the blocks, or the continuation. -/
theorem mem_blocks_copyOp {t : BlockId} (h : t ∈ (copyOp r cont o).blocks) :
    t = cont ∨ ∃ t' ∈ o.blocks, r.block t' = t := by
  rcases eq_ret_or_ne_ret o with ⟨value, hret⟩ | hret
  · rw [copyOp_of_ret hret] at h
    exact .inl (by simpa [Op.void, Op.blocks, OpKind.blocks, OpKind.successors] using h)
  · rw [copyOp_of_ne_ret hret] at h
    exact .inr (by simpa [Renaming.op, Op.blocks] using h)

theorem mem_operands_copyOp {x : Operand} (h : x ∈ (copyOp r cont o).operands) :
    ∃ y ∈ o.operands, r.operand y = x := by
  rcases eq_ret_or_ne_ret o with ⟨value, hret⟩ | hret
  · rw [copyOp_of_ret hret] at h
    simp [Op.void, Op.operands, OpKind.operands] at h
  · rw [copyOp_of_ne_ret hret] at h
    simpa [Renaming.op, Op.operands] using h

end Copy

end Inline

end PassEngine
