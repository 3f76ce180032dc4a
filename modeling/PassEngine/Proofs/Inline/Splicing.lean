import PassEngine.Proofs.Dialect.Relinked
import PassEngine.Proofs.Except
import PassEngine.Proofs.Inline.Renaming

namespace PassEngine.Inline

open Dialect

/-- What takes an operand's place once the value of the call is merged. -/
def Merge.operand (m : Merge) (o : Operand) : Operand :=
  match m with
  | .replace v x => if o = .value v then x else o
  | _ => o

/-- What becomes of an operation of block `id` when the phis of `targets` see `cont` instead of
`split`. -/
def redirectOp (targets : List BlockId) (split cont id : BlockId) (o : Op) : Op :=
  if id ∈ targets ∧ o.kind.isPhi then o.mapBlocks fun p => if p = split then cont else p else o

@[simp]
theorem id_redirectPhis (targets : List BlockId) (split cont : BlockId) (b : Block) :
    (redirectPhis targets split cont b).id = b.id := by
  rw [redirectPhis]
  split <;> rfl

theorem ops_redirectPhis (targets : List BlockId) (split cont : BlockId) (b : Block) :
    (redirectPhis targets split cont b).ops =
      b.ops.map (redirectOp targets split cont b.id) := by
  rw [redirectPhis]
  split
  · next h => exact List.map_congr_left fun o _ => by simp [redirectOp, h]
  · next h => exact (List.map_id'' (fun o => by simp [redirectOp, h]) b.ops).symm

@[simp]
theorem id_substitute (m : Merge) (b : Block) : (substitute m b).id = b.id := by
  cases m <;> rfl

theorem ops_substitute (m : Merge) (b : Block) :
    (substitute m b).ops = b.ops.map (Op.mapOperands m.operand) := by
  cases m with
  | replace v x => rfl
  | nothing => exact (List.map_id'' Op.mapOperands_id b.ops).symm
  | phi o => exact (List.map_id'' Op.mapOperands_id b.ops).symm

/-- How the value of a call is merged: with two or more returns by a phi, with fewer by another
operand. -/
theorem merge_cases (call : Op) (rets : List (Operand × BlockId)) :
    (call.result = none ∧ merge call rets = .nothing) ∨
    ∃ v, call.result = some v ∧
      ((rets = [] ∧ merge call rets = .replace v .undef) ∨
       (∃ x b, rets = [(x, b)] ∧ merge call rets = .replace v x) ∨
       (2 ≤ rets.length ∧ merge call rets = .phi ⟨some v, call.ty, .phi rets⟩)) := by
  cases hv : call.result with
  | none => exact .inl ⟨rfl, by simp [merge, hv]⟩
  | some v =>
    refine .inr ⟨v, rfl, ?_⟩
    match rets with
    | [] => exact .inl ⟨rfl, by simp [merge, hv]⟩
    | [(x, b)] => exact .inr (.inl ⟨x, b, rfl, by simp [merge, hv]⟩)
    | p :: q :: rest => exact .inr (.inr ⟨by simp, by simp [merge, hv]⟩)

theorem eq_take_append_cons_drop {α : Type} {l : List α} {i : Nat} {a : α} (h : l[i]? = some a) :
    l = l.take i ++ a :: l.drop (i + 1) ∧ (l.take i).length = i := by
  obtain ⟨hi, rfl⟩ := List.getElem?_eq_some_iff.1 h
  constructor
  · rw [List.getElem_cons_drop, List.take_append_drop]
  · rw [List.length_take]
    omega

/-- A call in `caller` taken apart together with the body of `callee`, so that the body can take the
place of the call. -/
structure Splicing (caller callee : Function) where
  before : List Block
  block : Block
  after : List Block
  head : List Op
  call : Op
  tail : List Op
  symbol : String
  args : List Operand
  known : Bool
  entry : Block
  rest : List Block
  blocks_eq : caller.blocks = before ++ block :: after
  ops_eq : block.ops = head ++ call :: tail
  kind_eq : call.kind = .call symbol args known
  callee_eq : callee.blocks = entry :: rest
  values_fit : caller.nextValue + (callee.ops.filterMap Op.result).length < idCount
  blocks_fit : caller.nextBlock + 1 + callee.blocks.length < idCount
  renamed : ∀ o ∈ callee.ops, ∀ v ∈ o.uses,
    ∃ x, (Renaming.ofCall callee args caller.nextValue (caller.nextBlock + 1)).value? v = some x

namespace Splicing

variable {caller callee : Function} (s : Splicing caller callee)

def cont (_ : Splicing caller callee) : BlockId := ⟨UInt32.ofNat caller.nextBlock⟩

def names : Renaming := .ofCall callee s.args caller.nextValue (caller.nextBlock + 1)

def merged : Merge := merge s.call (returns s.names callee)

def first : Block := { s.block with ops := s.head ++ [.void (.br (s.names.block s.entry.id))] }

def copies : List Block := callee.blocks.map (copyBlock s.names s.cont)

def last : Block := continuation s.cont s.merged s.tail

def blocks : List Block := s.before ++ s.first :: s.copies ++ s.last :: s.after

/-- What is done to the operations of block `id` after the copy is in place. -/
def edit (id : BlockId) (o : Op) : Op :=
  (redirectOp s.last.flow.targets s.block.id s.cont id o).mapOperands s.merged.operand

def result : Function :=
  Function.relinked { caller with
    blocks := (s.blocks.map (redirectPhis s.last.flow.targets s.block.id s.cont)).map
      (substitute s.merged) }

theorem exists_of_splice {i j : Nat} {f : Function} (h : splice caller i j callee = .ok f) :
    ∃ s : Splicing caller callee, s.before.length = i ∧ s.head.length = j ∧ f = s.result := by
  unfold splice at h
  cases hblock : caller.blocks[i]? with
  | none => simp [hblock] at h
  | some block =>
    cases hcall : block.ops[j]? with
    | none => simp [hblock, hcall] at h
    | some call =>
      simp only [hblock, hcall] at h
      split at h
      · next symbol args known hkind =>
        obtain ⟨ids, hids, h⟩ := bind_eq_ok_iff.1 h
        rw [freshIds_eq] at hids
        split at hids
        · next hroom =>
          cases hids
          split at h
          · cases h
          · next hrenamed =>
            split at h
            · next entry hentry =>
              cases h
              -- All checks passed: each of them gives a field.
              obtain ⟨hblocks, hi⟩ := eq_take_append_cons_drop hblock
              obtain ⟨hops, hj⟩ := eq_take_append_cons_drop hcall
              have hrenamed : ∀ o ∈ callee.ops, ∀ v ∈ o.uses, ∃ x, (Renaming.ofCall callee args
                  caller.nextValue (caller.nextBlock + 1)).value? v = some x := by
                intro o ho v hv
                have hnone := Option.eq_none_iff_forall_ne_some.2 hrenamed
                rw [List.find?_eq_none] at hnone
                have := hnone v (List.mem_flatMap.2 ⟨o, ho, hv⟩)
                exact Option.ne_none_iff_exists'.1 (by simpa [Renaming.ofCall] using this)
              refine ⟨{ before := caller.blocks.take i, block, after := caller.blocks.drop (i + 1)
                        head := block.ops.take j, call, tail := block.ops.drop (j + 1)
                        symbol, args, known, entry, rest := callee.blocks.tail
                        blocks_eq := hblocks, ops_eq := hops, kind_eq := hkind
                        callee_eq := (List.cons_head?_tail hentry).symm
                        values_fit := hroom.1, blocks_fit := hroom.2
                        renamed := hrenamed }, hi, hj, rfl⟩
            · cases h
        · cases hids
      · cases h

end Splicing

section Success

variable {caller callee : Function} {i j : Nat} {b : Block} {call : Op} {symbol : String}
  {args : List Operand} {known : Bool} (hblock : caller.blocks[i]? = some b)
  (hcall : b.ops[j]? = some call) (hkind : call.kind = .call symbol args known)

include hblock hcall hkind

theorem splice_eq_overflow (h : ¬HasRoom caller callee) :
    splice caller i j callee = .error .overflow := by
  simp only [splice, hblock, hcall, hkind, freshIds_eq, if_neg h]
  rfl

/-- After the ids are handed out, nothing overflows any more. -/
theorem splice_eq_overflow_iff :
    splice caller i j callee = .error .overflow ↔ ¬HasRoom caller callee := by
  refine ⟨fun h hroom => ?_, splice_eq_overflow hblock hcall hkind⟩
  simp only [splice, hblock, hcall, hkind, freshIds_eq, if_pos hroom, ok_bind] at h
  split at h
  · cases h
  · split at h <;> cases h

/-- With an argument for each parameter, a call cannot be replaced by a body only where ids run out
or the body reads a value that it does not define. -/
theorem splice_error_cases (hbody : callee.blocks ≠ [])
    (hargs : args.length = callee.params.length) {e : SpliceError}
    (h : splice caller i j callee = .error e) :
    (e = .overflow ∧ ¬HasRoom caller callee) ∨
      ∃ o ∈ callee.ops, ∃ v ∈ o.uses, v ∉ callee.definitions ∧
        e = .undefinedValue callee.symbol v := by
  by_cases hroom : HasRoom caller callee
  · obtain ⟨entry, rest, hentry⟩ := List.exists_cons_of_ne_nil hbody
    have hhead : callee.blocks.head? = some entry := by rw [hentry, List.head?_cons]
    simp only [splice, hblock, hcall, hkind, freshIds_eq, if_pos hroom, ok_bind, hhead] at h
    split at h
    · next v hv =>
      cases h
      obtain ⟨o, ho, huse⟩ := List.mem_flatMap.1 (List.mem_of_find?_eq_some hv)
      refine .inr ⟨o, ho, v, huse, fun hdefined => ?_, rfl⟩
      obtain ⟨x, hx⟩ := Renaming.exists_value?_ofCall hargs hdefined
      have hnone := List.find?_some hv
      rw [Option.isNone_iff_eq_none] at hnone
      exact Option.some_ne_none x (hx.symm.trans hnone)
    · cases h
  · rw [splice_eq_overflow hblock hcall hkind hroom] at h
    cases h
    exact .inl ⟨rfl, hroom⟩

theorem exists_splice (h : HasRoom caller callee) (hbody : callee.blocks ≠ [])
    (hscoped : callee.Scoped) (hargs : args.length = callee.params.length) :
    ∃ f, splice caller i j callee = .ok f := by
  refine exists_eq_ok_iff.2 fun e he => ?_
  rcases splice_error_cases hblock hcall hkind hbody hargs he with
    ⟨-, hroom⟩ | ⟨o, ho, v, hv, hundefined, -⟩
  · exact hroom h
  · exact hundefined (hscoped o ho v hv)

end Success

namespace Splicing

variable {caller callee : Function} (s : Splicing caller callee)

theorem code_result : s.result.code = s.blocks.map fun b => (b.id, b.ops.map (s.edit b.id)) := by
  rw [result, Function.code_relinked, Function.code]
  simp [edit, ops_substitute, ops_redirectPhis, Function.comp_def]

theorem ids_result : s.result.ids = s.blocks.map Block.id := by
  simp [Function.ids_eq_map_code, code_result]

theorem params_result : s.result.params = caller.params := rfl

theorem mem_ops_result {o : Op} :
    o ∈ s.result.ops ↔ ∃ b ∈ s.blocks, ∃ x ∈ b.ops, s.edit b.id x = o := by
  simp [Function.ops_eq_flatMap_code, code_result, List.mem_flatMap]

@[simp]
theorem result_edit (id : BlockId) (o : Op) : (s.edit id o).result = o.result := by
  rw [edit, Op.result_mapOperands, redirectOp]
  split <;> rfl

@[simp]
theorem isTerminator_edit (id : BlockId) (o : Op) :
    (s.edit id o).isTerminator = o.isTerminator := by
  rw [edit, Op.isTerminator_mapOperands, redirectOp]
  split
  · rw [Op.isTerminator_mapBlocks]
  · rfl

@[simp]
theorem callee?_edit (id : BlockId) (o : Op) : (s.edit id o).callee? = o.callee? := by
  rw [edit, Op.callee?_mapOperands, redirectOp]
  split
  · rw [Op.callee?_mapBlocks]
  · rfl

@[simp]
theorem operands_edit (id : BlockId) (o : Op) :
    (s.edit id o).operands = o.operands.map s.merged.operand := by
  rw [edit, Op.operands_mapOperands, redirectOp]
  split
  · rw [Op.operands_mapBlocks]
  · rfl

/-- A named block stays or is the split block, which the continuation replaces. -/
theorem mem_blocks_edit {id t : BlockId} {o : Op} (h : t ∈ (s.edit id o).blocks) :
    t ∈ o.blocks ∨ t = s.cont := by
  rw [edit, Op.blocks_mapOperands, redirectOp] at h
  split at h
  · rw [Op.blocks_mapBlocks, List.mem_map] at h
    obtain ⟨p, hp, rfl⟩ := h
    split
    · exact .inr rfl
    · exact .inl hp
  · exact .inl h

theorem filterMap_result_ops_result :
    s.result.ops.filterMap Op.result = (s.blocks.flatMap Block.ops).filterMap Op.result := by
  simp [Function.ops_eq_flatMap_code, code_result, List.flatMap_map, List.filterMap_flatMap,
    List.filterMap_map]

def kept : List Op :=
  s.before.flatMap Block.ops ++ s.head ++ s.tail ++ s.after.flatMap Block.ops

def mergeOps : List Op :=
  match s.merged with
  | .phi o => [o]
  | _ => []

theorem ops_last : s.last.ops = s.mergeOps ++ s.tail := by
  simp only [last, continuation, mergeOps]
  cases s.merged <;> rfl

theorem ops_caller_perm : caller.ops.Perm (s.call :: s.kept) := by
  have h : caller.ops = s.before.flatMap Block.ops ++ s.head ++
      s.call :: (s.tail ++ s.after.flatMap Block.ops) := by
    simp [Function.ops, s.blocks_eq, s.ops_eq]
  rw [h, kept, List.append_assoc _ s.tail]
  exact List.perm_middle

def copied : List Op := callee.ops.map (copyOp s.names s.cont)

theorem flatMap_ops_copies : s.copies.flatMap Block.ops = s.copied := by
  simp [copies, copied, copyBlock, Function.ops, List.flatMap_map, List.map_flatMap]

theorem ops_blocks_perm : (s.blocks.flatMap Block.ops).Perm
    (s.kept ++ (.void (.br (s.names.block s.entry.id)) :: s.copied ++ s.mergeOps)) := by
  rw [List.perm_iff_count]
  intro o
  simp only [blocks, first, kept, List.flatMap_append, List.flatMap_cons, flatMap_ops_copies,
    ops_last, List.count_append, List.cons_append, List.count_cons, List.count_nil]
  omega

end Splicing

end PassEngine.Inline
