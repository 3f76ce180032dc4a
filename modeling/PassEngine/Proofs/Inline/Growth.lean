import PassEngine.Proofs.Dialect.CallSites
import PassEngine.Proofs.Inline.Run

namespace PassEngine

namespace Dialect

theorem countP_add_countP_le {α : Type} {p q r : α → Bool} (hp : ∀ a, p a = true → r a = true)
    (hq : ∀ a, q a = true → r a = true) (hpq : ∀ a, p a = true → q a = false) (l : List α) :
    l.countP p + l.countP q ≤ l.countP r := by
  induction l with
  | nil => simp
  | cons a l ih =>
    simp only [List.countP_cons]
    have ha := hp a
    have ha' := hq a
    have hne := hpq a
    grind

def OpKind.isReturn : OpKind → Bool
  | ret .. => true
  | _ => false

namespace Function

theorem op?_eq_code (f : Function) (i j : Nat) : f.op? i j = f.code[i]?.bind (·.2[j]?) := by
  rw [code, List.getElem?_map, Option.bind_map]
  rfl

def returnCount (f : Function) : Nat :=
  f.ops.countP fun o => o.kind.isReturn

theorem returnCount_le_size (f : Function) : f.returnCount ≤ f.size := by
  refine List.countP_mono_left fun o _ => ?_
  cases hk : o.kind <;> simp [OpKind.isReturn, Op.isAnnotation, hk, OpKind.isAnnotation]

/-- Calls count, and so does where a block ends. -/
theorem Framed.calls_lt_size {symbols : List String} {f : Function} (h : f.Framed symbols) :
    f.ops.countP (·.callee?.isSome) < f.size := by
  have hends : 0 < f.ops.countP Op.isTerminator := by
    obtain ⟨b, rest, hblocks⟩ := List.exists_cons_of_ne_nil h.nonempty
    have hb : b ∈ f.blocks := by simp [hblocks]
    obtain ⟨body, last, hops, hlast, -⟩ := h.closed b hb
    exact List.countP_pos_iff.2 ⟨last, List.mem_flatMap.2 ⟨b, hb, by simp [hops]⟩, hlast⟩
  have hsum : f.ops.countP (·.callee?.isSome) + f.ops.countP Op.isTerminator ≤ f.size := by
    apply countP_add_countP_le
    all_goals
      intro o
      cases hk : o.kind <;> simp [Op.callee?, OpKind.callee?, Op.isTerminator, OpKind.isTerminator,
        Op.isAnnotation, OpKind.isAnnotation, hk]
  omega

end Function

end Dialect

namespace Inline

open Dialect

theorem isAnnotation_copyOp (r : Renaming) (cont : BlockId) (o : Op) :
    Op.isAnnotation (copyOp r cont o) = o.isAnnotation := by
  rcases eq_ret_or_ne_ret o with ⟨value, h⟩ | h
  · rw [copyOp_of_ret h, Op.isAnnotation, Op.isAnnotation, h]
    rfl
  · rw [copyOp_of_ne_ret h]
    simp [Renaming.op, Op.isAnnotation]

theorem isReturn_copyOp (r : Renaming) (cont : BlockId) (o : Op) :
    (copyOp r cont o).kind.isReturn = false := by
  cases hk : o.kind <;>
    simp [copyOp, Renaming.op, hk, OpKind.mapOperands, OpKind.mapBlocks, OpKind.isReturn, Op.void]

theorem length_returns (r : Renaming) (callee : Function) :
    (returns r callee).length = callee.returnCount := by
  simp only [returns, Function.returnCount, Function.ops, List.length_flatMap, List.countP_flatMap,
    List.length_filterMap_eq_countP]
  congr 1
  refine List.map_congr_left fun b _ => ?_
  refine List.countP_congr fun o _ => ?_
  cases hk : o.kind <;> simp [OpKind.isReturn]

namespace Splicing

variable {caller callee : Function} (s : Splicing caller callee)

@[simp]
theorem isAnnotation_edit (id : BlockId) (o : Op) :
    Op.isAnnotation (s.edit id o) = o.isAnnotation := by
  rw [edit, Op.isAnnotation_mapOperands, redirectOp]
  split
  · rw [Op.isAnnotation_mapBlocks]
  · rfl

theorem isReturn_edit (id : BlockId) (o : Op) :
    (s.edit id o).kind.isReturn = o.kind.isReturn := by
  rw [edit, redirectOp]
  split <;> cases hk : o.kind <;>
    simp [Op.mapOperands, Op.mapBlocks, hk, OpKind.mapOperands, OpKind.mapBlocks, OpKind.isReturn]

theorem countP_ops_result {p : Op → Bool} (hp : ∀ id o, p (s.edit id o) = p o) :
    s.result.ops.countP p = s.kept.countP p +
      ([.void (.br (s.names.block s.entry.id))].countP p + s.copied.countP p +
        s.mergeOps.countP p) := by
  have hblocks : s.result.ops.countP p = (s.blocks.flatMap Block.ops).countP p := by
    simp [Function.ops_eq_flatMap_code, code_result, List.flatMap_map, List.countP_flatMap,
      Function.comp_def, List.countP_map, hp]
  rw [hblocks, s.ops_blocks_perm.countP_eq]
  simp only [List.countP_append, List.countP_cons, List.countP_nil]
  omega

/-- The phi is there when the value of the call is wanted and there are several returns that may
give it. -/
theorem length_mergeOps : s.mergeOps.length =
    if s.call.result.isSome = true ∧ 2 ≤ callee.returnCount then 1 else 0 := by
  rw [← length_returns s.names callee, mergeOps, merged]
  rcases merge_cases s.call (returns s.names callee) with
    ⟨hv, hm⟩ | ⟨v, hv, ⟨hrets, hm⟩ | ⟨x, b, hrets, hm⟩ | ⟨hrets, hm⟩⟩
  all_goals rw [hm]
  · simp [hv]
  · simp [hrets]
  · simp [hrets]
  · simp [hv, hrets]

/-- The body takes the place of the call, each return becomes a jump, and there is one jump more and
perhaps a phi. -/
theorem size_result : s.result.size = caller.size + callee.size + s.mergeOps.length := by
  have hcaller : caller.size = 1 + s.kept.countP fun o => !o.isAnnotation := by
    rw [Function.size, s.ops_caller_perm.countP_eq, List.countP_cons_of_pos, Nat.add_comm]
    simp [s.kind_eq, Op.isAnnotation, OpKind.isAnnotation]
  have hcopied : (s.copied.countP fun o => !o.isAnnotation) = callee.size := by
    simp [copied, Function.size, List.countP_map, Function.comp_def, isAnnotation_copyOp]
  have hmerge : (s.mergeOps.countP fun o => !o.isAnnotation) = s.mergeOps.length := by
    rw [List.countP_eq_length]
    intro o ho
    obtain ⟨v, -, rfl⟩ := s.mem_mergeOps ho
    rfl
  have hjump : ([.void (.br (s.names.block s.entry.id))].countP fun o : Op =>
      !o.isAnnotation) = 1 := rfl
  rw [Function.size, s.countP_ops_result (by simp), hcaller, hcopied, hmerge, hjump]
  omega

theorem returnCount_result : s.result.returnCount = caller.returnCount := by
  have hcaller : caller.returnCount = s.kept.countP fun o => o.kind.isReturn := by
    rw [Function.returnCount, s.ops_caller_perm.countP_eq, List.countP_cons_of_neg]
    simp [s.kind_eq, OpKind.isReturn]
  have hcopied : (s.copied.countP fun o => o.kind.isReturn) = 0 := by
    simp [copied, List.countP_map, Function.comp_def, isReturn_copyOp]
  have hmerge : (s.mergeOps.countP fun o => o.kind.isReturn) = 0 := by
    rw [List.countP_eq_zero]
    intro o ho
    obtain ⟨v, -, rfl⟩ := s.mem_mergeOps ho
    simp [OpKind.isReturn]
  rw [Function.returnCount, s.countP_ops_result s.isReturn_edit, hcaller, hcopied, hmerge]
  simp [Op.void, OpKind.isReturn]

theorem op?_result_eq (i j : Nat) : s.result.op? i j =
    s.blocks[i]?.bind fun b => b.ops[j]?.map (s.edit b.id) := by
  rw [Function.op?_eq_code, code_result, List.getElem?_map]
  cases s.blocks[i]? <;> simp

theorem op?_result_of_lt {i j : Nat} (h : toLex (i, j) < toLex (s.before.length, s.head.length)) :
    ∃ id, s.result.op? i j = (caller.op? i j).map (s.edit id) := by
  have hblocks : s.blocks = s.before ++ (s.first :: s.copies ++ s.last :: s.after) := by
    simp [blocks]
  rw [op?_result_eq, hblocks, Function.op?, s.blocks_eq]
  rcases Prod.Lex.toLex_lt_toLex.1 h with hi | ⟨rfl, hj⟩
  · rw [List.getElem?_append_left hi, List.getElem?_append_left hi]
    cases s.before[i]? with
    | none => exact ⟨s.cont, rfl⟩
    | some b => exact ⟨b.id, rfl⟩
  · rw [List.getElem?_append_right (Nat.le_refl _), List.getElem?_append_right (Nat.le_refl _)]
    refine ⟨s.block.id, ?_⟩
    simp [first, s.ops_eq, List.getElem?_append_left hj]

theorem op?_caller : caller.op? s.before.length s.head.length = some s.call := by
  simp [Function.op?, s.blocks_eq, s.ops_eq]

end Splicing

variable {config : InlineConfig} {m m' : Module} {site : CallSite} {sites : List CallSite}

def valueAt (m : Module) (site : CallSite) : Option ValueId :=
  m.functions[site.caller]?.bind fun f => (f.op? site.block site.op).bind Op.result

def calleeSize (m : Module) (site : CallSite) : Nat :=
  (m.functions[site.callee]?.map Function.size).getD 0

def needsPhi (m : Module) (site : CallSite) : Bool :=
  (valueAt m site).isSome && m.functions[site.callee]?.any fun f => 2 ≤ f.returnCount

/-- One call grows its caller by the callee, and by a phi if one is needed. -/
theorem caller_inlineSite (h : inlineSite m site = .ok m') {f : Function}
    (hf : m.functions[site.caller]? = some f) :
    ∃ f', m'.functions = m.functions.set site.caller f' ∧
      f'.size = f.size + calleeSize m site + (needsPhi m site).toNat ∧
      ∀ i j, toLex (i, j) < site.position →
        (f'.op? i j).bind Op.result = (f.op? i j).bind Op.result := by
  obtain ⟨caller, callee, hcaller, hcallee, s, hblock, hop, rfl⟩ := inlineSite_cases h
  rw [hf] at hcaller
  cases hcaller
  refine ⟨s.result, rfl, ?_, fun i j hlt => ?_⟩
  · have hcall : f.op? site.block site.op = some s.call := by
      rw [← hblock, ← hop, s.op?_caller]
    have hphi : needsPhi m site =
        decide (s.call.result.isSome = true ∧ 2 ≤ callee.returnCount) := by
      simp [needsPhi, valueAt, hf, hcallee, hcall]
    have hadded : calleeSize m site = callee.size := by simp [calleeSize, hcallee]
    rw [s.size_result, s.length_mergeOps, hadded, hphi]
    split <;> simp [*]
  · rw [CallSite.position, ← hblock, ← hop] at hlt
    obtain ⟨id, hid⟩ := s.op?_result_of_lt hlt
    rw [hid, Option.bind_map]
    congr 1
    funext o
    simp

/-- The calls of one function, the last one first, grow it by the sum of what each one adds. -/
theorem caller_foldlM_inlineSite {c : Nat} {f : Function} (hf : m.functions[c]? = some f)
    (hsites : ∀ t ∈ sites, t.caller = c ∧ t.callee ≠ c)
    (hsorted : sites.Pairwise (·.position < ·.position))
    (h : sites.reverse.foldlM inlineSite m = .ok m') :
    ∃ f', m'.functions = m.functions.set c f' ∧
      f'.size = f.size + (sites.map (calleeSize m)).sum + sites.countP (needsPhi m) ∧
      ∀ i j, (∀ t ∈ sites, toLex (i, j) < t.position) →
        (f'.op? i j).bind Op.result = (f.op? i j).bind Op.result := by
  induction sites generalizing m' with
  | nil =>
    cases h
    obtain ⟨hc, rfl⟩ := List.getElem?_eq_some_iff.1 hf
    exact ⟨m.functions[c], by rw [List.set_getElem_self], by simp, by simp⟩
  | cons t sites ih =>
    rw [List.reverse_cons, List.foldlM_append] at h
    obtain ⟨m₁, hm₁, h⟩ := bind_eq_ok_iff.1 h
    rw [List.foldlM_cons] at h
    obtain ⟨m₂, hm₂, h⟩ := bind_eq_ok_iff.1 h
    cases h
    rw [List.pairwise_cons] at hsorted
    obtain ⟨hfirst, hsorted⟩ := hsorted
    obtain ⟨f₁, hset, hsize, hresults⟩ := ih (fun t ht => hsites t (List.mem_cons_of_mem _ ht))
      hsorted hm₁
    obtain ⟨rfl, hcallee⟩ := hsites t List.mem_cons_self
    have hf₁ : m₁.functions[t.caller]? = some f₁ := by
      rw [hset, List.getElem?_set_self (List.getElem?_eq_some_iff.1 hf).1]
    obtain ⟨f', hset', hsize', hresults'⟩ := caller_inlineSite hm₂ hf₁
    -- The calls behind this one have changed neither what it calls nor whether it has a value.
    have hcallees : m₁.functions[t.callee]? = m.functions[t.callee]? := by
      rw [hset, List.getElem?_set_ne hcallee.symm]
    have hvalue : valueAt m₁ t = valueAt m t := by
      rw [valueAt, valueAt, hf₁, hf]
      exact hresults t.block t.op hfirst
    refine ⟨f', by rw [hset', hset, List.set_set], ?_, fun i j hlt => ?_⟩
    · have hadded : calleeSize m₁ t = calleeSize m t := by rw [calleeSize, hcallees, calleeSize]
      have hneeds : needsPhi m₁ t = needsPhi m t := by rw [needsPhi, hvalue, hcallees, needsPhi]
      have hphi : (if needsPhi m t = true then 1 else 0) = (needsPhi m t).toNat := by
        cases needsPhi m t <;> rfl
      rw [hsize', hsize, hadded, hneeds, List.map_cons, List.sum_cons, List.countP_cons, hphi]
      omega
    · rw [hresults' i j (hlt t List.mem_cons_self)]
      exact hresults i j fun t ht => hlt t (List.mem_cons_of_mem _ ht)

section Choice

variable {graph : CallGraph} {caller : Function} {size : Nat}

theorem choose_sublist : (choose config m graph caller size sites).Sublist sites := by
  fun_induction choose with
  | case1 => exact .slnil
  | case2 size site rest callee call hcall hcallee grown hfit ih => exact ih.cons_cons _
  | case3 size site rest callee call hcall hcallee grown hfit ih => exact ih.cons _
  | case4 size site rest h ih => exact ih.cons _

theorem isCandidate_of_mem_choose (h : site ∈ choose config m graph caller size sites) :
    ∃ callee call, m.functions[site.callee]? = some callee ∧
      caller.op? site.block site.op = some call ∧
      isCandidate config graph site call callee = true := by
  fun_induction choose with
  | case1 => simp at h
  | case2 size t rest callee call hcall hcallee grown hfit ih =>
    rcases List.mem_cons.1 h with rfl | h
    · exact ⟨callee, call, hcallee, hcall, hfit.1⟩
    · exact ih h
  | case3 size t rest callee call hcall hcallee grown hfit ih => exact ih h
  | case4 size t rest hnone ih => exact ih h

/-- What is chosen keeps the limit, as far as the callees' sizes go. -/
theorem size_choose_le (h : choose config m graph caller size sites ≠ []) :
    size + ((choose config m graph caller size sites).map (calleeSize m)).sum ≤
      config.maxCallerSize := by
  fun_induction choose with
  | case1 => exact absurd rfl h
  | case2 size t rest callee call hcall hcallee grown hfit ih =>
    have hsize : calleeSize m t = callee.size := by simp [calleeSize, hcallee]
    rw [List.map_cons, List.sum_cons, hsize, ← Nat.add_assoc]
    by_cases hrest : choose config m graph caller grown rest = []
    · simpa [hrest] using hfit.2
    · exact ih hrest
  | case3 size t rest callee call hcall hcallee grown hfit ih => exact ih h
  | case4 size t rest hnone ih => exact ih h

end Choice

end Inline

end PassEngine
