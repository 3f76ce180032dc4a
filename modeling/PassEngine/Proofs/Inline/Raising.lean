import PassEngine.Proofs.Bridge.Raisable
import PassEngine.Proofs.Inline.Run

namespace PassEngine

namespace Dialect

def Operand.IsSymbol (x : Operand) : Prop := ∃ name, x = .func name

namespace OpKind

/-- The operands from which inlining may bring a function's name to where a call goes. -/
def exposed : OpKind → List Operand
  | call _ args _ => args
  | callIndirect target _ => [target]
  | ret value => value.toList
  | _ => []

theorem exposed_mapOperands (f : Operand → Operand) (k : OpKind) :
    (k.mapOperands f).exposed = k.exposed.map f := by
  cases k <;> simp [mapOperands, exposed, Option.toList_map]

theorem exposed_mapBlocks (g : BlockId → BlockId) (k : OpKind) :
    (k.mapBlocks g).exposed = k.exposed := by
  cases k <;> rfl

end OpKind

/-- No function's name is called through a pointer, passed to a call or returned. -/
def Function.HidesSymbols (f : Function) : Prop :=
  ∀ o ∈ f.ops, ∀ x ∈ o.kind.exposed, ¬x.IsSymbol

theorem Module.callsNoSymbol_of_hidesSymbols {m : Module}
    (h : ∀ f ∈ m.functions, f.HidesSymbols) : m.CallsNoSymbol := by
  rintro f hf o ho ⟨name, args, hk⟩
  refine h f hf o ho (.func name) ?_ ⟨name, rfl⟩
  rw [hk]
  exact List.mem_singleton_self _

end Dialect

namespace Inline

open Dialect

namespace Splicing

variable {caller callee : Function} (s : Splicing caller callee)

theorem shaped_edit (id : BlockId) (o : Op) : (s.edit id o).Shaped ↔ o.Shaped := by
  rw [edit, Op.shaped_mapOperands, redirectOp]
  split
  · rw [Op.shaped_mapBlocks]
  · rfl

theorem shaped_copyOp (h : callee.definitions.Nodup) {o : Op} (ho : o ∈ callee.ops)
    (hshaped : o.Shaped) : (copyOp s.names s.cont o).Shaped := by
  rcases eq_ret_or_ne_ret o with ⟨value, hret⟩ | hret
  · rw [copyOp_of_ret hret]
    rfl
  · -- A result keeps a result, so that the copy is the operation with other operands and blocks.
    have hresult : (s.names.op o).result.isSome = o.result.isSome := by
      cases hv : o.result with
      | none => simp [Renaming.op, hv]
      | some v =>
        obtain ⟨w, hw⟩ := s.exists_origin?_eq_some (List.mem_filterMap.2 ⟨o, ho, hv⟩)
        have hcopy := s.result_copyOp h hret hv hw
        rw [copyOp_of_ne_ret hret] at hcopy
        rw [hcopy]
        rfl
    rw [copyOp_of_ne_ret hret]
    have hcopy : s.names.op o = { (o.mapOperands s.names.operand).mapBlocks s.names.block with
        result := (s.names.op o).result } := rfl
    rw [hcopy, Op.shaped_congr_result (by simpa using hresult)]
    simpa using hshaped

theorem shaped_mergeOps (hcall : s.call.Shaped) {o : Op} (ho : o ∈ s.mergeOps) : o.Shaped := by
  obtain ⟨v, -, rfl⟩ := s.mem_mergeOps ho
  rw [Op.Shaped, s.kind_eq] at hcall
  exact ⟨rfl, hcall⟩

theorem shaped_result (h : callee.definitions.Nodup) (hcaller : caller.Shaped)
    (hcallee : callee.Shaped) : s.result.Shaped := by
  refine ⟨hcaller.ret, hcaller.params, fun o ho => ?_⟩
  obtain ⟨b, hb, x, hx, rfl⟩ := s.mem_ops_result.1 ho
  rw [shaped_edit]
  rcases s.mem_ops_blocks.1 (List.mem_flatMap.2 ⟨b, hb, hx⟩) with hx | rfl | hx | hx
  · exact hcaller.ops x (s.mem_ops_caller_of_mem_kept hx)
  · rfl
  · obtain ⟨x', hx', rfl⟩ := List.mem_map.1 hx
    exact s.shaped_copyOp h hx' (hcallee.ops x' hx')
  · exact s.shaped_mergeOps (hcaller.ops s.call s.call_mem_ops) hx

theorem isSymbol_names (h : callee.definitions.Nodup) (hcaller : caller.HidesSymbols)
    {x : Operand} (hx : (s.names.operand x).IsSymbol) : x.IsSymbol := by
  cases x with
  | value v =>
    obtain ⟨name, hname⟩ := hx
    cases hv : s.names.value? v with
    | none => simp [Renaming.operand, hv] at hname
    | some y =>
      rw [Renaming.operand_value hv] at hname
      subst hname
      rcases (s.value?_names h).1 hv with hmem | ⟨w, -, hw⟩
      · -- The symbol would be an argument of the call.
        refine absurd ⟨name, rfl⟩ (hcaller s.call s.call_mem_ops (.func name) ?_)
        rw [s.kind_eq]
        exact (List.of_mem_zip hmem).2
      · cases hw
  | _ => exact hx

theorem isSymbol_merged (h : callee.definitions.Nodup) (hcaller : caller.HidesSymbols)
    (hcallee : callee.HidesSymbols) {x : Operand} (hx : (s.merged.operand x).IsSymbol) :
    x.IsSymbol := by
  cases x with
  | value v =>
    rcases s.merged_operand_value v with ⟨y, hm, hy⟩ | ⟨-, hv⟩
    · rw [hy] at hx
      obtain ⟨-, rfl | ⟨o, ho, z, hk, rfl⟩⟩ := s.of_merged_eq_replace hm
      · obtain ⟨name, hname⟩ := hx
        cases hname
      · refine absurd (s.isSymbol_names h hcaller hx) (hcallee o ho z ?_)
        rw [hk]
        exact List.mem_singleton_self _
    · rwa [hv] at hx
  | _ => rwa [s.merged_operand_of_ne (by simp)] at hx

theorem exposed_edit (id : BlockId) (o : Op) :
    (s.edit id o).kind.exposed = o.kind.exposed.map s.merged.operand := by
  rw [edit, Op.mapOperands, OpKind.exposed_mapOperands, redirectOp]
  split
  · rw [Op.mapBlocks, OpKind.exposed_mapBlocks]
  · rfl

theorem hidesSymbols_result (h : callee.definitions.Nodup) (hcaller : caller.HidesSymbols)
    (hcallee : callee.HidesSymbols) : s.result.HidesSymbols := by
  intro o ho x hx hsymbol
  obtain ⟨b, hb, o, hob, rfl⟩ := s.mem_ops_result.1 ho
  rw [exposed_edit, List.mem_map] at hx
  obtain ⟨y, hy, rfl⟩ := hx
  have hsymbol := s.isSymbol_merged h hcaller hcallee hsymbol
  rcases s.mem_ops_blocks.1 (List.mem_flatMap.2 ⟨b, hb, hob⟩) with ho | rfl | ho | ho
  · exact hcaller o (s.mem_ops_caller_of_mem_kept ho) y hy hsymbol
  · simp [Op.void, OpKind.exposed] at hy
  · obtain ⟨o', ho', rfl⟩ := List.mem_map.1 ho
    rcases eq_ret_or_ne_ret o' with ⟨value, hret⟩ | hret
    · simp [copyOp_of_ret hret, Op.void, OpKind.exposed] at hy
    · rw [copyOp_of_ne_ret hret, Renaming.op, OpKind.exposed_mapBlocks, OpKind.exposed_mapOperands,
        List.mem_map] at hy
      obtain ⟨z, hz, rfl⟩ := hy
      exact hcallee o' ho' z hz (s.isSymbol_names h hcaller hsymbol)
  · obtain ⟨v, -, rfl⟩ := s.mem_mergeOps ho
    simp [OpKind.exposed] at hy

end Splicing

section Run

variable {m m' : Module} {site : CallSite}

theorem shaped_inlineSite (h : inlineSite m site = .ok m') (hm : m.Framed ∧ m.Shaped) :
    m'.Framed ∧ m'.Shaped := by
  obtain ⟨hframed, hshaped⟩ := hm
  refine ⟨framed_inlineSite h hframed, ?_⟩
  obtain ⟨caller, callee, hcaller, hcallee, s, -, -, rfl⟩ := inlineSite_cases h
  have hcaller := List.mem_of_getElem? hcaller
  have hcallee := List.mem_of_getElem? hcallee
  have hnodup := s.callee_definitions_nodup hframed hcaller hcallee
  refine ⟨hshaped.typeDefs, hshaped.globals, forall_mem_set hshaped.functions ?_⟩
  exact s.shaped_result hnodup (hshaped.functions caller hcaller) (hshaped.functions callee hcallee)

theorem hidesSymbols_inlineSite (h : inlineSite m site = .ok m')
    (hm : m.Framed ∧ ∀ f ∈ m.functions, f.HidesSymbols) :
    m'.Framed ∧ ∀ f ∈ m'.functions, f.HidesSymbols := by
  obtain ⟨hframed, hhides⟩ := hm
  refine ⟨framed_inlineSite h hframed, ?_⟩
  obtain ⟨caller, callee, hcaller, hcallee, s, -, -, rfl⟩ := inlineSite_cases h
  have hcaller := List.mem_of_getElem? hcaller
  have hcallee := List.mem_of_getElem? hcallee
  have hnodup := s.callee_definitions_nodup hframed hcaller hcallee
  refine forall_mem_set hhides ?_
  exact s.hidesSymbols_result hnodup (hhides caller hcaller) (hhides callee hcallee)

end Run

/-- What inlining makes of a host's module goes back to the host exactly when no call through a
pointer has got a function's name for its target. No call has if the module passed no such name to a
call and returned none. -/
theorem exists_raise_optimize_iff {m : Native.Module} {d : Module} (config : InlineConfig)
    (hlower : m.lower = .ok d) (hd : d.verify = .ok ())
    (hafter : (optimize config d).2.verify = .ok ()) :
    ((∃ n, (optimize config d).2.raise = .ok n) ↔ (optimize config d).2.CallsNoSymbol) ∧
    ((∀ f ∈ d.functions, f.HidesSymbols) → ∃ n, (optimize config d).2.raise = .ok n) := by
  obtain ⟨hframed, -⟩ := d.verify_eq_ok_iff.1 hd
  have hshaped := (optimize_induction (fun m m' site => shaped_inlineSite) config
    ⟨hframed, Module.shaped_of_lower hlower⟩).2
  refine ⟨Module.exists_raise_iff hshaped hafter, fun hhides => ?_⟩
  rw [Module.exists_raise_iff hshaped hafter]
  have := (optimize_induction (fun m m' site => hidesSymbols_inlineSite) config
    ⟨hframed, hhides⟩).2
  exact Module.callsNoSymbol_of_hidesSymbols this

/-- A function that calls through its parameter, and one that calls it with `target`. -/
def callback (target : Native.Value) : Native.Module where
  name := "callback"
  functions := [
    { name := "handler", returnType := .i32, isExternal := true },
    { name := "apply", returnType := .i32, params := [(⟨0⟩, .ptr (.func .i32 [] false))]
      blocks := [{ id := ⟨0⟩, instructions := [
        .call (some ⟨1⟩) (.temp ⟨0⟩) [] .i32 false, .ret (some (.temp ⟨1⟩))] }] },
    { name := "main", returnType := .i32, params := [(⟨0⟩, .ptr (.func .i32 [] false))]
      blocks := [{ id := ⟨0⟩, instructions := [
        .call (some ⟨1⟩) (.function "apply") [target] .i32 false, .ret (some (.temp ⟨1⟩))] }] }]

theorem exists_raise_optimize_callback : ∃ d, (callback (.temp ⟨0⟩)).lower = .ok d ∧
    d.verify = .ok () ∧ (optimize {} d).1 = .changed ∧ (optimize {} d).2.verify = .ok () ∧
    ∃ n, (optimize {} d).2.raise = .ok n := by
  have h : ∃ d, (callback (.temp ⟨0⟩)).lower = .ok d ∧ d.verify = .ok () ∧
      (optimize {} d).1 = .changed ∧ (optimize {} d).2.verify = .ok () ∧
      ∀ f ∈ d.functions, ∀ o ∈ f.ops, ∀ x ∈ o.kind.exposed, x = .value ⟨0⟩ ∨ x = .value ⟨1⟩ :=
    ⟨_, rfl, by decide +kernel, by decide +kernel, by decide +kernel, by decide +kernel⟩
  obtain ⟨d, hlower, hd, hchanged, hafter, hvalues⟩ := h
  refine ⟨d, hlower, hd, hchanged, hafter, (exists_raise_optimize_iff {} hlower hd hafter).2 ?_⟩
  rintro f hf o ho x hx ⟨name, rfl⟩
  rcases hvalues f hf o ho _ hx with h | h <;> cases h

/-- A function's name that is passed to a call takes the place of the pointer. -/
theorem raise_optimize_callback_symbol : ∃ d, (callback (.function "handler")).lower = .ok d ∧
    d.verify = .ok () ∧ (optimize {} d).1 = .changed ∧ (optimize {} d).2.verify = .ok () ∧
    (optimize {} d).2.raise =
      .error (.invalidOperation "main" "pin.call_indirect" .indirectSymbol) :=
  ⟨_, rfl, by decide +kernel, by decide +kernel, by decide +kernel, by decide +kernel⟩

end Inline

end PassEngine
