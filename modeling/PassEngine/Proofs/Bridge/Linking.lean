import PassEngine.Bridge.Lower
import PassEngine.Proofs.Dialect.Relinked
import PassEngine.Proofs.Except

namespace PassEngine

theorem getLast?_of_mapM {ε α β : Type} {f : α → Except ε β} {xs : List α} {ys : List β}
    (h : xs.mapM f = .ok ys) : (xs.getLast? = none ∧ ys.getLast? = none) ∨
      ∃ x y, xs.getLast? = some x ∧ ys.getLast? = some y ∧ f x = .ok y := by
  have hreverse := List.forall₂_reverse_iff.2 (mapM_eq_ok_iff.1 h)
  simp only [← List.head?_reverse]
  generalize xs.reverse = xs, ys.reverse = ys at hreverse
  cases hreverse with
  | nil => exact .inl ⟨rfl, rfl⟩
  | cons hxy _ => exact .inr ⟨_, _, rfl, rfl, hxy⟩

namespace Native

theorem Instruction.successors_of_lowerCall {target : Value} {args : List Dialect.Operand}
    {knownInlined : Bool} {kind : Dialect.OpKind}
    (h : lowerCall target args knownInlined = .ok kind) : kind.successors = [] := by
  cases target with
  | function callee =>
    cases h
    rfl
  | constArray ns => cases knownInlined <;> simp [lowerCall, Value.lower] at h
  | _ =>
    cases knownInlined <;> simp [lowerCall, Value.lower] at h
    subst h
    rfl

theorem Instruction.successors_of_lower {i : Instruction} {o : Dialect.Op} (h : i.lower = .ok o) :
    o.successors = i.successors := by
  cases i <;> simp only [lower, bind_eq_ok_iff, pure_eq_ok, Except.ok.injEq, reduceCtorEq] at h
  case binary result op lhs rhs ty =>
    obtain ⟨_, -, _, -, rfl⟩ := h
    cases op <;> rfl
  case unary result op operand ty =>
    obtain ⟨_, -, rfl⟩ := h
    cases op <;> rfl
  case call result target args ty knownInlined =>
    obtain ⟨_, -, _, hkind, rfl⟩ := h
    exact successors_of_lowerCall hkind
  case load | alloca | ret | condBr | phi | cast | intrinsic =>
    obtain ⟨_, -, rfl⟩ := h
    rfl
  case store | elementPtr =>
    obtain ⟨_, -, _, -, rfl⟩ := h
    rfl
  case select =>
    obtain ⟨_, -, _, -, _, -, rfl⟩ := h
    rfl
  case br | debugLoc | comment =>
    subst h
    rfl

namespace Block

/-- An operation that is no terminator goes nowhere, so it does not matter that only the dialect
asks whether the last one is a terminator. -/
theorem successors_of_isTerminator_eq_false {o : Dialect.Op} (h : o.isTerminator = false) :
    o.successors = [] := by
  obtain ⟨result, ty, kind⟩ := o
  cases kind with
  | ret => cases h
  | br => cases h
  | condBr => cases h
  | _ => rfl

theorem flow_of_lower {b : Block} {d : Dialect.Block} (h : b.lower = .ok d) : d.flow = b.flow := by
  obtain ⟨ops, hops, hd⟩ := bind_eq_ok_iff.1 h
  cases hd
  simp only [flow, Dialect.Block.flow, Dialect.Block.terminator?]
  rcases getLast?_of_mapM hops with ⟨hlast, hlast'⟩ | ⟨i, o, hlast, hlast', hlower⟩
  · rw [hlast, hlast']
    rfl
  · rw [hlast, hlast', Option.map_some, Option.getD_some, ← Instruction.successors_of_lower hlower]
    cases hterm : o.isTerminator with
    | true => simp [Option.filter, hterm]
    | false => simp [Option.filter, hterm, successors_of_isTerminator_eq_false hterm]

/-- A block with these predecessors, and with the successors that its last instruction gives it. -/
def linked (b : Block) (preds : List BlockId) : Block :=
  { b with preds, succs := b.flow.succs }

theorem lower_linked (b : Block) (preds : List BlockId) :
    (b.linked preds).lower = b.lower.map (·.linked preds) := by
  cases hops : b.instructions.mapM Instruction.lower with
  | error e => simp [lower, linked, hops, Except.map]
  | ok ops =>
    have hlower : b.lower = .ok { id := b.id, ops, preds := b.preds, succs := b.succs } := by
      simp [lower, hops]
    rw [hlower, Except.map, Dialect.Block.linked, flow_of_lower hlower]
    simp [lower, linked, hops]

theorem mapM_lower_linked {blocks : List Block} {ps : List (List BlockId)}
    (h : blocks.length = ps.length) : (blocks.zipWith linked ps).mapM lower =
      (blocks.mapM lower).map fun ds => ds.zipWith Dialect.Block.linked ps := by
  induction blocks generalizing ps with
  | nil => simp [Except.map]
  | cons b rest ih =>
    cases ps with
    | nil => cases h
    | cons p ps =>
      rw [List.zipWith_cons_cons, List.mapM_cons, lower_linked, ih (Nat.succ.inj h), List.mapM_cons]
      cases b.lower with
      | error e => rfl
      | ok d => cases rest.mapM lower <;> rfl

theorem map_flow_of_mapM {blocks : List Block} {ds : List Dialect.Block}
    (h : blocks.mapM lower = .ok ds) : ds.map Dialect.Block.flow = blocks.map flow := by
  rw [mapM_eq_ok_iff] at h
  induction h with
  | nil => rfl
  | cons hb _ ih => rw [List.map_cons, List.map_cons, flow_of_lower hb, ih]

end Block

namespace Function

theorem blocks_relinked (f : Function) : f.relinked.blocks =
    f.blocks.zipWith Block.linked (FlowNode.preds (f.blocks.map Block.flow)) := by
  have hpreds : (PredList.ofNodes (f.blocks.map Block.flow)).map Prod.snd =
      FlowNode.preds (f.blocks.map Block.flow) := by
    rw [PredList.holds_ofNodes, List.map_snd_zip]
    · rfl
    · simp [FlowNode.length_atFirst]
  rw [← hpreds, List.zipWith_map_right]
  rfl

theorem lowerBlocks_relinked (f : Function) : f.relinked.lowerBlocks = f.lowerBlocks.map fun ds =>
    ds.zipWith Dialect.Block.linked (FlowNode.preds (ds.map Dialect.Block.flow)) := by
  have hlength : f.blocks.length = (FlowNode.preds (f.blocks.map Block.flow)).length := by
    rw [FlowNode.length_preds, List.length_map]
  have hnil : f.relinked.blocks = [] ↔ f.blocks = [] := by
    rw [blocks_relinked, ← List.length_eq_zero_iff, List.length_zipWith, ← hlength, Nat.min_self,
      List.length_eq_zero_iff]
  have hexternal : f.relinked.isExternal = f.isExternal := rfl
  simp only [lowerBlocks, hexternal, ne_eq, hnil]
  split
  · rfl
  · rw [blocks_relinked, Block.mapM_lower_linked hlength]
    cases hblocks : f.blocks.mapM Block.lower with
    | error e => rfl
    | ok ds => rw [Except.map, Except.map, Block.map_flow_of_mapM hblocks]

/-- To record the edges and to lower come to the same in either order, whatever ids the blocks have
and wherever their branches lead. The host's IR keeps predecessors in a list by position, the
dialect in a table by id. -/
theorem lower_relinked (f : Function) :
    f.relinked.lower = f.lower.map Dialect.Function.relinked := by
  rw [lower, lower, lowerBlocks_relinked]
  cases f.lowerBlocks with
  | error e => rfl
  | ok ds =>
    have hblocks (d : Dialect.Function) : d.relinked = { d with
        blocks := d.blocks.zipWith Dialect.Block.linked
          (FlowNode.preds (d.blocks.map Dialect.Block.flow)) } := by
      rw [← Dialect.Function.blocks_relinked]
      rfl
    simp only [Except.map, Except.mapError, pure_eq_ok, ok_bind, hblocks]
    rfl

-- Two blocks with one id, of which only the first gets predecessors, and a branch to no block.
example :
    let f : Function := {
      name := "doubled"
      returnType := .void
      blocks := [
        { id := ⟨3⟩, instructions := [.br ⟨3⟩] },
        { id := ⟨3⟩, instructions := [.condBr (.const 1) ⟨3⟩ ⟨9⟩] }] }
    f.relinked.blocks.map (fun b => (b.preds, b.succs)) = [([⟨3⟩], [⟨3⟩]), ([], [⟨3⟩, ⟨9⟩])] ∧
      f.relinked.lower = f.lower.map Dialect.Function.relinked := by
  decide +kernel

end Function

end Native

end PassEngine
