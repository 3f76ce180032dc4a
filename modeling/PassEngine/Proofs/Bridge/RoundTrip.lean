import PassEngine.Bridge.Lower
import PassEngine.Bridge.Raise
import PassEngine.Proofs.Except
import PassEngine.Proofs.NameTable

namespace PassEngine

namespace Native

namespace Ty

mutual

@[simp]
theorem raise_lower (t : Ty) : t.lower.raise = .ok t := by
  cases t with
  | ptr target => simp [lower, Dialect.Ty.raise, raise_lower target]
  | array size element => simp [lower, Dialect.Ty.raise, raise_lower element]
  | func ret params vararg =>
    simp [lower, Dialect.Ty.raise, raise_lower ret, raiseList_lowerList params]
  | struct name fields packed => simp [lower, Dialect.Ty.raise, raiseList_lowerList fields]
  | _ => simp [lower, Dialect.Ty.raise]

theorem raiseList_lowerList (ts : List Ty) : Dialect.Ty.raiseList (lowerList ts) = .ok ts := by
  cases ts with
  | nil => simp [lowerList, Dialect.Ty.raiseList]
  | cons t ts => simp [lowerList, Dialect.Ty.raiseList, raise_lower t, raiseList_lowerList ts]

end

end Ty

namespace Value

theorem raise_of_lower {v : Value} {o : Dialect.Operand} (h : v.lower = .ok o) : o.raise = v := by
  cases v <;> simp only [lower, Except.ok.injEq, reduceCtorEq] at h <;> subst h <;> rfl

theorem raise_of_lowerInit {v : Value} {g : Dialect.GlobalInit} (h : v.lowerInit = .ok g) :
    g.raise = v := by
  cases v <;> simp only [lowerInit, Except.ok.injEq, reduceCtorEq] at h <;> subst h <;> rfl

theorem incoming_raise_of_lower (v : Value × BlockId) (o : Dialect.Operand × BlockId)
    (h : (do return (← v.1.lower, v.2) : Except Construct _) = .ok o) : (o.1.raise, o.2) = v := by
  obtain ⟨w, hw, hpair⟩ := bind_eq_ok_iff.1 h
  cases hpair
  simp only [raise_of_lower hw]

end Value

namespace Instruction

/-- A call by name and a call of any other value lead back to the same constructor. -/
theorem raise_of_lowerCall {result : Option ValueId} {target : Value} {args : List Value} {ty : Ty}
    {known : Bool} {os : List Dialect.Operand} {kind : Dialect.OpKind} (symbol : String)
    (hargs : os.map Dialect.Operand.raise = args) (h : lowerCall target os known = .ok kind) :
    Dialect.Op.raise symbol ⟨result, ty.lower, kind⟩ = .ok (.call result target args ty known) := by
  cases target with
  | function callee =>
    cases h
    simp [Dialect.Op.raise, hargs]
  | constArray ns => cases known <;> simp [lowerCall, Value.lower] at h
  | _ =>
    cases known <;> simp [lowerCall, Value.lower] at h
    subst h
    simp [Dialect.Op.raise, Dialect.Operand.raise, hargs]

theorem raise_of_lower {i : Instruction} {o : Dialect.Op} (symbol : String)
    (h : i.lower = .ok o) : o.raise symbol = .ok i := by
  cases i <;> simp only [lower, bind_eq_ok_iff, pure_eq_ok, Except.ok.injEq, reduceCtorEq] at h
  case binary result op lhs rhs ty =>
    obtain ⟨l, hl, r, hr, rfl⟩ := h
    cases op <;> simp [lowerBinary, Dialect.Op.raise, Dialect.Op.need, Value.raise_of_lower hl,
      Value.raise_of_lower hr]
  case unary result op operand ty =>
    obtain ⟨v, hv, rfl⟩ := h
    cases op <;> simp [lowerUnary, Dialect.Op.raise, Dialect.Op.need, Value.raise_of_lower hv]
  case load result ptr ty =>
    obtain ⟨v, hv, rfl⟩ := h
    simp [Dialect.Op.raise, Dialect.Op.need, Value.raise_of_lower hv]
  case store value ptr =>
    obtain ⟨v, hv, p, hp, rfl⟩ := h
    simp [Dialect.Op.raise, Dialect.Op.needNone, Dialect.Op.void, Value.raise_of_lower hv,
      Value.raise_of_lower hp]
  case elementPtr result ptr indices ty =>
    obtain ⟨v, hv, is, his, rfl⟩ := h
    simp [Dialect.Op.raise, Dialect.Op.need, Value.raise_of_lower hv,
      map_of_mapM (fun _ _ => Value.raise_of_lower) his]
  case alloca result allocated count ty =>
    obtain ⟨c, hc, rfl⟩ := h
    simp [Dialect.Op.raise, Dialect.Op.need,
      option_map_of_mapM (fun _ _ => Value.raise_of_lower) hc]
  case call result target args ty known =>
    obtain ⟨os, hos, kind, hkind, rfl⟩ := h
    exact raise_of_lowerCall symbol (map_of_mapM (fun _ _ => Value.raise_of_lower) hos) hkind
  case ret value =>
    obtain ⟨v, hv, rfl⟩ := h
    simp [Dialect.Op.raise, Dialect.Op.needNone, Dialect.Op.void,
      option_map_of_mapM (fun _ _ => Value.raise_of_lower) hv]
  case br dest =>
    subst h
    simp [Dialect.Op.raise, Dialect.Op.needNone, Dialect.Op.void]
  case condBr cond onTrue onFalse =>
    obtain ⟨v, hv, rfl⟩ := h
    simp [Dialect.Op.raise, Dialect.Op.needNone, Dialect.Op.void, Value.raise_of_lower hv]
  case phi result incoming ty =>
    obtain ⟨os, hos, rfl⟩ := h
    simp [Dialect.Op.raise, Dialect.Op.need, map_of_mapM Value.incoming_raise_of_lower hos]
  case cast result value ty =>
    obtain ⟨v, hv, rfl⟩ := h
    simp [Dialect.Op.raise, Dialect.Op.need, Value.raise_of_lower hv]
  case select result cond onTrue onFalse ty =>
    obtain ⟨c, hc, t, ht, f, hf, rfl⟩ := h
    simp [Dialect.Op.raise, Dialect.Op.need, Value.raise_of_lower hc, Value.raise_of_lower ht,
      Value.raise_of_lower hf]
  case intrinsic result name args ty =>
    obtain ⟨os, hos, rfl⟩ := h
    simp [Dialect.Op.raise, map_of_mapM (fun _ _ => Value.raise_of_lower) hos]
  case debugLoc loc =>
    subst h
    simp [Dialect.Op.raise, Dialect.Op.void]
  case comment text =>
    subst h
    simp [Dialect.Op.raise, Dialect.Op.void]

end Instruction

namespace Block

theorem raise_of_lower {b : Block} {d : Dialect.Block} (symbol : String) (h : b.lower = .ok d) :
    d.raise symbol = .ok b := by
  obtain ⟨ops, hops, hd⟩ := bind_eq_ok_iff.1 h
  cases hd
  have hback : ops.mapM (Dialect.Op.raise symbol) = .ok b.instructions :=
    mapM_of_mapM (fun _ _ => Instruction.raise_of_lower symbol) hops
  simp [Dialect.Block.raise, hback]

end Block

namespace Function

theorem mapM_raise_params (ps : List (ValueId × Ty)) :
    (ps.map fun p => (p.1, p.2.lower)).mapM (fun p => p.2.raise >>= fun ty => .ok (p.1, ty)) =
      (.ok ps : Except RaiseError _) := by
  rw [mapM_eq_ok_iff, List.forall₂_map_left_iff, List.forall₂_same]
  simp

theorem raise_of_lower {f : Function} {d : Dialect.Function} (h : f.lower = .ok d) :
    d.raise = .ok f := by
  obtain ⟨blocks, hblocks, hd⟩ := bind_eq_ok_iff.1 h
  cases hd
  rw [mapError_eq_ok_iff, lowerBlocks] at hblocks
  split at hblocks
  · cases hblocks
  have hback : blocks.mapM (Dialect.Block.raise f.name) = .ok f.blocks :=
    mapM_of_mapM (fun _ _ => Block.raise_of_lower f.name) hblocks
  simp only [Dialect.Function.raise, Ty.raise_lower, mapM_raise_params, hback, ok_bind, pure_eq_ok]

end Function

namespace Global

theorem raise_of_lower {g : Global} {d : Dialect.Global} (h : g.lower = .ok d) :
    d.raise = .ok g := by
  obtain ⟨init, hinit, hd⟩ := bind_eq_ok_iff.1 h
  cases hd
  rw [mapError_eq_ok_iff] at hinit
  have hback : init.map Dialect.GlobalInit.raise = g.initial :=
    option_map_of_mapM (fun _ _ => Value.raise_of_lowerInit) hinit
  simp [Dialect.Global.raise, hback]

end Global

end Native

namespace Native.Module

theorem traverse_map_lower (t : NameTable Ty) :
    (t.map Ty.lower).traverse Dialect.Ty.raise = .ok t := by
  have h : (t.map Ty.lower).entries.mapM (fun e => e.2.raise >>= fun ty => .ok (e.1, ty)) =
      (.ok t.entries : Except RaiseError _) := by
    rw [mapM_eq_ok_iff, NameTable.entries_map, List.forall₂_map_left_iff, List.forall₂_same]
    simp
  simp only [NameTable.traverse, pure_eq_ok, h, ok_bind, NameTable.ofList_entries]

theorem parts_of_lower {m : Module} {d : Dialect.Module} (h : m.lower = .ok d) :
    d.name = m.name ∧ d.typeDefs.traverse Dialect.Ty.raise = .ok m.typeDefs ∧
      d.globals.mapM Dialect.Global.raise = .ok m.globals ∧
      d.functions.mapM Dialect.Function.raise = .ok m.functions := by
  obtain ⟨globals, hglobals, h⟩ := bind_eq_ok_iff.1 h
  obtain ⟨functions, hfunctions, h⟩ := bind_eq_ok_iff.1 h
  cases h
  refine ⟨rfl, traverse_map_lower m.typeDefs, ?_, ?_⟩
  · exact mapM_of_mapM (fun _ _ => Global.raise_of_lower) hglobals
  · exact mapM_of_mapM (fun _ _ => Function.raise_of_lower) hfunctions

/-- What goes out to the dialect and is well formed there comes back as it was; what is not well
formed is turned down with the verifier's own complaint. Nothing else can happen. -/
theorem raise_eq_of_lower {m : Module} {d : Dialect.Module} (h : m.lower = .ok d) :
    d.raise = match d.verify with
      | .ok _ => .ok m
      | .error e => .error (.malformed e) := by
  obtain ⟨hname, htypes, hglobals, hfunctions⟩ := parts_of_lower h
  cases hv : d.verify with
  | error e => simp only [Dialect.Module.raise, hv, Except.mapError, error_bind]
  | ok u =>
    simp only [Dialect.Module.raise, hv, Except.mapError, ok_bind, htypes, hglobals, hfunctions,
      hname, pure_eq_ok]

/-- A loop with a phi, in which one function is called by its name and one through a pointer. -/
def counting : Module where
  name := "counting"
  functions := [
    { name := "step", returnType := .i32, params := [(⟨0⟩, .i32)], isExternal := true },
    { name := "main", returnType := .i32,
      params := [(⟨0⟩, .i32), (⟨1⟩, .ptr (.func .void [.i32] false))], inlineHint := .never
      location := some { filename := "main.c", line := 3, column := 1 }
      blocks := [
        { id := ⟨0⟩, succs := [⟨1⟩], instructions := [
          .debugLoc { filename := "main.c", line := 4, column := 3 }, .br ⟨1⟩] },
        { id := ⟨1⟩, preds := [⟨0⟩, ⟨1⟩], succs := [⟨1⟩, ⟨2⟩], instructions := [
          .phi ⟨2⟩ [(.const 0, ⟨0⟩), (.temp ⟨4⟩, ⟨1⟩)] .i32,
          .binary ⟨3⟩ (.compare .slt) (.temp ⟨2⟩) (.temp ⟨0⟩) .i1,
          .call (some ⟨4⟩) (.function "step") [.temp ⟨2⟩] .i32 true,
          .call none (.temp ⟨1⟩) [.temp ⟨4⟩] .void false,
          .condBr (.temp ⟨3⟩) ⟨1⟩ ⟨2⟩] },
        { id := ⟨2⟩, preds := [⟨1⟩], instructions := [.ret (some (.temp ⟨4⟩))] }] }]
  globals := [{ name := "table", ty := .array 2 .i8, isConstant := true,
                initial := some (.constArray [1, 2]), linkage := .hidden }]
  typeDefs := .ofList [("pair", .struct (some "pair") [.i64, .i8] true)]

theorem raise_eq_of_lower_counting :
    ∃ d, counting.lower = .ok d ∧ d.verify = .ok () ∧ d.raise = .ok counting := by
  have h : ∃ d, counting.lower = .ok d ∧ d.verify = .ok () := ⟨_, rfl, by decide +kernel⟩
  obtain ⟨d, hd, hv⟩ := h
  refine ⟨d, hd, hv, ?_⟩
  rw [raise_eq_of_lower hd, hv]

end Native.Module

end PassEngine
