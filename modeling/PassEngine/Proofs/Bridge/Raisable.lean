import PassEngine.Proofs.Bridge.RoundTrip
import PassEngine.Proofs.Dialect.Operands

namespace PassEngine.Dialect

def Ty.IsNative (t : Ty) : Prop := ∃ n, t.raise = .ok n

namespace Op

/-- The call goes through a pointer, and the pointer is a function's name. -/
def CallsSymbol (o : Op) : Prop := ∃ name args, o.kind = .callIndirect (.func name) args

/-- Types and result are such that there is an instruction for the operation, whatever its
operands. -/
def Shaped (o : Op) : Prop :=
  match o.kind with
  | .store _ _ | .ret _ | .br _ | .condBr _ _ _ => o.result = none
  | .debugLoc _ | .comment _ => True
  | .call _ _ _ | .callIndirect _ _ | .intrinsic _ _ => o.ty.IsNative
  | .alloca allocated _ => o.result.isSome = true ∧ allocated.IsNative ∧ o.ty.IsNative
  | _ => o.result.isSome = true ∧ o.ty.IsNative

theorem need_eq_ok_iff {o : Op} {symbol : String} {v : ValueId} :
    o.need symbol = .ok v ↔ o.result = some v := by
  rw [need]
  cases o.result <;> simp

theorem needNone_eq_ok_iff {o : Op} {symbol : String} {u : Unit} :
    o.needNone symbol = .ok u ↔ o.result = none := by
  rw [needNone]
  cases o.result <;> simp

theorem exists_raise_iff (o : Op) (symbol : String) :
    (∃ i, o.raise symbol = .ok i) ↔ o.Shaped ∧ ¬o.CallsSymbol := by
  cases hk : o.kind with
  | callIndirect target args =>
    cases target <;>
      simp [raise, Shaped, CallsSymbol, hk, bind_eq_ok_iff, Ty.IsNative, throw, throwThe,
        MonadExceptOf.throw]
  | _ =>
    simp [raise, Shaped, CallsSymbol, hk, bind_eq_ok_iff, need_eq_ok_iff, needNone_eq_ok_iff,
      Ty.IsNative, Option.isSome_iff_exists]

@[simp]
theorem shaped_mapOperands (f : Operand → Operand) (o : Op) :
    (o.mapOperands f).Shaped ↔ o.Shaped := by
  cases hk : o.kind <;> simp only [Shaped, mapOperands, hk, OpKind.mapOperands]

@[simp]
theorem shaped_mapBlocks (g : BlockId → BlockId) (o : Op) : (o.mapBlocks g).Shaped ↔ o.Shaped := by
  cases hk : o.kind <;> simp only [Shaped, mapBlocks, hk, OpKind.mapBlocks]

theorem shaped_congr_result {o : Op} {r : Option ValueId} (h : r.isSome = o.result.isSome) :
    ({ o with result := r } : Op).Shaped ↔ o.Shaped := by
  have hnone : r = none ↔ o.result = none := by
    cases r <;> cases hr : o.result <;> simp_all
  cases hk : o.kind <;> simp only [Shaped, hk, h, hnone]

end Op

namespace Function

/-- Everything about a function but its operands has a native form. -/
structure Shaped (f : Function) : Prop where
  ret : f.ret.IsNative
  params : ∀ p ∈ f.params, p.2.IsNative
  ops : ∀ o ∈ f.ops, o.Shaped

theorem exists_raise_iff (f : Function) :
    (∃ n, f.raise = .ok n) ↔ f.Shaped ∧ ∀ o ∈ f.ops, ¬o.CallsSymbol := by
  have hparams : (∃ ps, f.params.mapM (fun p => p.2.raise >>= fun ty => .ok (p.1, ty)) = .ok ps) ↔
      ∀ p ∈ f.params, p.2.IsNative := by
    rw [exists_mapM_eq_ok_iff]
    simp [bind_eq_ok_iff, Ty.IsNative]
  have hblocks : (∃ bs, f.blocks.mapM (Block.raise f.symbol) = .ok bs) ↔
      ∀ o ∈ f.ops, o.Shaped ∧ ¬o.CallsSymbol := by
    have hblock : ∀ b : Block, (∃ n, b.raise f.symbol = .ok n) ↔
        ∀ o ∈ b.ops, o.Shaped ∧ ¬o.CallsSymbol := by
      intro b
      simp only [← Op.exists_raise_iff _ f.symbol, ← exists_mapM_eq_ok_iff, Block.raise,
        bind_eq_ok_iff, pure_eq_ok, Except.ok.injEq]
      constructor
      · rintro ⟨_, is, his, -⟩
        exact ⟨is, his⟩
      · rintro ⟨is, his⟩
        exact ⟨_, is, his, rfl⟩
    simp only [exists_mapM_eq_ok_iff, hblock, ops, List.mem_flatMap]
    constructor
    · rintro h o ⟨b, hb, ho⟩
      exact h b hb o ho
    · intro h b hb o ho
      exact h o ⟨b, hb, ho⟩
  constructor
  · rintro ⟨n, hn⟩
    obtain ⟨ret, hret, hn⟩ := bind_eq_ok_iff.1 hn
    obtain ⟨ps, hps, hn⟩ := bind_eq_ok_iff.1 hn
    obtain ⟨bs, hbs, -⟩ := bind_eq_ok_iff.1 hn
    have hops := hblocks.1 ⟨bs, hbs⟩
    exact ⟨⟨⟨ret, hret⟩, hparams.1 ⟨ps, hps⟩, fun o ho => (hops o ho).1⟩, fun o ho => (hops o ho).2⟩
  · rintro ⟨hshaped, hcalls⟩
    obtain ⟨ret, hret⟩ := hshaped.ret
    obtain ⟨ps, hps⟩ := hparams.2 hshaped.params
    obtain ⟨bs, hbs⟩ := hblocks.2 fun o ho => ⟨hshaped.ops o ho, hcalls o ho⟩
    simp only [raise, hret, hps, hbs, ok_bind, pure_eq_ok]
    exact ⟨_, rfl⟩

end Function

namespace Module

structure Shaped (m : Module) : Prop where
  typeDefs : ∃ t, m.typeDefs.traverse Ty.raise = .ok t
  globals : ∃ gs, m.globals.mapM Global.raise = .ok gs
  functions : ∀ f ∈ m.functions, f.Shaped

def CallsNoSymbol (m : Module) : Prop :=
  ∀ f ∈ m.functions, ∀ o ∈ f.ops, ¬o.CallsSymbol

theorem exists_raise_iff {m : Module} (hshaped : m.Shaped) (hm : m.verify = .ok ()) :
    (∃ n, m.raise = .ok n) ↔ m.CallsNoSymbol := by
  obtain ⟨t, ht⟩ := hshaped.typeDefs
  obtain ⟨gs, hgs⟩ := hshaped.globals
  have hfunctions : (∃ fs, m.functions.mapM Function.raise = .ok fs) ↔ m.CallsNoSymbol := by
    rw [exists_mapM_eq_ok_iff]
    refine forall₂_congr fun f hf => ?_
    rw [Function.exists_raise_iff]
    exact and_iff_right (hshaped.functions f hf)
  rw [← hfunctions]
  simp only [raise, hm, Except.mapError, ok_bind, ht, hgs, bind_eq_ok_iff, pure_eq_ok,
    Except.ok.injEq]
  constructor
  · rintro ⟨_, fs, hfs, -⟩
    exact ⟨fs, hfs⟩
  · rintro ⟨fs, hfs⟩
    exact ⟨_, fs, hfs, rfl⟩

theorem shaped_of_lower {m : Native.Module} {d : Module} (h : m.lower = .ok d) : d.Shaped := by
  obtain ⟨-, htypes, hglobals, hfunctions⟩ := Native.Module.parts_of_lower h
  refine ⟨⟨_, htypes⟩, ⟨_, hglobals⟩, fun f hf => ?_⟩
  have := exists_mapM_eq_ok_iff.1 ⟨_, hfunctions⟩ f hf
  exact (f.exists_raise_iff.1 this).1

end Module

end PassEngine.Dialect
