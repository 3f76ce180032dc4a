import PassEngine.Proofs.Bridge.Resending

namespace PassEngine.Dialect

namespace Op

/-- The normal form of an operation. An instruction that defines nothing has no place for a type;
nor do a location and a comment keep a result. -/
def normal (o : Op) : Op :=
  match o.kind with
  | .store .. | .ret .. | .br .. | .condBr .. => { o with ty := .void }
  | .debugLoc .. | .comment .. => { o with result := none, ty := .void }
  | _ => o

theorem raise_normal (symbol : String) (o : Op) : o.normal.raise symbol = o.raise symbol := by
  cases hk : o.kind <;> simp [normal, raise, hk, needNone]

/-- What is left of an operation that has an instruction is its normal form. -/
theorem carried_eq_normal {o : Op} (h : o.Shaped) : o.carried = o.normal := by
  obtain ⟨result, ty, kind⟩ := o
  cases kind <;> simp_all [carried, normal, Shaped, void]

end Op

theorem Block.raise_normal (symbol : String) (b : Block) :
    (b.mapOps Op.normal).raise symbol = b.raise symbol := by
  have hops : Op.raise symbol ∘ Op.normal = Op.raise symbol := by
    funext o
    exact o.raise_normal symbol
  simp only [raise, mapOps, List.mapM_map, hops]

namespace Function

theorem raise_normal (f : Function) : (f.mapOps Op.normal).raise = f.raise := by
  have hblocks : Block.raise f.symbol ∘ Block.mapOps Op.normal = Block.raise f.symbol := by
    funext b
    exact b.raise_normal f.symbol
  simp only [raise, mapOps, List.mapM_map, hblocks]

theorem mapOps_carried_eq_normal {f : Function} (h : ∀ o ∈ f.ops, o.Shaped) :
    f.mapOps Op.carried = f.mapOps Op.normal := by
  have hblocks : f.blocks.map (Block.mapOps Op.carried) =
      f.blocks.map (Block.mapOps Op.normal) := by
    refine List.map_congr_left fun b hb => ?_
    have hops : b.ops.map Op.carried = b.ops.map Op.normal :=
      List.map_congr_left fun o ho => Op.carried_eq_normal (h o (List.mem_flatMap.2 ⟨b, hb, ho⟩))
    rw [Block.mapOps, Block.mapOps, hops]
  rw [mapOps, mapOps, hblocks]

end Function

namespace Module

def normal (m : Module) : Module :=
  { m with functions := m.functions.map (Function.mapOps Op.normal) }

theorem carried_eq_normal {m : Module} (h : ∀ f ∈ m.functions, f.Shaped) :
    m.carried = m.normal := by
  have hfunctions : m.functions.map (Function.mapOps Op.carried) =
      m.functions.map (Function.mapOps Op.normal) :=
    List.map_congr_left fun f hf => Function.mapOps_carried_eq_normal (h f hf).ops
  rw [carried, normal, hfunctions]

/-- What lowers to the normal form of a verified module is what the module is raised to. -/
theorem raise_of_lower_normal {m : Module} {n : Native.Module} (hverify : m.verify = .ok ())
    (h : n.lower = .ok m.normal) : m.raise = .ok n := by
  obtain ⟨hname, htypes, hglobals, hfunctions⟩ := Native.Module.parts_of_lower h
  have hback : m.functions.mapM Function.raise = .ok n.functions := by
    have hraise : Function.raise ∘ Function.mapOps Op.normal = Function.raise := by
      funext f
      exact f.raise_normal
    rwa [normal, List.mapM_map, hraise] at hfunctions
  simp only [normal] at hname htypes hglobals
  simp only [raise, hverify, Except.mapError, ok_bind, htypes, hglobals, hback, hname, pure_eq_ok]

/-- Raising undoes lowering, and what it forgets is exactly what the normal form leaves out: a
module is raised to `n` if and only if it is verified and `n` lowers to its normal form. -/
theorem raise_eq_ok_iff_lower (m : Module) (n : Native.Module) :
    m.raise = .ok n ↔ m.verify = .ok () ∧ n.lower = .ok m.normal := by
  constructor
  · intro h
    obtain ⟨_, hverify, -⟩ := bind_eq_ok_iff.1 h
    have hlower := lower_of_raise h
    rw [carried_eq_normal (shaped_of_raise h)] at hlower
    exact ⟨mapError_eq_ok_iff.1 hverify, hlower⟩
  · intro h
    exact raise_of_lower_normal h.1 h.2

end Module

end PassEngine.Dialect
