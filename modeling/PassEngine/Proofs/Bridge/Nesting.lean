import Mathlib.Order.Lattice
import PassEngine.Bridge.Lower
import PassEngine.Dialect.Encoding
import PassEngine.Proofs.Except
import PassEngine.Proofs.Json.Reading

namespace PassEngine

namespace Json

variable {α : Type} {write : α → Json} {k n : Nat}

@[simp]
theorem depth_tagged (tag : String) (body : Json) : (tagged tag body).depth = body.depth + 1 := by
  simp [tagged, depth, depthMembers]

theorem depth_ofOption_le {x : Option α} (h : ∀ a, (write a).depth ≤ n) :
    (ofOption write x).depth ≤ n := by
  cases x with
  | none => exact Nat.zero_le n
  | some a => exact h a

theorem depth_ofList_le {xs : List α} (h : ∀ x ∈ xs, (write x).depth ≤ n) :
    (ofList write xs).depth ≤ n + 1 := by
  rw [ofList, depth, Nat.succ_le_succ_iff, depthItems_le_iff, List.forall_mem_map]
  exact h

theorem depth_ofList_add_le_iff {xs : List α} : (ofList write xs).depth + k ≤ n ↔
    k + 1 ≤ n ∧ ∀ x ∈ xs, (write x).depth + (k + 1) ≤ n := by
  have hroom (d : Nat) : d + 1 + k ≤ n ↔ k + 1 ≤ n ∧ d ≤ n - (k + 1) := by omega
  rw [ofList, depth, hroom, depthItems_le_iff, List.forall_mem_map]
  refine and_congr_right fun hk => forall₂_congr fun x _ => ?_
  omega

theorem depth_ofList_of_mapM {β ε : Type} {f : β → Except ε α} {P : β → Prop}
    (write : α → Json) (hk : k + 1 ≤ n)
    (hf : ∀ b a, f b = .ok a → ((write a).depth + (k + 1) ≤ n ↔ P b)) {bs : List β}
    {xs : List α} (h : bs.mapM f = .ok xs) :
    (ofList write xs).depth + k ≤ n ↔ ∀ b ∈ bs, P b := by
  rw [depth_ofList_add_le_iff, and_iff_right hk]
  rw [mapM_eq_ok_iff] at h
  induction h with
  | nil => simp
  | cons hba _ ih =>
    rw [List.forall_mem_cons, List.forall_mem_cons]
    exact and_congr (hf _ _ hba) ih

theorem depth_table_add_le_iff {t : NameTable α} : (t.toJson write).depth + k ≤ n ↔
    k + 1 ≤ n ∧ ∀ e ∈ t.entries, (write e.2).depth + (k + 1) ≤ n := by
  have hroom (d : Nat) : d + 1 + k ≤ n ↔ k + 1 ≤ n ∧ d ≤ n - (k + 1) := by omega
  rw [NameTable.toJson, depth, hroom, depthMembers_le_iff, List.forall_mem_map]
  refine and_congr_right fun hk => forall₂_congr fun e _ => ?_
  dsimp only
  omega

end Json

@[simp]
theorem ValueId.depth_toJson (v : ValueId) : v.toJson.depth = 0 := rfl

@[simp]
theorem BlockId.depth_toJson (b : BlockId) : b.toJson.depth = 0 := rfl

@[simp]
theorem Location.depth_toJson (l : Location) : l.toJson.depth = 1 := rfl

namespace Dialect

variable {n : Nat}

theorem Operand.depth_toJson_le (o : Operand) : o.toJson.depth ≤ 1 := by
  cases o <;> simp [toJson, Json.depth, Json.ofInt64]

def OpKind.allocated? : OpKind → Option Ty
  | alloca allocated _ => some allocated
  | _ => none

/-- No operation but the one that names a type besides its own goes deep. -/
theorem OpKind.depth_toJson_le_iff (hn : 5 ≤ n) (k : OpKind) :
    k.toJson.depth ≤ n ↔ ∀ ty ∈ k.allocated?, ty.toJson.depth + 2 ≤ n := by
  obtain ⟨n, rfl⟩ := Nat.exists_eq_add_of_le' hn
  have hoperand (o : Operand) : o.toJson.depth ≤ n + 3 :=
    Nat.le_trans o.depth_toJson_le (by omega)
  have hoperands (os : List Operand) : (Json.ofList Operand.toJson os).depth ≤ n + 3 :=
    Nat.le_trans (Json.depth_ofList_le fun o _ => o.depth_toJson_le) (by omega)
  have hoperand? (o : Option Operand) : (Json.ofOption Operand.toJson o).depth ≤ n + 3 :=
    Json.depth_ofOption_le hoperand
  have hedges (es : List (Operand × BlockId)) : (Json.ofList edgeJson es).depth ≤ n + 3 := by
    have hedge (e : Operand × BlockId) : (edgeJson e).depth ≤ 2 := by
      simp [edgeJson, Json.depth, Json.depthItems, e.1.depth_toJson_le]
    exact Nat.le_trans (Json.depth_ofList_le fun e _ => hedge e) (by omega)
  cases k <;>
    simp [toJson, allocated?, Json.depth, Json.depthMembers, hoperand, hoperands,
      hoperand?, hedges]

theorem Op.depth_toJson_add_le_iff (hn : 14 ≤ n) (o : Op) : o.toJson.depth + 8 ≤ n ↔
    o.ty.toJson.depth + 9 ≤ n ∧ ∀ ty ∈ o.kind.allocated?, ty.toJson.depth + 11 ≤ n := by
  have hresult : (Json.ofOption ValueId.toJson o.result).depth ≤ 0 :=
    Json.depth_ofOption_le fun _ => Nat.le_refl 0
  have hkind := o.kind.depth_toJson_le_iff (n := n - 9) (by omega)
  have hdepth : o.toJson.depth + 8 ≤ n ↔
      o.ty.toJson.depth + 9 ≤ n ∧ o.kind.toJson.depth ≤ n - 9 := by
    simp only [toJson, Json.depth, Json.depthMembers]
    omega
  rw [hdepth, hkind]
  refine and_congr_right fun _ => forall₂_congr fun ty _ => ?_
  omega

theorem GlobalInit.depth_toJson_le (g : GlobalInit) : g.toJson.depth ≤ 2 := by
  cases g with
  | array ns =>
    have hitems : (Json.ofList Json.ofInt64 ns).depth ≤ 1 :=
      Json.depth_ofList_le fun _ _ => Nat.le_refl 0
    simpa [toJson] using hitems
  | _ => simp [toJson, Json.depth, Json.ofInt64]

end Dialect

namespace Native

namespace Instruction

def ty? : Instruction → Option Ty
  | binary _ _ _ _ ty | unary _ _ _ ty | load _ _ ty | elementPtr _ _ _ ty | alloca _ _ _ ty
  | call _ _ _ ty _ | phi _ _ ty | cast _ _ ty | select _ _ _ _ ty | intrinsic _ _ _ ty => some ty
  | _ => none

def allocated? : Instruction → Option Ty
  | alloca _ allocated _ _ => some allocated
  | _ => none

/-- The types in an instruction, each with the number of arrays and objects around it in an
invocation. -/
def placedTypes (i : Instruction) : List (Nat × Ty) :=
  i.ty?.toList.map (9, ·) ++ i.allocated?.toList.map (11, ·)

theorem allocated?_of_lowerCall {target : Value} {args : List Dialect.Operand}
    {knownInlined : Bool} {kind : Dialect.OpKind}
    (h : lowerCall target args knownInlined = .ok kind) : kind.allocated? = none := by
  cases target with
  | function callee =>
    cases h
    rfl
  | constArray ns => cases knownInlined <;> simp [lowerCall, Value.lower] at h
  | _ =>
    cases knownInlined <;> simp [lowerCall, Value.lower] at h
    subst h
    rfl

theorem types_of_lower {i : Instruction} {o : Dialect.Op} (h : i.lower = .ok o) :
    o.ty = (i.ty?.map Ty.lower).getD .void ∧ o.kind.allocated? = i.allocated?.map Ty.lower := by
  cases i <;> simp only [lower, bind_eq_ok_iff, pure_eq_ok, Except.ok.injEq, reduceCtorEq] at h
  case binary result op lhs rhs ty =>
    obtain ⟨_, -, _, -, rfl⟩ := h
    cases op <;> exact ⟨rfl, rfl⟩
  case unary result op operand ty =>
    obtain ⟨_, -, rfl⟩ := h
    cases op <;> exact ⟨rfl, rfl⟩
  case call result target args ty knownInlined =>
    obtain ⟨_, -, _, hkind, rfl⟩ := h
    exact ⟨rfl, allocated?_of_lowerCall hkind⟩
  case load | alloca | ret | condBr | phi | cast | intrinsic =>
    obtain ⟨_, -, rfl⟩ := h
    exact ⟨rfl, rfl⟩
  case store | elementPtr =>
    obtain ⟨_, -, _, -, rfl⟩ := h
    exact ⟨rfl, rfl⟩
  case select =>
    obtain ⟨_, -, _, -, _, -, rfl⟩ := h
    exact ⟨rfl, rfl⟩
  case br | debugLoc | comment =>
    subst h
    exact ⟨rfl, rfl⟩

end Instruction

def Module.placedTypes (m : Module) : List (Nat × Ty) :=
  m.typeDefs.entries.map (4, ·.2) ++ m.globals.map (5, ·.ty) ++ m.functions.flatMap fun f =>
    (5, f.returnType) :: f.params.map (7, ·.2) ++
      f.blocks.flatMap fun b => b.instructions.flatMap Instruction.placedTypes

/-- A type with so much around it is in the dialect no more than `n` levels deep in all. -/
def Within (n : Nat) (x : Nat × Ty) : Prop :=
  x.2.lower.toJson.depth + x.1 ≤ n

theorem Module.forall_mem_placedTypes_iff {m : Module} {P : Nat × Ty → Prop} :
    (∀ x ∈ m.placedTypes, P x) ↔
      (∀ e ∈ m.typeDefs.entries, P (4, e.2)) ∧ (∀ g ∈ m.globals, P (5, g.ty)) ∧
        ∀ f ∈ m.functions, P (5, f.returnType) ∧ (∀ p ∈ f.params, P (7, p.2)) ∧
          ∀ b ∈ f.blocks, ∀ i ∈ b.instructions, ∀ x ∈ i.placedTypes, P x := by
  simp only [placedTypes, List.forall_mem_append, List.forall_mem_map, List.forall_mem_flatMap,
    List.forall_mem_cons, and_assoc, List.cons_append]

section Lower

-- Of what holds no type the edges of a phi lie deepest, at fourteen levels.
variable {n : Nat} (hn : 14 ≤ n)

include hn

theorem Instruction.within_iff_of_lower {i : Instruction} {o : Dialect.Op} (h : i.lower = .ok o) :
    o.toJson.depth + 8 ≤ n ↔ ∀ x ∈ i.placedTypes, Within n x := by
  obtain ⟨hty, hallocated⟩ := types_of_lower h
  rw [o.depth_toJson_add_le_iff hn, hty, hallocated, placedTypes, List.forall_mem_append]
  refine and_congr ?_ ?_
  · cases i.ty? with
    | none => simpa [Dialect.Ty.toJson, Json.depth] using by omega
    | some ty => simp [Within]
  · cases i.allocated? <;> simp [Within]

theorem Block.within_iff_of_lower {b : Block} {b' : Dialect.Block} (h : b.lower = .ok b') :
    b'.toJson.depth + 6 ≤ n ↔ ∀ i ∈ b.instructions, ∀ x ∈ i.placedTypes, Within n x := by
  obtain ⟨ops, hops, hb⟩ := bind_eq_ok_iff.1 h
  cases hb
  have hlist := Json.depth_ofList_of_mapM (k := 7) Dialect.Op.toJson (by omega)
    (fun _ _ => Instruction.within_iff_of_lower hn) hops
  have hpreds : (Json.ofList BlockId.toJson b.preds).depth ≤ 1 :=
    Json.depth_ofList_le fun _ _ => Nat.le_refl 0
  have hsuccs : (Json.ofList BlockId.toJson b.succs).depth ≤ 1 :=
    Json.depth_ofList_le fun _ _ => Nat.le_refl 0
  rw [← hlist]
  simp only [Dialect.Block.toJson, Json.depth, Json.depthMembers, BlockId.depth_toJson]
  omega

theorem Function.within_iff_of_lower {f : Function} {f' : Dialect.Function}
    (h : f.lower = .ok f') : f'.toJson.depth + 4 ≤ n ↔ Within n (5, f.returnType) ∧
      (∀ p ∈ f.params, Within n (7, p.2)) ∧
      ∀ b ∈ f.blocks, ∀ i ∈ b.instructions, ∀ x ∈ i.placedTypes, Within n x := by
  obtain ⟨blocks, hlower, hf⟩ := bind_eq_ok_iff.1 h
  have hblocks : f.blocks.mapM Block.lower = .ok f'.blocks := by
    cases hf
    have hlower := mapError_eq_ok_iff.1 hlower
    rw [lowerBlocks] at hlower
    split at hlower
    · cases hlower
    · exact hlower
  have hret : f'.ret = f.returnType.lower := by
    cases hf
    rfl
  have hparams : f'.params = f.params.map fun p => (p.1, p.2.lower) := by
    cases hf
    rfl
  have hblockList := Json.depth_ofList_of_mapM (k := 5) Dialect.Block.toJson (by omega)
    (fun _ _ => Block.within_iff_of_lower hn) hblocks
  have hparamList : (Json.ofList Dialect.Function.paramJson f'.params).depth + 5 ≤ n ↔
      ∀ p ∈ f.params, Within n (7, p.2) := by
    rw [Json.depth_ofList_add_le_iff, and_iff_right (by omega), hparams, List.forall_mem_map]
    refine forall₂_congr fun p _ => ?_
    simp only [Dialect.Function.paramJson, Json.depth, Json.depthMembers, ValueId.depth_toJson,
      Within]
    omega
  have hlocation : (Json.ofOption Location.toJson f'.location).depth ≤ 1 :=
    Json.depth_ofOption_le fun _ => Nat.le_refl 1
  rw [← hblockList, ← hparamList, Within, ← hret]
  simp only [Dialect.Function.toJson, Dialect.Function.attrsJson, Json.depth, Json.depthMembers]
  omega

theorem Global.within_iff_of_lower {g : Global} {g' : Dialect.Global} (h : g.lower = .ok g') :
    g'.toJson.depth + 4 ≤ n ↔ Within n (5, g.ty) := by
  obtain ⟨init, -, hg⟩ := bind_eq_ok_iff.1 h
  cases hg
  have hinit : (Json.ofOption Dialect.GlobalInit.toJson init).depth ≤ 2 :=
    Json.depth_ofOption_le Dialect.GlobalInit.depth_toJson_le
  simp only [Dialect.Global.toJson, Json.depth, Json.depthMembers, Within]
  omega

theorem Module.within_iff_of_lower {m : Module} {d : Dialect.Module} (h : m.lower = .ok d) :
    d.toJson.depth + 2 ≤ n ↔ ∀ x ∈ m.placedTypes, Within n x := by
  obtain ⟨globals, hglobals, h⟩ := bind_eq_ok_iff.1 h
  obtain ⟨functions, hfunctions, hd⟩ := bind_eq_ok_iff.1 h
  cases hd
  have hfunctions := Json.depth_ofList_of_mapM (k := 3) Dialect.Function.toJson (by omega)
    (fun _ _ => Function.within_iff_of_lower hn) hfunctions
  have hglobals := Json.depth_ofList_of_mapM (k := 3) Dialect.Global.toJson (by omega)
    (fun _ _ => Global.within_iff_of_lower hn) hglobals
  have htypeDefs : ((m.typeDefs.map Ty.lower).toJson Dialect.Ty.toJson).depth + 3 ≤ n ↔
      ∀ e ∈ m.typeDefs.entries, Within n (4, e.2) := by
    rw [Json.depth_table_add_le_iff, and_iff_right (by omega), NameTable.entries_map,
      List.forall_mem_map]
    rfl
  rw [forall_mem_placedTypes_iff, ← htypeDefs, ← hglobals, ← hfunctions]
  simp only [Dialect.Module.toJson, Dialect.Module.members, Json.depth, Json.depthMembers]
  omega

end Lower

end Native

end PassEngine
