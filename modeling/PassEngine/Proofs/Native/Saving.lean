import PassEngine.Proofs.Bridge.Nesting
import PassEngine.Proofs.Json.Layout
import PassEngine.Proofs.Json.Thorough
import PassEngine.Proofs.Native.Encoding

namespace PassEngine

open Json (Thorough slots_limit variant_limit depth_obj_le_succ_iff readString readList readPair)

theorem ValueId.thorough : Thorough toJson read := .of_depth_eq_zero fun _ => rfl

theorem BlockId.thorough : Thorough toJson read := .of_depth_eq_zero fun _ => rfl

theorem Location.thorough : Thorough toJson read where
  depth_le {n a b} h := by
    obtain ⟨ss, hss, -⟩ := Option.bind_eq_some_iff.1 h
    obtain ⟨k, rfl, -⟩ := slots_limit hss rfl (by decide)
    rw [depth_toJson]
    omega

namespace Native

namespace Ty

mutual

theorem depth_le_of_readUpTo (t : Ty) {k n : Nat} {t' : Ty}
    (h : readUpTo k (Json.limit n t.toJson) = some t') : t.toJson.depth ≤ n := by
  obtain _ | k := k
  · cases h
  -- A record that could be read had a level left for it under the limit.
  cases t with
  | void | i1 | i8 | i16 | i32 | i64 | label => exact Nat.zero_le n
  | ptr target =>
    obtain ⟨⟨tag, body⟩, hvariant, h⟩ := Option.bind_eq_some_iff.1 h
    obtain ⟨n, rfl, rfl, rfl⟩ := variant_limit hvariant
    obtain ⟨target', htarget, -⟩ := Option.bind_eq_some_iff.1 h
    have hdepth := depth_le_of_readUpTo target htarget
    rw [toJson, Json.depth_tagged]
    omega
  | array size element =>
    obtain ⟨⟨tag, body⟩, hvariant, h⟩ := Option.bind_eq_some_iff.1 h
    obtain ⟨n, rfl, rfl, rfl⟩ := variant_limit hvariant
    obtain ⟨ss, hss, h⟩ := Option.bind_eq_some_iff.1 h
    obtain ⟨n, rfl, rfl⟩ := slots_limit hss rfl (by decide)
    obtain ⟨_, -, h⟩ := Option.bind_eq_some_iff.1 h
    obtain ⟨element', helement, -⟩ := Option.bind_eq_some_iff.1 h
    have hdepth := depth_le_of_readUpTo element helement
    rw [toJson, Json.depth_tagged, Nat.succ_le_succ_iff, depth_obj_le_succ_iff]
    simp [Json.ofUInt64, Json.depth, hdepth]
  | func ret params vararg =>
    obtain ⟨⟨tag, body⟩, hvariant, h⟩ := Option.bind_eq_some_iff.1 h
    obtain ⟨n, rfl, rfl, rfl⟩ := variant_limit hvariant
    obtain ⟨ss, hss, h⟩ := Option.bind_eq_some_iff.1 h
    obtain ⟨n, rfl, rfl⟩ := slots_limit hss rfl (by decide)
    obtain ⟨ret', hret, h⟩ := Option.bind_eq_some_iff.1 h
    obtain ⟨params', hparams, -⟩ := Option.bind_eq_some_iff.1 h
    have hdepth := depth_le_of_readUpTo ret hret
    have hitems := depth_le_of_readList params hparams
    rw [toJson, Json.depth_tagged, Nat.succ_le_succ_iff, depth_obj_le_succ_iff]
    simp [Json.depth, hdepth, hitems]
  | struct name fields packed =>
    obtain ⟨⟨tag, body⟩, hvariant, h⟩ := Option.bind_eq_some_iff.1 h
    obtain ⟨n, rfl, rfl, rfl⟩ := variant_limit hvariant
    obtain ⟨ss, hss, h⟩ := Option.bind_eq_some_iff.1 h
    obtain ⟨n, rfl, rfl⟩ := slots_limit hss rfl (by decide)
    obtain ⟨_, -, h⟩ := Option.bind_eq_some_iff.1 h
    obtain ⟨fields', hfields, -⟩ := Option.bind_eq_some_iff.1 h
    have hname : (Json.ofOption Json.str name).depth ≤ n :=
      Json.depth_ofOption_le fun _ => Nat.zero_le n
    have hitems := depth_le_of_readList fields hfields
    rw [toJson, Json.depth_tagged, Nat.succ_le_succ_iff, depth_obj_le_succ_iff]
    simp [Json.depth, hname, hitems]

theorem depth_le_of_readList (ts : List Ty) {k n : Nat} {ts' : List Ty}
    (h : readList (readUpTo k) (Json.limit n (.arr (listJson ts))) = some ts') :
    Json.depthItems (listJson ts) + 1 ≤ n := by
  obtain _ | n := n
  · cases h
  cases ts with
  | nil => simp [listJson, Json.depthItems]
  | cons t ts =>
    rw [Json.limit, listJson, Json.limitItems, readList, List.mapM_cons] at h
    obtain ⟨t', ht, h⟩ := Option.bind_eq_some_iff.1 h
    obtain ⟨ts', hts, -⟩ := Option.bind_eq_some_iff.1 h
    have hdepth := depth_le_of_readUpTo t ht
    have hrest := depth_le_of_readList ts (n := n + 1) hts
    rw [listJson, Json.depthItems]
    omega

end

theorem thorough : Thorough toJson read where
  depth_le {_ t _} h := depth_le_of_readUpTo t h

end Ty

theorem Value.thorough : Thorough toJson read where
  depth_le {n v w} h := by
    cases v with
    | undef => exact Nat.zero_le n
    | constArray ns =>
      obtain ⟨⟨tag, body⟩, hvariant, h⟩ := Option.bind_eq_some_iff.1 h
      obtain ⟨n, rfl, rfl, rfl⟩ := variant_limit hvariant
      obtain ⟨ns', hns, -⟩ := Option.bind_eq_some_iff.1 h
      have hints : Thorough Json.ofInt64 Json.readInt64 := .of_depth_eq_zero fun _ => rfl
      have hdepth := hints.list.depth_le hns
      rw [toJson, Json.depth_tagged]
      omega
    | temp | const | global | function =>
      obtain ⟨⟨tag, body⟩, hvariant, -⟩ := Option.bind_eq_some_iff.1 h
      obtain ⟨n, rfl, -⟩ := variant_limit hvariant
      exact Nat.succ_le_succ (Nat.zero_le n)

theorem AsmOperand.thorough : Thorough toJson read where
  depth_le {n o o'} h := by
    obtain ⟨ss, hss, h⟩ := Option.bind_eq_some_iff.1 h
    obtain ⟨n, rfl, rfl⟩ := slots_limit hss rfl (by decide)
    obtain ⟨_, -, h⟩ := Option.bind_eq_some_iff.1 h
    obtain ⟨value, hvalue, -⟩ := Option.bind_eq_some_iff.1 h
    have hdepth := Value.thorough.depth_le hvalue
    have htied : (Json.ofOption Json.ofUInt64 o.tiedTo).depth ≤ n :=
      Json.depth_ofOption_le fun _ => Nat.zero_le n
    rw [toJson, depth_obj_le_succ_iff]
    simp [Json.depth, hdepth, htied]

namespace Instruction

theorem edge_thorough : Thorough edgeJson (readPair Value.read BlockId.read) :=
  Value.thorough.pair BlockId.thorough

theorem thorough : Thorough toJson read where
  depth_le {n i i'} h := by
    have hid? (x : Option ValueId) (n : Nat) : (Json.ofOption ValueId.toJson x).depth ≤ n :=
      Json.depth_ofOption_le fun _ => Nat.zero_le n
    have hvalue {n : Nat} {v w : Value} := Value.thorough.depth_le (n := n) (a := v) (b := w)
    have hvalues {n : Nat} {vs ws : List Value} :=
      Value.thorough.list.depth_le (n := n) (a := vs) (b := ws)
    have hvalue? {n : Nat} {v w : Option Value} :=
      Value.thorough.depth_ofOption_le_of_read (n := n) (x := v) (y := w)
    have htype {n : Nat} {t t' : Ty} := Ty.thorough.depth_le (n := n) (a := t) (b := t')
    have hstrings : Thorough Json.str readString := .of_depth_eq_zero fun _ => rfl
    cases i
    -- Every instruction is a variant with a body.
    all_goals
      obtain ⟨⟨tag, body⟩, hvariant, h⟩ := Option.bind_eq_some_iff.1 h
      obtain ⟨n, rfl, rfl, rfl⟩ := variant_limit hvariant
      rw [toJson, Json.depth_tagged, Nat.succ_le_succ_iff]
    case ret =>
      obtain ⟨_, hreturned, -⟩ := Option.bind_eq_some_iff.1 h
      exact hvalue? hreturned
    case br => exact Nat.zero_le n
    case comment => exact Nat.zero_le n
    all_goals
      obtain ⟨ss, hss, h⟩ := Option.bind_eq_some_iff.1 h
      obtain ⟨n, rfl, rfl⟩ := slots_limit hss rfl (by decide)
      simp only [List.map_cons, List.map_nil, Json.Slot.required, Json.Slot.optional,
        Json.Slot.defaulted, Option.bind_eq_bind, Option.bind_eq_some_iff] at h
      rw [depth_obj_le_succ_iff]
    case binary =>
      obtain ⟨_, -, _, -, _, hlhs, _, hrhs, _, hty, -⟩ := h
      simp [Json.depth, hvalue hlhs, hvalue hrhs, htype hty]
    case unary =>
      obtain ⟨_, -, _, -, _, hoperand, _, hty, -⟩ := h
      simp [Json.depth, hvalue hoperand, htype hty]
    case load =>
      obtain ⟨_, -, _, hptr, _, hty, -⟩ := h
      simp [hvalue hptr, htype hty]
    case store =>
      obtain ⟨_, hstored, _, hptr, -⟩ := h
      simp [hvalue hstored, hvalue hptr]
    case elementPtr =>
      obtain ⟨_, -, _, hptr, _, hindices, _, hty, -⟩ := h
      simp [hvalue hptr, hvalues hindices, htype hty]
    case alloca =>
      obtain ⟨_, -, _, hallocated, _, hcount, _, hty, -⟩ := h
      simp [htype hallocated, hvalue? hcount, htype hty]
    case call =>
      obtain ⟨_, -, _, htarget, _, hargs, _, hty, -⟩ := h
      simp [Json.depth, hid?, hvalue htarget, hvalues hargs, htype hty]
    case condBr =>
      obtain ⟨_, hcond, -⟩ := h
      simp [hvalue hcond]
    case phi =>
      obtain ⟨_, -, _, hincoming, _, hty, -⟩ := h
      simp [edge_thorough.list.depth_le hincoming, htype hty]
    case cast =>
      obtain ⟨_, -, _, hcast, _, hty, -⟩ := h
      simp [hvalue hcast, htype hty]
    case select =>
      obtain ⟨_, -, _, hcond, _, htrue, _, hfalse, _, hty, -⟩ := h
      simp [hvalue hcond, hvalue htrue, hvalue hfalse, htype hty]
    case intrinsic =>
      obtain ⟨_, -, _, -, _, hargs, _, hty, -⟩ := h
      simp [Json.depth, hid?, hvalues hargs, htype hty]
    case debugLoc =>
      obtain ⟨_, hloc, -⟩ := h
      simpa using Location.thorough.depth_le hloc
    case inlineAsm =>
      obtain ⟨_, -, _, houtputs, _, hinputs, _, hclobbers, -⟩ := h
      simp [Json.depth, AsmOperand.thorough.list.depth_le houtputs,
        AsmOperand.thorough.list.depth_le hinputs, hstrings.list.depth_le hclobbers]

end Instruction

theorem Block.thorough : Thorough toJson read where
  depth_le {n b b'} h := by
    obtain ⟨ss, hss, h⟩ := Option.bind_eq_some_iff.1 h
    obtain ⟨n, rfl, rfl⟩ := slots_limit hss rfl (by decide)
    obtain ⟨_, -, h⟩ := Option.bind_eq_some_iff.1 h
    obtain ⟨_, hinstructions, h⟩ := Option.bind_eq_some_iff.1 h
    obtain ⟨_, hpreds, h⟩ := Option.bind_eq_some_iff.1 h
    obtain ⟨_, hsuccs, -⟩ := Option.bind_eq_some_iff.1 h
    rw [toJson, depth_obj_le_succ_iff]
    simp [Instruction.thorough.list.depth_le hinstructions,
      BlockId.thorough.list.depth_le hpreds, BlockId.thorough.list.depth_le hsuccs]

namespace Function

theorem param_thorough : Thorough paramJson (readPair ValueId.read Ty.read) :=
  ValueId.thorough.pair Ty.thorough

theorem thorough : Thorough toJson read where
  depth_le {n f f'} h := by
    obtain ⟨ss, hss, h⟩ := Option.bind_eq_some_iff.1 h
    obtain ⟨n, rfl, rfl⟩ := slots_limit hss rfl (by decide)
    obtain ⟨_, -, h⟩ := Option.bind_eq_some_iff.1 h
    obtain ⟨_, hreturnType, h⟩ := Option.bind_eq_some_iff.1 h
    obtain ⟨_, hparams, h⟩ := Option.bind_eq_some_iff.1 h
    obtain ⟨_, hblocks, h⟩ := Option.bind_eq_some_iff.1 h
    obtain ⟨_, -, h⟩ := Option.bind_eq_some_iff.1 h
    obtain ⟨_, -, h⟩ := Option.bind_eq_some_iff.1 h
    obtain ⟨_, -, h⟩ := Option.bind_eq_some_iff.1 h
    obtain ⟨_, hlocation, -⟩ := Option.bind_eq_some_iff.1 h
    rw [toJson, depth_obj_le_succ_iff]
    simp [Json.depth, Ty.thorough.depth_le hreturnType, param_thorough.list.depth_le hparams,
      Block.thorough.list.depth_le hblocks, Location.thorough.depth_ofOption_le_of_read hlocation]

end Function

theorem Global.thorough : Thorough toJson read where
  depth_le {n g g'} h := by
    obtain ⟨ss, hss, h⟩ := Option.bind_eq_some_iff.1 h
    obtain ⟨n, rfl, rfl⟩ := slots_limit hss rfl (by decide)
    obtain ⟨_, -, h⟩ := Option.bind_eq_some_iff.1 h
    obtain ⟨_, hty, h⟩ := Option.bind_eq_some_iff.1 h
    obtain ⟨_, -, h⟩ := Option.bind_eq_some_iff.1 h
    obtain ⟨_, hinitial, -⟩ := Option.bind_eq_some_iff.1 h
    rw [toJson, depth_obj_le_succ_iff]
    simp [Json.depth, Ty.thorough.depth_le hty, Value.thorough.depth_ofOption_le_of_read hinitial]

namespace Module

theorem thorough : Thorough toJson read where
  depth_le {n m m'} h := by
    obtain ⟨ss, hss, h⟩ := Option.bind_eq_some_iff.1 h
    obtain ⟨n, rfl, rfl⟩ := slots_limit hss rfl (by decide)
    obtain ⟨_, -, h⟩ := Option.bind_eq_some_iff.1 h
    obtain ⟨_, hfunctions, h⟩ := Option.bind_eq_some_iff.1 h
    obtain ⟨_, hglobals, h⟩ := Option.bind_eq_some_iff.1 h
    obtain ⟨_, htypeDefs, -⟩ := Option.bind_eq_some_iff.1 h
    rw [toJson, depth_obj_le_succ_iff]
    simp [Json.depth, Function.thorough.list.depth_le hfunctions,
      Global.thorough.list.depth_le hglobals, Ty.thorough.table.depth_le htypeDefs]

/-- Loading brings back just what was saved, unless that nests too deeply for the reader, which then
makes nothing of it. -/
theorem load_save (m : Module) :
    load m.save = if m.toJson.depth ≤ Json.maxDepth then some m else none := by
  have hfaithful := lossless.faithful m
  have hread : Json.read m.save = some (m.toJson.limit Json.maxDepth) := by
    rw [Json.read, save, Json.parse_toPretty hfaithful, Option.map_some]
  rw [load, hread, Option.bind_eq_bind, Option.bind_some]
  split
  · next hdepth => rw [Json.limit_of_depth_le hfaithful hdepth, lossless.read_write]
  · next hdepth =>
    rw [Option.eq_none_iff_forall_ne_some]
    intro m' hm'
    exact hdepth (thorough.depth_le hm')

end Module

end Native

end PassEngine
