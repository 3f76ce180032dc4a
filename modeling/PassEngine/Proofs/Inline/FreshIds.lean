import PassEngine.Inline.Splice
import PassEngine.Proofs.Dialect.WellFormed
import PassEngine.Proofs.Except

namespace PassEngine

theorem firstAbove_le_iff {ns : List UInt32} {n : Nat} :
    firstAbove ns ≤ n ↔ ∀ k ∈ ns, k.toNat < n := by
  induction ns with
  | nil => simp [firstAbove]
  | cons k ns ih =>
    rw [List.forall_mem_cons, ← ih]
    simp only [firstAbove, List.foldr_cons]
    omega

theorem lt_firstAbove {ns : List UInt32} {n : UInt32} (h : n ∈ ns) : n.toNat < firstAbove ns :=
  firstAbove_le_iff.1 (Nat.le_refl _) n h

namespace Inline

open Dialect

theorem toNat_ofNat_of_lt {n : Nat} (h : n < idCount) : (UInt32.ofNat n).toNat = n := by
  rw [UInt32.toNat_ofNat']
  exact Nat.mod_eq_of_lt h

theorem nodup_map_ofNat {start count : Nat} (h : start + count ≤ idCount) :
    ((List.range count).map fun i => UInt32.ofNat (start + i)).Nodup := by
  refine List.Nodup.map_on (fun i hi j hj hij => ?_) List.nodup_range
  rw [List.mem_range] at hi hj
  have := congrArg UInt32.toNat hij
  rw [toNat_ofNat_of_lt (by omega), toNat_ofNat_of_lt (by omega)] at this
  omega

def freshValues (start count : Nat) : List ValueId :=
  (List.range count).map fun i => ⟨UInt32.ofNat (start + i)⟩

def freshBlocks (start count : Nat) : List BlockId :=
  (List.range count).map fun i => ⟨UInt32.ofNat (start + i)⟩

theorem freshValues_nodup {start count : Nat} (h : start + count ≤ idCount) :
    (freshValues start count).Nodup := by
  have := (nodup_map_ofNat h).map (f := ValueId.mk) fun _ _ => ValueId.mk.inj
  rwa [List.map_map] at this

theorem freshBlocks_nodup {start count : Nat} (h : start + count ≤ idCount) :
    (freshBlocks start count).Nodup := by
  have := (nodup_map_ofNat h).map (f := BlockId.mk) fun _ _ => BlockId.mk.inj
  rwa [List.map_map] at this

@[simp]
theorem length_freshValues (start count : Nat) : (freshValues start count).length = count := by
  simp [freshValues]

@[simp]
theorem length_freshBlocks (start count : Nat) : (freshBlocks start count).length = count := by
  simp [freshBlocks]

theorem not_mem_definitions_of_mem_freshValues {f : Function} {count : Nat} {v : ValueId}
    (h : f.nextValue + count ≤ idCount) (hv : v ∈ freshValues f.nextValue count) :
    v ∉ f.definitions := by
  intro hmem
  have hlt : v.index.toNat < f.nextValue := lt_firstAbove (List.mem_map_of_mem hmem)
  obtain ⟨i, hi, rfl⟩ := List.mem_map.1 hv
  rw [List.mem_range] at hi
  rw [toNat_ofNat_of_lt (by omega)] at hlt
  omega

theorem not_mem_ids_of_mem_freshBlocks {f : Function} {count : Nat} {b : BlockId}
    (h : f.nextBlock + count ≤ idCount) (hb : b ∈ freshBlocks f.nextBlock count) : b ∉ f.ids := by
  intro hmem
  obtain ⟨block, hblock, rfl⟩ := List.mem_map.1 hmem
  have hlt : block.id.index.toNat < f.nextBlock :=
    lt_firstAbove (List.mem_map_of_mem (f := fun b : Block => b.id.index) hblock)
  obtain ⟨i, hi, hid⟩ := List.mem_map.1 hb
  rw [List.mem_range] at hi
  rw [← hid, toNat_ofNat_of_lt (by omega)] at hlt
  omega

theorem map_range_succ {α : Type} (f : Nat → α) (start count : Nat) :
    (List.range (count + 1)).map (fun i => f (start + i)) =
      f start :: (List.range count).map fun i => f (start + 1 + i) := by
  simp [List.range_succ_eq_map, Function.comp_def, Nat.add_assoc, Nat.add_comm 1]

theorem freshBlocks_succ (start count : Nat) : freshBlocks start (count + 1) =
    ⟨UInt32.ofNat start⟩ :: freshBlocks (start + 1) count :=
  map_range_succ (fun n => BlockId.mk (.ofNat n)) start count

theorem counterAt_eq (n : Nat) :
    counterAt n = if n < idCount then .ok (.ofNat n) else .error .overflow := rfl

/-- Ids are handed out as long as the counter can go on after each. -/
theorem draw_ofNat {start : Nat} (h : start < idCount) (count : Nat) :
    draw (.ofNat start) count =
      if start + count < idCount then
        .ok ((List.range count).map fun i => UInt32.ofNat (start + i))
      else .error .overflow := by
  induction count generalizing start with
  | zero =>
    rw [Nat.add_zero, if_pos h]
    rfl
  | succ count ih =>
    rw [draw, toNat_ofNat_of_lt h, counterAt_eq]
    by_cases hafter : start + 1 < idCount
    · rw [if_pos hafter, ok_bind, ih hafter]
      by_cases hfit : start + 1 + count < idCount
      · rw [if_pos hfit, if_pos (by omega), ok_bind, map_range_succ, pure_eq_ok]
      · rw [if_neg hfit, if_neg (by omega), error_bind]
    · rw [if_neg hafter, if_neg (by omega), error_bind]

/-- The ids that are left in `caller` are enough for a copy of `callee`. -/
def HasRoom (caller callee : Function) : Prop :=
  caller.nextValue + (callee.ops.filterMap Op.result).length < idCount ∧
    caller.nextBlock + 1 + callee.blocks.length < idCount

instance (caller callee : Function) : Decidable (HasRoom caller callee) :=
  inferInstanceAs (Decidable (_ ∧ _))

/-- The ids go up in two rows from the first ones above those of the caller, if there are enough. -/
theorem freshIds_eq (caller callee : Function) : freshIds caller callee =
    if HasRoom caller callee then
      .ok { cont := ⟨UInt32.ofNat caller.nextBlock⟩
            blocks := freshBlocks (caller.nextBlock + 1) callee.blocks.length
            values := freshValues caller.nextValue (callee.ops.filterMap Op.result).length }
    else .error .overflow := by
  -- A counter can be full from the start, after the first id, or on the way.
  by_cases hvalue : caller.nextValue < idCount
  · by_cases hafter : caller.nextBlock + 1 < idCount
    · have hcont : caller.nextBlock < idCount := by omega
      simp only [freshIds, counterAt_eq, if_pos hvalue, if_pos hcont, ok_bind,
        toNat_ofNat_of_lt hcont, if_pos hafter, draw_ofNat hafter, draw_ofNat hvalue]
      by_cases hblocks : caller.nextBlock + 1 + callee.blocks.length < idCount
      · by_cases hvalues : caller.nextValue + (callee.ops.filterMap Op.result).length < idCount
        · simp [HasRoom, hblocks, hvalues, freshBlocks, freshValues]
        · simp [HasRoom, hblocks, hvalues]
      · simp [HasRoom, hblocks]
    · have hroom : ¬HasRoom caller callee := fun h => by have := h.2; omega
      by_cases hcont : caller.nextBlock < idCount
      · simp only [freshIds, counterAt_eq, if_pos hvalue, if_pos hcont, ok_bind,
          toNat_ofNat_of_lt hcont, if_neg hafter, error_bind, if_neg hroom]
      · simp only [freshIds, counterAt_eq, if_pos hvalue, if_neg hcont, ok_bind, error_bind,
          if_neg hroom]
  · have hroom : ¬HasRoom caller callee := fun h => by have := h.1; omega
    simp only [freshIds, counterAt_eq, if_neg hvalue, error_bind, if_neg hroom]

end Inline

end PassEngine
