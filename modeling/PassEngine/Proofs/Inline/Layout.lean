import Mathlib.Data.List.TakeWhile
import PassEngine.Proofs.Inline.Scoping
import PassEngine.Proofs.Semantics.Strict

namespace PassEngine

namespace Dialect

theorem Function.exists_block?_of_mem_code {f : Function} (h : f.ids.Nodup) {id : BlockId}
    {ops : List Op} (hmem : (id, ops) ∈ f.code) :
    ∃ b, f.block? id = some b ∧ b.id = id ∧ b.ops = ops := by
  obtain ⟨b, hb, heq⟩ := List.mem_map.1 hmem
  obtain ⟨rfl, rfl⟩ := Prod.mk.inj heq
  cases hfind : f.block? b.id with
  | none =>
    have := List.find?_eq_none.1 hfind b hb
    simp at this
  | some b' =>
    have hid := List.find?_some hfind
    have hb' := List.mem_of_find?_eq_some hfind
    rw [beq_iff_eq] at hid
    have := List.inj_on_of_nodup_map h hb' hb hid
    exact ⟨b', rfl, hid, by rw [this]⟩

theorem Function.mem_of_block? {f : Function} {id : BlockId} {b : Block}
    (h : f.block? id = some b) : b ∈ f.blocks ∧ b.id = id :=
  ⟨List.mem_of_find?_eq_some h, by simpa using List.find?_some h⟩

theorem leading_append_afterPhis (ops : List Op) : leading ops ++ afterPhis ops = ops :=
  List.takeWhile_append_dropWhile

theorem leading_append_cons (l : List Op) {o : Op} (h : o.kind.isPhi = false) (t : List Op) :
    leading (l ++ o :: t) = leading l ∧ afterPhis (l ++ o :: t) = afterPhis l ++ o :: t := by
  induction l with
  | nil => simp [leading, afterPhis, h]
  | cons p l ih =>
    obtain ⟨ihl, iha⟩ := ih
    by_cases hp : p.kind.isPhi = true
    · simp only [leading, afterPhis, List.cons_append, List.takeWhile_cons, List.dropWhile_cons, hp,
        if_true] at ihl iha ⊢
      exact ⟨by rw [ihl], iha⟩
    · simp [leading, afterPhis, hp]

theorem leading_append_of_forall {l t : List Op} (hl : ∀ o ∈ l, o.kind.isPhi = true)
    (ht : ∀ o ∈ t, o.kind.isPhi = false) : leading (l ++ t) = l ∧ afterPhis (l ++ t) = t := by
  cases t with
  | nil =>
    rw [List.append_nil, leading, afterPhis, List.takeWhile_eq_self_iff, List.dropWhile_eq_nil_iff]
    exact ⟨hl, hl⟩
  | cons o t =>
    have hleading : leading l = l := List.takeWhile_eq_self_iff.2 hl
    have hafter : afterPhis l = [] := List.dropWhile_eq_nil_iff.2 hl
    obtain ⟨h₁, h₂⟩ := leading_append_cons l (ht o (by simp)) t
    rw [h₁, h₂, hleading, hafter]
    exact ⟨rfl, rfl⟩

theorem leading_map {g : Op → Op} (hg : ∀ o, (g o).kind.isPhi = o.kind.isPhi) (ops : List Op) :
    leading (ops.map g) = (leading ops).map g ∧ afterPhis (ops.map g) = (afterPhis ops).map g := by
  have hcomp : ((fun o : Op => o.kind.isPhi) ∘ g) = fun o => o.kind.isPhi := funext hg
  constructor
  · rw [leading, List.takeWhile_map, hcomp, leading]
  · rw [afterPhis, List.dropWhile_map, hcomp, afterPhis]

theorem isPhi_of_mem_leading {ops : List Op} {o : Op} (h : o ∈ leading ops) :
    o.kind.isPhi = true :=
  List.mem_takeWhile_imp (p := fun o : Op => o.kind.isPhi) h

theorem OpKind.incoming?_map {f : Operand → Operand} {g : BlockId → BlockId} {k : OpKind}
    {p p' : BlockId} (h : ∀ q ∈ k.blocks, g q = p' ↔ q = p) :
    ((k.mapOperands f).mapBlocks g).incoming? p' = (k.incoming? p).map f := by
  cases k with
  | phi incoming =>
    simp only [blocks] at h
    simp only [mapOperands, mapBlocks, incoming?, List.map_map]
    induction incoming with
    | nil => rfl
    | cons e incoming ih =>
      have he := h e.2 (by simp)
      have ih := ih fun q hq => h q (by simp_all)
      -- No other block comes to have the new name, so the first entry that fits stays the first.
      by_cases hep : e.2 = p
      · subst hep
        simp [he.2 rfl]
      · have hne : ¬g e.2 = p' := fun hg => hep (he.1 hg)
        simp only [List.map_cons, List.find?_cons, Function.comp_apply, beq_eq_false_iff_ne.2 hne,
          beq_eq_false_iff_ne.2 hep]
        exact ih
  | _ => rfl

theorem OpKind.exists_of_incoming? {k : OpKind} {p : BlockId} {y : Operand}
    (h : k.incoming? p = some y) : ∃ incoming, k = .phi incoming ∧ (y, p) ∈ incoming := by
  cases k with
  | phi incoming =>
    obtain ⟨⟨y', p'⟩, hfind, rfl⟩ := Option.map_eq_some_iff.1 h
    have hp := List.find?_some hfind
    rw [beq_iff_eq] at hp
    subst hp
    exact ⟨incoming, rfl, List.mem_of_find?_eq_some hfind⟩
  | _ => cases h

end Dialect

namespace Inline

open Dialect

namespace Splicing

variable {caller callee : Function} (s : Splicing caller callee)

/-- What becomes of an operation of the caller that is no phi. -/
def rewrite (o : Op) : Op := o.mapOperands s.merged.operand

/-- The jump that the call becomes. -/
def jumpIn : Op := .void (.br (s.names.block s.entry.id))

def body (b : Block) : List Op := if b.id = s.block.id then s.head ++ [s.jumpIn] else b.ops

theorem edit_of_isPhi_eq_false {id : BlockId} {o : Op} (h : o.kind.isPhi = false) :
    s.edit id o = s.rewrite o := by
  simp [edit, redirectOp, h, rewrite]

@[simp]
theorem isPhi_edit (id : BlockId) (o : Op) : (s.edit id o).kind.isPhi = o.kind.isPhi := by
  rw [edit, Op.mapOperands, OpKind.isPhi_mapOperands, redirectOp]
  split
  · rw [Op.mapBlocks, OpKind.isPhi_mapBlocks]
  · rfl

theorem kind_edit_of_isPhi {id : BlockId} {o : Op} (h : o.kind.isPhi = true) :
    (s.edit id o).kind = (o.kind.mapOperands s.merged.operand).mapBlocks fun p =>
      if id ∈ s.last.flow.targets ∧ p = s.block.id then s.cont else p := by
  rw [edit, redirectOp]
  by_cases hid : id ∈ s.last.flow.targets
  · simp only [hid, h, and_self, if_true, true_and, Op.mapOperands, Op.mapBlocks,
      OpKind.mapOperands_mapBlocks]
  · simp only [hid, false_and, if_false, Op.mapOperands]
    cases o.kind <;> simp [OpKind.mapOperands, OpKind.mapBlocks]

theorem rewrite_jumpIn : s.rewrite s.jumpIn = s.jumpIn := rfl

theorem isPhi_call : s.call.kind.isPhi = false := by
  rw [s.kind_eq]
  rfl

theorem block_mem_blocks : s.block ∈ caller.blocks := by
  simp [s.blocks_eq]

theorem mem_caller_blocks {b : Block} (hb : b ∈ caller.blocks) :
    (b ∈ s.before ∨ b ∈ s.after) ∨ b = s.block := by
  rw [s.blocks_eq, List.mem_append, List.mem_cons] at hb
  rcases hb with hb | rfl | hb
  · exact .inl (.inl hb)
  · exact .inr rfl
  · exact .inl (.inr hb)

theorem id_ne_of_mem (h : caller.ids.Nodup) {b : Block} (hb : b ∈ s.before ∨ b ∈ s.after) :
    b.id ≠ s.block.id := by
  rw [Function.ids, s.blocks_eq, List.map_append, List.map_cons, List.nodup_middle,
    List.nodup_cons] at h
  intro heq
  apply h.1
  rw [← heq, List.mem_append]
  exact hb.imp (List.mem_map_of_mem ·) (List.mem_map_of_mem ·)

theorem id_eq_iff (h : caller.ids.Nodup) {b : Block} (hb : b ∈ caller.blocks) :
    b.id = s.block.id ↔ b = s.block := by
  constructor
  · intro hid
    rcases s.mem_caller_blocks hb with hb | hb
    · exact absurd hid (s.id_ne_of_mem h hb)
    · exact hb
  · intro hb
    rw [hb]

theorem mem_code_result {b : Block} (hb : b ∈ s.blocks) :
    (b.id, b.ops.map (s.edit b.id)) ∈ s.result.code := by
  rw [code_result]
  exact List.mem_map_of_mem (f := fun b : Block => (b.id, b.ops.map (s.edit b.id))) hb

theorem body_mem_code (h : caller.ids.Nodup) {b : Block} (hb : b ∈ caller.blocks) :
    (b.id, (s.body b).map (s.edit b.id)) ∈ s.result.code := by
  rcases s.mem_caller_blocks hb with hb | rfl
  · rw [body, if_neg (s.id_ne_of_mem h hb)]
    refine s.mem_code_result ?_
    simp only [blocks, List.mem_append, List.mem_cons]
    rcases hb with hb | hb
    · exact .inl (.inl hb)
    · exact .inr (.inr hb)
  · rw [body, if_pos rfl]
    exact s.mem_code_result (b := s.first) (by simp [blocks])

theorem copy_mem_code {b : Block} (hb : b ∈ callee.blocks) :
    (s.names.block b.id, (b.ops.map (copyOp s.names s.cont)).map (s.edit (s.names.block b.id))) ∈
      s.result.code := by
  refine s.mem_code_result (b := copyBlock s.names s.cont b) ?_
  simp only [blocks, List.mem_append, List.mem_cons]
  exact .inl (.inr (.inr (List.mem_map_of_mem hb)))

theorem last_mem_code : (s.cont, (s.mergeOps ++ s.tail).map (s.edit s.cont)) ∈ s.result.code := by
  rw [← ops_last]
  exact s.mem_code_result (b := s.last) (by simp [blocks])

theorem head?_result (h : caller.ids.Nodup) {b : Block} (hb : caller.blocks.head? = some b) :
    ∃ b', s.result.blocks.head? = some b' ∧ b'.id = b.id ∧
      b'.ops = (s.body b).map (s.edit b.id) := by
  have hcode : s.result.code.head? = some (b.id, (s.body b).map (s.edit b.id)) := by
    rw [code_result, List.head?_map, blocks]
    rw [s.blocks_eq] at hb
    -- The function begins with the split block only if no block stands before it.
    cases hbefore : s.before with
    | nil =>
      simp only [hbefore, List.nil_append, List.head?_cons, Option.some.injEq] at hb ⊢
      subst hb
      simp [first, body, jumpIn]
    | cons c before =>
      simp only [hbefore, List.cons_append, List.head?_cons, Option.some.injEq] at hb ⊢
      subst hb
      have hc : c ∈ s.before ∨ c ∈ s.after := by simp [hbefore]
      simp [body, s.id_ne_of_mem h hc]
  rw [Function.code, List.head?_map, Option.map_eq_some_iff] at hcode
  obtain ⟨b', hb', heq⟩ := hcode
  obtain ⟨hid, hops⟩ := Prod.mk.inj heq
  exact ⟨b', hb', hid, hops⟩

theorem leading_body (h : caller.ids.Nodup) {b : Block} (hb : b ∈ caller.blocks) :
    leading (s.body b) = leading b.ops := by
  by_cases hid : b.id = s.block.id
  · obtain rfl := (s.id_eq_iff h hb).1 hid
    rw [body, if_pos rfl, s.ops_eq, (leading_append_cons _ s.isPhi_call _).1]
    exact (leading_append_cons _ rfl _).1
  · rw [body, if_neg hid]

theorem mem_kept_of_mem_leading {b : Block} (hb : b ∈ caller.blocks) {o : Op}
    (ho : o ∈ leading b.ops) : o ∈ s.kept := by
  have hops := List.takeWhile_subset _ ho
  rw [kept, List.mem_append, List.mem_append, List.mem_append]
  rcases s.mem_caller_blocks hb with (hb | hb) | rfl
  · exact .inl (.inl (.inl (List.mem_flatMap.2 ⟨b, hb, hops⟩)))
  · exact .inr (List.mem_flatMap.2 ⟨b, hb, hops⟩)
  · rw [s.ops_eq, (leading_append_cons _ s.isPhi_call _).1] at ho
    exact .inl (.inl (.inr (List.takeWhile_subset _ ho)))

end Splicing

end Inline

end PassEngine
