import Mathlib.Data.List.Pairwise
import PassEngine.Proofs.Dialect.WellFormed
import PassEngine.Proofs.Semantics.Machine

namespace PassEngine.Dialect

/-- A way through a function from its entry. The operations in `past` lie behind, and those in
`rest`, in block `id`, lie ahead. -/
inductive Walk (f : Function) : (past : List Op) → (id : BlockId) → (rest : List Op) → Prop where
  | entry {b : Block} (h : f.blocks.head? = some b) : Walk f [] b.id b.ops
  | pass {past : List Op} {id : BlockId} {o : Op} {rest : List Op}
      (h : Walk f past id (o :: rest)) : Walk f (past ++ [o]) id rest
  | branch {past : List Op} {id : BlockId} {o : Op} {rest : List Op} {b : Block}
      (h : Walk f past id (o :: rest)) (hb : b ∈ f.blocks) (hbranch : b.id ∈ o.successors) :
      Walk f (past ++ [o]) b.id b.ops

namespace Function

def Sets (f : Function) (past : List Op) (v : ValueId) : Prop :=
  v ∈ f.params.map (·.1) ∨ ∃ o ∈ past, o.result = some v

/-- Whichever way control comes, a value is defined before it is read. A phi reads at the end of the
block that control comes from. -/
structure StrictSsa (f : Function) : Prop where
  uses : ∀ past id o rest, Walk f past id (o :: rest) → o.kind.isPhi = false →
    ∀ v ∈ o.uses, f.Sets past v
  phis : ∀ past id o rest, Walk f past id (o :: rest) → ∀ b ∈ f.blocks, b.id ∈ o.successors →
    ∀ p ∈ b.ops, ∀ incoming, p.kind = .phi incoming →
      ∀ v, (.value v, id) ∈ incoming → f.Sets (past ++ [o]) v

/-- Phis stand at the head of their block only. -/
def PhisLead (f : Function) : Prop :=
  ∀ b ∈ f.blocks, ∀ o ∈ afterPhis b.ops, o.kind.isPhi = false

instance (f : Function) : Decidable f.PhisLead :=
  inferInstanceAs (Decidable (∀ b ∈ f.blocks, ∀ o ∈ afterPhis b.ops, o.kind.isPhi = false))

end Function

namespace Walk

variable {f : Function} {past : List Op} {id : BlockId} {rest : List Op}

theorem exists_block (h : Walk f past id rest) :
    ∃ b ∈ f.blocks, b.id = id ∧ ∃ before, b.ops = before ++ rest := by
  induction h with
  | @entry b h => exact ⟨b, List.mem_of_head? h, rfl, [], rfl⟩
  | @pass past id o rest h ih =>
    obtain ⟨b, hb, hid, before, hops⟩ := ih
    exact ⟨b, hb, hid, before ++ [o], by simp [hops]⟩
  | @branch past id o rest b h hb hbranch ih => exact ⟨b, hb, rfl, [], rfl⟩

theorem mem_ops (h : Walk f past id rest) {o : Op} (ho : o ∈ rest) : o ∈ f.ops := by
  obtain ⟨b, hb, -, before, hops⟩ := h.exists_block
  exact List.mem_flatMap.2 ⟨b, hb, by simp [hops, ho]⟩

theorem passAll {l : List Op} (h : Walk f past id (l ++ rest)) : Walk f (past ++ l) id rest := by
  induction l generalizing past with
  | nil => simpa using h
  | cons o l ih => simpa using ih h.pass

theorem upTo (h : Walk f past id rest) {before after : List Op} {c : Op}
    (hpast : past = before ++ c :: after) : ∃ id' rest', Walk f before id' (c :: rest') := by
  have hlast : ∀ {past : List Op} {id : BlockId} {o : Op} {rest : List Op} {after : List Op},
      Walk f past id (o :: rest) →
      (∀ {after : List Op}, past = before ++ c :: after →
        ∃ id' rest', Walk f before id' (c :: rest')) →
      past ++ [o] = before ++ c :: after → ∃ id' rest', Walk f before id' (c :: rest') := by
    intro past id o rest after h ih heq
    -- The operation passed last is the one in question, or else comes after it.
    rcases List.eq_nil_or_concat' after with rfl | ⟨after, last, rfl⟩
    · obtain ⟨rfl, ho⟩ := List.append_inj' heq rfl
      cases ho
      exact ⟨id, rest, h⟩
    · have heq : past ++ [o] = (before ++ c :: after) ++ [last] := by simpa using heq
      exact ih (List.append_inj' heq rfl).1
  induction h generalizing after with
  | entry h => simp at hpast
  | pass h ih => exact hlast h ih hpast
  | branch h hb hbranch ih => exact hlast h ih hpast

end Walk

theorem append_cons_inj_of_nodup {α β : Type} {g : α → Option β} {l p q p' q' : List α} {o o' : α}
    {a : β} (h : (l.filterMap g).Nodup) (hl : l = p ++ o :: q) (hl' : l = p' ++ o' :: q')
    (ho : g o = some a) (ho' : g o' = some a) : p = p' ∧ o = o' ∧ q = q' := by
  -- The shorter of the two beginnings is a beginning of the other one, up to the same element.
  have hmem : ∀ {t p q : List α} {o o' : α}, g o = some a → g o' = some a →
      ¬((p ++ o :: t ++ o' :: q).filterMap g).Nodup := by
    intro t p q o o' ho ho' hnodup
    simp only [List.filterMap_append, List.filterMap_cons, ho, ho'] at hnodup
    have hdisjoint := (List.nodup_append'.1 hnodup).2.2
    exact hdisjoint (a := a) (by simp) (by simp)
  rcases List.append_eq_append_iff.1 (hl.symm.trans hl') with ⟨t, rfl, ht⟩ | ⟨t, rfl, ht⟩
  · cases t with
    | nil =>
      obtain ⟨rfl, rfl⟩ := List.cons.inj ht
      simp
    | cons c t =>
      obtain ⟨rfl, rfl⟩ := List.cons.inj ht
      rw [hl'] at h
      exact absurd h (hmem ho ho')
  · cases t with
    | nil =>
      obtain ⟨rfl, rfl⟩ := List.cons.inj ht
      simp
    | cons c t =>
      obtain ⟨rfl, rfl⟩ := List.cons.inj ht
      rw [hl] at h
      exact absurd h (hmem ho' ho)

theorem point_unique {f : Function} (h : (f.ops.filterMap Op.result).Nodup) {b b' : Block}
    (hb : b ∈ f.blocks) (hb' : b' ∈ f.blocks) {before rest before' rest' : List Op} {o o' : Op}
    (hops : b.ops = before ++ o :: rest) (hops' : b'.ops = before' ++ o' :: rest') {a : ValueId}
    (ho : o.result = some a) (ho' : o'.result = some a) : b = b' ∧ o = o' ∧ rest = rest' := by
  rw [Function.ops, List.filterMap_flatMap, List.nodup_flatMap] at h
  obtain ⟨hblock, hdisjoint⟩ := h
  have heq : b = b' := by
    by_contra hne
    have : Std.Symm (Function.onFun List.Disjoint fun b : Block => b.ops.filterMap Op.result) :=
      ⟨fun _ _ hd _ h h' => hd h' h⟩
    have ha : a ∈ b.ops.filterMap Op.result := List.mem_filterMap.2 ⟨o, by simp [hops], ho⟩
    have ha' : a ∈ b'.ops.filterMap Op.result := List.mem_filterMap.2 ⟨o', by simp [hops'], ho'⟩
    exact hdisjoint.forall hb hb' hne ha ha'
  subst heq
  obtain ⟨-, hoo, hrest⟩ := append_cons_inj_of_nodup (hblock b hb) hops hops' ho ho'
  exact ⟨rfl, hoo, hrest⟩

theorem exists_first {past : List Op} {v : ValueId} (h : ∃ o ∈ past, o.result = some v) :
    ∃ before c after, past = before ++ c :: after ∧ c.result = some v ∧
      ∀ o ∈ before, o.result ≠ some v := by
  obtain ⟨o, ho, hv⟩ := h
  have hfind : (past.find? fun o => o.result == some v).isSome := by
    rw [List.find?_isSome]
    exact ⟨o, ho, by simp [hv]⟩
  obtain ⟨c, hc⟩ := Option.isSome_iff_exists.1 hfind
  obtain ⟨hcv, before, after, hpast, hbefore⟩ := List.find?_eq_some_iff_append.1 hc
  refine ⟨before, c, after, hpast, by simpa using hcv, fun o ho => ?_⟩
  simpa using hbefore o ho

namespace Walk

variable {f : Function} {past : List Op} {id : BlockId} {rest : List Op}

theorem point_eq (h : (f.ops.filterMap Op.result).Nodup) {past' : List Op} {id' : BlockId}
    {rest' : List Op} {o o' : Op} (hw : Walk f past id (o :: rest))
    (hw' : Walk f past' id' (o' :: rest')) {a : ValueId} (ho : o.result = some a)
    (ho' : o'.result = some a) : id = id' ∧ o = o' ∧ rest = rest' := by
  obtain ⟨b, hb, hid, before, hops⟩ := hw.exists_block
  obtain ⟨b', hb', hid', before', hops'⟩ := hw'.exists_block
  obtain ⟨rfl, hoo, hrest⟩ := point_unique h hb hb' hops hops' ho ho'
  exact ⟨hid.symm.trans hid', hoo, hrest⟩

variable (hnodup : f.definitions.Nodup) (hstrict : f.StrictSsa)

include hnodup hstrict

/-- An operation that control reaches does not read its own result. -/
theorem not_mem_uses_of_result {o : Op} (h : Walk f past id (o :: rest))
    (hphi : o.kind.isPhi = false) {r : ValueId} (hr : o.result = some r) : r ∉ o.uses := by
  intro hmem
  have hparam := Function.not_mem_params_of_result hnodup (h.mem_ops (by simp)) hr
  -- The first time round it would have to be defined before.
  rcases hstrict.uses past id o rest h hphi r hmem with hp | hdefined
  · exact hparam hp
  · obtain ⟨before, c, after, rfl, hc, hbefore⟩ := exists_first hdefined
    obtain ⟨id', rest', hw⟩ := h.upTo rfl
    obtain ⟨-, rfl, -⟩ := hw.point_eq (List.Nodup.of_append_right hnodup) h hc hr
    rcases hstrict.uses before id' c rest' hw hphi r hmem with hp | ⟨o', ho', hr'⟩
    · exact hparam hp
    · exact hbefore o' ho' hr'

/-- Where a value is defined that an operation reads, there is a way to come that does not pass the
operation. -/
theorem exists_avoiding {o c : Op} (h : Walk f past id (o :: rest)) {a r : ValueId}
    (ha : o.result = some a) (hc : c ∈ f.ops) (hcr : c.result = some r)
    (hphi : c.kind.isPhi = false) (huse : a ∈ c.uses) :
    ∃ past', Walk f past' id (o :: rest) ∧ ∀ o' ∈ past', o'.result ≠ some r := by
  have hresults : (f.ops.filterMap Op.result).Nodup := List.Nodup.of_append_right hnodup
  by_cases hdefined : ∃ o' ∈ past, o'.result = some r
  · obtain ⟨before, c', after, rfl, hc', hbefore⟩ := exists_first hdefined
    obtain ⟨id', rest', hw⟩ := h.upTo rfl
    have hcc : c' = c := by
      obtain ⟨b, hb, hcb⟩ := List.mem_flatMap.1 hc
      obtain ⟨pre, post, hops⟩ := List.append_of_mem hcb
      obtain ⟨b', hb', -, pre', hops'⟩ := hw.exists_block
      exact (point_unique hresults hb' hb hops' hops hc' hcr).2.1
    subst hcc
    -- The value is defined on the way to the first time the operation is met.
    rcases hstrict.uses before id' c' rest' hw hphi a huse with hp | hset
    · exact absurd hp (Function.not_mem_params_of_result hnodup (h.mem_ops (by simp)) ha)
    · obtain ⟨before', o', after', rfl, ho', -⟩ := exists_first hset
      obtain ⟨id'', rest'', hw'⟩ := hw.upTo rfl
      obtain ⟨rfl, rfl, rfl⟩ := hw'.point_eq hresults h ho' ha
      exact ⟨before', hw', fun o ho => hbefore o (by simp [ho])⟩
  · exact ⟨past, h, fun o' ho' hr => hdefined ⟨o', ho', hr⟩⟩

end Walk

def OpKind.readFrom (k : OpKind) (source : BlockId) : List ValueId :=
  match k with
  | phi incoming => incoming.filterMap fun e => if e.2 = source then e.1.value? else none
  | _ => []

namespace Function

/-- Whether the operations of block `id` read only what is known by then, and leave at a branch what
its target expects. -/
def ready (f : Function) (available : BlockId → List ValueId) (id : BlockId) :
    (known : List ValueId) → List Op → Bool
  | _, [] => true
  | known, o :: rest =>
    let next := o.result.toList ++ known
    (o.kind.isPhi || o.uses.all (· ∈ known)) &&
    (f.blocks.all fun b => b.id ∉ o.successors || (available b.id).all (· ∈ next) &&
      b.ops.all fun p => (p.kind.readFrom id).all (· ∈ next)) &&
    ready f available id next rest

def knownAt (f : Function) (available : BlockId → List ValueId) (id : BlockId) : List ValueId :=
  f.params.map (·.1) ++ available id

variable {f : Function} {available : BlockId → List ValueId}

theorem ready_cons {id : BlockId} {known : List ValueId} {o : Op} {rest : List Op}
    (h : f.ready available id known (o :: rest) = true) :
    (o.kind.isPhi = false → ∀ v ∈ o.uses, v ∈ known) ∧
    (∀ b ∈ f.blocks, b.id ∈ o.successors →
      (∀ v ∈ available b.id, v ∈ o.result.toList ++ known) ∧
      ∀ p ∈ b.ops, ∀ v ∈ p.kind.readFrom id, v ∈ o.result.toList ++ known) ∧
    f.ready available id (o.result.toList ++ known) rest = true := by
  simp only [ready, Bool.and_eq_true, Bool.or_eq_true, List.all_eq_true, decide_eq_true_eq] at h
  obtain ⟨⟨huses, hbranches⟩, hrest⟩ := h
  refine ⟨fun hphi v hv => ?_, fun b hb hbranch => ?_, hrest⟩
  · rcases huses with hphi' | huses
    · rw [hphi] at hphi'
      cases hphi'
    · exact huses v hv
  · rcases hbranches b hb with hnot | hready
    · exact absurd hbranch hnot
    · exact hready

theorem sets_append {known : List ValueId} {ops : List Op} {o : Op}
    (h : ∀ v ∈ known, f.Sets ops v) (v : ValueId) (hv : v ∈ o.result.toList ++ known) :
    f.Sets (ops ++ [o]) v := by
  rcases List.mem_append.1 hv with hv | hv
  · exact .inr ⟨o, by simp, by simpa using hv⟩
  · exact (h v hv).imp_right fun ⟨o', ho', hv'⟩ => ⟨o', by simp [ho'], hv'⟩

/-- On every way through the function, what the check takes for known is set. -/
theorem exists_known (hentry : ∀ b, f.blocks.head? = some b → available b.id = [])
    (hready : ∀ b ∈ f.blocks, f.ready available b.id (f.knownAt available b.id) b.ops = true)
    {past : List Op} {id : BlockId} {rest : List Op} (h : Walk f past id rest) :
    ∃ known, f.ready available id known rest = true ∧ ∀ v ∈ known, f.Sets past v := by
  induction h with
  | @entry b hb =>
    -- Where the function begins, only the parameters are set.
    refine ⟨_, hready b (List.mem_of_head? hb), fun v hv => .inl ?_⟩
    rwa [knownAt, hentry b hb, List.append_nil] at hv
  | @pass past id o rest hw ih =>
    obtain ⟨known, hknown, hsets⟩ := ih
    exact ⟨_, (ready_cons hknown).2.2, sets_append hsets⟩
  | @branch past id o rest b hw hb hbranch ih =>
    obtain ⟨known, hknown, hsets⟩ := ih
    refine ⟨_, hready b hb, fun v hv => ?_⟩
    rcases List.mem_append.1 hv with hv | hv
    · exact .inl hv
    · exact sets_append hsets v (((ready_cons hknown).2.1 b hb hbranch).1 v hv)

theorem strictSsa_of_ready (available : BlockId → List ValueId)
    (hentry : ∀ b, f.blocks.head? = some b → available b.id = [])
    (hready : ∀ b ∈ f.blocks, f.ready available b.id (f.knownAt available b.id) b.ops = true) :
    f.StrictSsa where
  uses past id o rest hw hphi v hv := by
    obtain ⟨known, hknown, hsets⟩ := exists_known hentry hready hw
    exact hsets v ((ready_cons hknown).1 hphi v hv)
  phis past id o rest hw b hb hbranch p hp incoming hk v hv := by
    obtain ⟨known, hknown, hsets⟩ := exists_known hentry hready hw
    refine sets_append hsets v (((ready_cons hknown).2.1 b hb hbranch).2 p hp v ?_)
    rw [hk]
    exact List.mem_filterMap.2 ⟨(.value v, id), hv, by simp [Operand.value?]⟩

end Function

end PassEngine.Dialect
