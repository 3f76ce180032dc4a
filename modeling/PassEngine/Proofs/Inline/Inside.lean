import PassEngine.Proofs.Inline.Outside

namespace PassEngine.Inline

open Dialect

variable {V W : Type}

theorem isPhi_copyOp (r : Renaming) (cont : BlockId) (o : Op) :
    (copyOp r cont o).kind.isPhi = o.kind.isPhi := by
  rcases eq_ret_or_ne_ret o with ⟨value, h⟩ | h
  · rw [copyOp_of_ret h, h]
    rfl
  · rw [copyOp_of_ne_ret h]
    simp [Renaming.op]

namespace Splicing

variable {caller callee : Function} (s : Splicing caller callee)

/-- The values of the called body are those of its copy, and the values of the caller are kept. -/
structure Carries (I : Interpretation V W) (inner outer env' : Env V) : Prop where
  copy : ∀ v x, inner v = some x → ∃ y, s.names.value? v = some y ∧ y.eval I env' = some x
  outer : ∀ v ∈ caller.definitions, (∀ x, s.merged ≠ .replace v x) → env' v = outer v

section Names

variable {s}

/-- An argument, or a value of the copy, is not the value of the call. -/
theorem merged_operand_of_apart (hapart : ∀ r, s.call.result = some r → r ∉ s.call.uses)
    {y : Operand} (hy : ∀ v, y = .value v → v ∈ s.call.uses ∨ v ∈ s.fresh) :
    s.merged.operand y = y := by
  cases y with
  | value v =>
    rcases s.merged_operand_value v with ⟨x, hm, -⟩ | ⟨-, hv⟩
    · have hr := (s.of_merged_eq_replace hm).1
      rcases hy v rfl with hcall | hfresh
      · exact absurd hcall (hapart v hr)
      · exact absurd (Function.mem_definitions_of_result s.call_mem_ops hr)
          (s.not_mem_definitions_of_mem_fresh hfresh)
    · exact hv
  | _ => exact s.merged_operand_of_ne (by simp)

variable {symbols : List String} (hs : Inlinable symbols caller callee)

include hs

theorem targets_last_subset {t : BlockId} (ht : t ∈ s.last.flow.targets) : t ∈ caller.ids := by
  cases hterm : s.last.terminator? with
  | none => simp [Block.flow, hterm] at ht
  | some o =>
    have ht : t ∈ o.successors := by simpa [Block.flow, hterm] using ht
    rw [Block.terminator?, Option.filter_eq_some_iff] at hterm
    have ho := List.mem_of_getLast? hterm.1
    rw [ops_last, List.mem_append] at ho
    rcases ho with ho | ho
    · obtain ⟨v, -, rfl⟩ := s.mem_mergeOps ho
      cases hterm.2
    · have hkept : o ∈ s.kept := by simp [kept, ho]
      exact hs.callerFramed.targets o (s.mem_ops_caller_of_mem_kept hkept) t
        (o.successors_subset_blocks ht)

theorem block_names_not_mem_ids {b : Block} (hb : b ∈ callee.blocks) :
    s.names.block b.id ∉ caller.ids := by
  refine s.not_mem_ids_of_mem_cont_cons hs.calleeFramed.ids_nodup (List.mem_cons_of_mem _ ?_)
  exact List.mem_map.2 ⟨copyBlock s.names s.cont b, List.mem_map_of_mem hb, rfl⟩

theorem block_names_injective {t t' : BlockId} (ht : t ∈ callee.ids) (ht' : t' ∈ callee.ids)
    (h : s.names.block t = s.names.block t') : t = t' := by
  have hnodup : (callee.ids.map s.names.block).Nodup := by
    rw [names, Renaming.map_block_ids hs.calleeFramed.ids_nodup]
    have := s.blocks_fit
    exact freshBlocks_nodup (by rw [length_ids]; omega)
  exact List.inj_on_of_nodup_map hnodup ht ht' h

theorem edit_copyOp (hapart : ∀ r, s.call.result = some r → r ∉ s.call.uses) {b : Block}
    (hb : b ∈ callee.blocks) {o : Op} (ho : o ∈ b.ops) :
    s.edit (s.names.block b.id) (copyOp s.names s.cont o) = copyOp s.names s.cont o := by
  have hid : s.names.block b.id ∉ s.last.flow.targets := fun ht =>
    block_names_not_mem_ids hs hb (targets_last_subset hs ht)
  rw [edit, redirectOp, if_neg fun h => hid h.1]
  have hoperands : ∀ y ∈ (copyOp s.names s.cont o).operands, s.merged.operand y = id y := by
    intro y hy
    refine merged_operand_of_apart hapart ?_
    rintro v rfl
    obtain ⟨z, hz, hzv⟩ := mem_operands_copyOp hy
    rcases s.operand_names hs.calleeFramed.definitions_nodup (List.mem_flatMap.2 ⟨b, hb, ho⟩) hz hzv
      with hcall | ⟨u, -, hu⟩
    · exact .inl hcall
    · exact .inr (s.mem_fresh_of_origin? hu)
  rw [Op.mapOperands, OpKind.mapOperands_congr hoperands, OpKind.mapOperands_id]

theorem edit_of_mem_mergeOps {p : Op} (hp : p ∈ s.mergeOps) : s.edit s.cont p = p := by
  have hcont : s.cont ∉ s.last.flow.targets := fun ht =>
    cont_not_mem_ids hs (targets_last_subset hs ht)
  have hid : s.merged.operand = id := by
    funext y
    rw [mergeOps] at hp
    cases hm : s.merged with
    | phi o => rfl
    | nothing => simp [hm] at hp
    | replace r x => simp [hm] at hp
  rw [edit, redirectOp, if_neg fun h => hcont h.1, hid, Op.mapOperands_id]

end Names

section Carries

variable {s} {symbols : List String} {I : Interpretation V W} {inner outer env' : Env V}

theorem Carries.eval (h : s.Carries I inner outer env') {y : Operand} {x : V}
    (hy : y.eval I inner = some x) : (s.names.operand y).eval I env' = some x := by
  cases y with
  | value v =>
    obtain ⟨z, hz, hx⟩ := h.copy v x hy
    rw [Renaming.operand_value hz]
    exact hx
  | _ => exact hy

theorem Carries.bind (hs : Inlinable symbols caller callee) (h : s.Carries I inner outer env')
    {o : Op} (ho : o ∈ callee.ops) (hret : ∀ value, o.kind ≠ .ret value) (x : V) :
    s.Carries I (inner.bind o.result x) outer
      (env'.bind (copyOp s.names s.cont o).result x) := by
  have hnodup := hs.calleeFramed.definitions_nodup
  refine ⟨fun v y hv => ?_, fun v hv hne => ?_⟩
  · by_cases hov : o.result = some v
    · have hy : x = y := by simpa [Env.bind, hov] using hv
      subst hy
      obtain ⟨w, hw⟩ := s.exists_origin?_eq_some (List.mem_filterMap.2 ⟨o, ho, hov⟩)
      refine ⟨.value w, (s.value?_names hnodup).2 (.inr ⟨w, hw, rfl⟩), ?_⟩
      exact if_pos (s.result_copyOp hnodup hret hov hw)
    · have hv : inner v = some y := by simpa [Env.bind, hov] using hv
      obtain ⟨z, hz, hzy⟩ := h.copy v y hv
      refine ⟨z, hz, ?_⟩
      cases z with
      | value w =>
        refine (if_neg fun hw => ?_).trans hzy
        -- The result of the copy is fresh, and fresh for another value than `v`.
        obtain ⟨u, hu, horigin⟩ := s.exists_of_result_copyOp hnodup ho hw
        rcases (s.value?_names hnodup).1 hz with hmem | ⟨w', hw', heq⟩
        · have huse : w ∈ s.call.uses := by
            rw [Op.mem_uses_iff, s.operands_call]
            exact (List.of_mem_zip hmem).2
          exact s.not_mem_definitions_of_mem_fresh (s.mem_fresh_of_origin? horigin)
            (hs.reads s.call s.call_mem_ops w huse)
        · cases heq
          rw [horigin] at hw'
          exact hov (hu.trans hw')
      | _ => exact hzy
  · refine (if_neg fun hw => ?_).trans (h.outer v hv hne)
    obtain ⟨u, -, horigin⟩ := s.exists_of_result_copyOp hnodup ho hw
    exact s.not_mem_definitions_of_mem_fresh (s.mem_fresh_of_origin? horigin) hv

theorem Carries.bindAll (hs : Inlinable symbols caller callee) {phis : List Op}
    (hphis : ∀ o ∈ phis, o ∈ callee.ops ∧ o.kind.isPhi = true) (h : s.Carries I inner outer env')
    {xs : List V} (hxs : phis.length = xs.length) :
    s.Carries I (inner.bindAll (phis.zip xs)) outer
      (env'.bindAll ((phis.map (copyOp s.names s.cont)).zip xs)) := by
  induction phis generalizing inner env' xs with
  | nil => exact h
  | cons o phis ih =>
    obtain _ | ⟨x, xs⟩ := xs
    · simp at hxs
    · obtain ⟨ho, hphi⟩ := hphis o (by simp)
      have hbind := h.bind hs ho (ne_ret_of_isPhi hphi) x
      have := ih (fun o ho => hphis o (by simp [ho])) hbind (by simpa using hxs)
      simpa [Env.bindAll] using this

end Carries

structure AtCall (fr : Frame V) : Prop where
  fn : fr.fn = caller
  block : fr.block = s.block.id
  rest : fr.rest = s.call :: s.tail
  walk : ∃ past, Walk caller past fr.block fr.rest
  apart : ∀ r, s.call.result = some r → r ∉ s.call.uses

/-- The called body at work for the caller that waits for it, and its copy at work. -/
structure Inside (I : Interpretation V W) (inner outer fr' : Frame V) : Prop where
  fn : inner.fn = callee
  fn' : fr'.fn = s.result
  waits : s.AtCall outer
  place : ∃ b ∈ callee.blocks, inner.block = b.id ∧ ∃ l, b.ops = l ++ inner.rest
  block' : fr'.block = s.names.block inner.block
  rest' : fr'.rest = inner.rest.map (copyOp s.names s.cont)
  carries : s.Carries I inner.env outer.env fr'.env

section Inside

variable {s} {symbols : List String} {I : Interpretation V W} {inner outer fr' : Frame V}

theorem Inside.mem_ops (h : s.Inside I inner outer fr') {o : Op} (ho : o ∈ inner.rest) :
    o ∈ callee.ops := by
  obtain ⟨b, hb, -, l, hl⟩ := h.place
  exact List.mem_flatMap.2 ⟨b, hb, by simp [hl, ho]⟩

theorem Inside.pass (hs : Inlinable symbols caller callee) (h : s.Inside I inner outer fr') {o : Op}
    {rest : List Op} (hrest : inner.rest = o :: rest) (hret : ∀ value, o.kind ≠ .ret value)
    (x : Option V) : s.Inside I (inner.pass x) outer (fr'.pass x) := by
  have ho : o ∈ callee.ops := h.mem_ops (by simp [hrest])
  obtain ⟨fn, id, inner_rest, env⟩ := inner
  obtain ⟨fn', id', rest', env'⟩ := fr'
  obtain ⟨hfn, hfn', hwaits, ⟨b, hb, hid, l, hl⟩, hblock', hrest', hcarries⟩ := h
  dsimp only at hrest hfn hfn' hid hl hblock' hrest' hcarries
  subst hrest
  rw [List.map_cons] at hrest'
  subst hrest'
  refine ⟨hfn, hfn', hwaits, ⟨b, hb, hid, l ++ [o], ?_⟩, hblock', rfl, ?_⟩
  · show b.ops = (l ++ [o]) ++ rest
    simpa using hl
  · cases x with
    | none => exact hcarries
    | some x => exact hcarries.bind hs ho hret x

theorem Inside.arrive (hs : Inlinable symbols caller callee) (hwaits : s.AtCall outer) {b : Block}
    (hb : b ∈ callee.blocks) {env env' : Env V} (hcarries : s.Carries I env outer.env env')
    {source source' : Option BlockId}
    (hphis : ∀ p ∈ leading b.ops, ∀ x, phiValue I env source p = some x →
      phiValue I env' source' (copyOp s.names s.cont p) = some x)
    (h : Dialect.arrive I callee source env b = some inner) :
    ∃ b', s.result.block? (s.names.block b.id) = some b' ∧
      ∃ fr', Dialect.arrive I s.result source' env' b' = some fr' ∧ s.Inside I inner outer fr' := by
  obtain ⟨b', hb', hid, hops⟩ := exists_block?_result hs (s.copy_mem_code hb)
  -- In the copy nothing refers to the value of the call, so merging leaves it alone.
  have hops : b'.ops = b.ops.map (copyOp s.names s.cont) := by
    rw [hops, List.map_map]
    exact List.map_congr_left fun o ho => edit_copyOp hs hwaits.apart hb ho
  obtain ⟨xs, hxs, rfl⟩ := Option.map_eq_some_iff.1 h
  obtain ⟨hleading, hafter⟩ := leading_map (isPhi_copyOp s.names s.cont) b.ops
  rw [← hops] at hleading hafter
  have hxs' := mapM_map_of_imp (φ := copyOp s.names s.cont) hphis hxs
  rw [← hleading] at hxs'
  refine ⟨b', hb', _, Option.map_eq_some_iff.2 ⟨xs, hxs', rfl⟩, rfl, rfl, hwaits,
    ⟨b, hb, rfl, leading b.ops, (leading_append_afterPhis _).symm⟩, hid, hafter, ?_⟩
  rw [hleading]
  refine hcarries.bindAll hs (fun o ho => ⟨?_, isPhi_of_mem_leading ho⟩) (length_eq_of_mapM hxs)
  exact List.mem_flatMap.2 ⟨b, hb, List.takeWhile_subset _ ho⟩

theorem Inside.jump (hs : Inlinable symbols caller callee) (h : s.Inside I inner outer fr')
    {dest : BlockId} {inner₁ : Frame V} (hjump : inner.jump I dest = some inner₁) :
    ∃ fr₁', fr'.jump I (s.names.block dest) = some fr₁' ∧ s.Inside I inner₁ outer fr₁' := by
  rw [Frame.jump, h.fn] at hjump
  obtain ⟨b, hblock, harrive⟩ := Option.bind_eq_some_iff.1 hjump
  obtain ⟨hb, rfl⟩ := Function.mem_of_block? hblock
  obtain ⟨c, hc, hid, -⟩ := h.place
  have hidc : inner.block ∈ callee.ids := by
    rw [hid]
    exact List.mem_map_of_mem hc
  have hphis : ∀ p ∈ leading b.ops, ∀ x, phiValue I inner.env (some inner.block) p = some x →
      phiValue I fr'.env (some fr'.block) (copyOp s.names s.cont p) = some x := by
    intro p hp x hx
    obtain ⟨y, hincoming, hy⟩ := phiValue_eq_some_iff.1 hx
    have hpops : p ∈ callee.ops := List.mem_flatMap.2 ⟨b, hb, List.takeWhile_subset _ hp⟩
    have hret := ne_ret_of_isPhi (isPhi_of_mem_leading hp)
    refine phiValue_eq_some_iff.2 ⟨s.names.operand y, ?_, h.carries.eval hy⟩
    rw [copyOp_of_ne_ret hret, Renaming.op, h.block', OpKind.incoming?_map, hincoming]
    · rfl
    -- Labels of the copy are apart, so a phi finds the same entry.
    · intro q hq
      have hqids := hs.calleeFramed.targets p hpops q hq
      exact ⟨fun heq => block_names_injective hs hqids hidc heq, fun heq => by rw [heq]⟩
  obtain ⟨b', hb', fr₁', hfr₁', hinside⟩ := Inside.arrive hs h.waits hb h.carries hphis harrive
  refine ⟨fr₁', ?_, hinside⟩
  rw [Frame.jump, h.fn', hb']
  exact hfr₁'

theorem mem_zip_of_mapM {α β γ : Type} {f : α → Option γ} {as : List α} {xs : List γ}
    (h : as.mapM f = some xs) {ps : List β} {p : β} {x : γ} (hx : (p, x) ∈ ps.zip xs) :
    ∃ a, (p, a) ∈ ps.zip as ∧ f a = some x := by
  induction as generalizing ps xs with
  | nil =>
    cases h
    simp at hx
  | cons a as ih =>
    simp only [List.mapM_cons, Option.bind_eq_bind, Option.bind_eq_some_iff, Option.pure_def,
      Option.some.injEq] at h
    obtain ⟨y, hy, ys, hys, rfl⟩ := h
    obtain _ | ⟨q, ps⟩ := ps
    · simp at hx
    · rw [List.zip_cons_cons, List.mem_cons] at hx
      rcases hx with heq | hx
      · cases heq
        exact ⟨a, by simp, hy⟩
      · obtain ⟨a', ha', hfa⟩ := ih hys hx
        exact ⟨a', by simp [ha'], hfa⟩

/-- Where the caller makes the call, the spliced function jumps into the copy. -/
theorem Inside.start (hs : Inlinable symbols caller callee) {fr : Frame V} (h : s.Outside I fr fr')
    (hrest : fr.rest = s.call :: s.tail) (hblock : fr.block = s.block.id) {xs : List V}
    (hargs : s.args.mapM (Operand.eval I fr.env) = some xs)
    (hstart : Dialect.start I callee xs = some inner) :
    ∃ fr₁', fr'.jump I (s.names.block s.entry.id) = some fr₁' ∧ s.Inside I inner fr fr₁' := by
  obtain ⟨hfn, hfn', -, -, ⟨past, hwalk⟩, hagrees⟩ := h
  rw [hrest] at hwalk hagrees
  have hapart : ∀ r, s.call.result = some r → r ∉ s.call.uses := fun r hr =>
    hwalk.not_mem_uses_of_result hs.callerFramed.definitions_nodup hs.strict s.isPhi_call hr
  have hcarries : s.Carries I (.ofParams callee.params xs) fr.env fr'.env := by
    -- A parameter has the value of its argument, which does not read the value of the call.
    refine ⟨fun v x hv => ?_, hagrees.same⟩
    obtain ⟨⟨v', x'⟩, hfind, rfl⟩ := Option.map_eq_some_iff.1 hv
    have hv' := List.find?_some hfind
    rw [beq_iff_eq] at hv'
    subst hv'
    obtain ⟨y, hmem, hy⟩ := mem_zip_of_mapM hargs (List.mem_of_find?_eq_some hfind)
    refine ⟨y, (s.value?_names hs.calleeFramed.definitions_nodup).2 (.inl hmem), ?_⟩
    have hoperand : y ∈ s.call.operands := by
      rw [s.operands_call]
      exact (List.of_mem_zip hmem).2
    have heval := hagrees.eval_of_mem_operands hs s.call_mem_ops s.isPhi_call y hoperand x' hy
    rwa [merged_operand_of_apart hapart] at heval
    rintro u rfl
    exact .inl (s.call.mem_uses_iff.2 hoperand)
  have hhead : callee.blocks.head? = some s.entry := by simp [s.callee_eq]
  rw [Dialect.start, hhead] at hstart
  have hphis : ∀ p ∈ leading s.entry.ops, ∀ x,
      phiValue I (.ofParams callee.params xs) none p = some x →
      phiValue I fr'.env (some fr'.block) (copyOp s.names s.cont p) = some x := by
    simp [phiValue]
  have hwaits : s.AtCall fr := ⟨hfn, hblock, hrest, ⟨past, by rwa [hrest]⟩, hapart⟩
  obtain ⟨b', hb', fr₁', hfr₁', hinside⟩ :=
    Inside.arrive hs hwaits (List.mem_of_head? hhead) hcarries hphis hstart
  refine ⟨fr₁', ?_, hinside⟩
  rw [Frame.jump, hfn', hb']
  exact hfr₁'

/-- What stands for the value of the call when the body returns `value`. -/
def returned (s : Splicing caller callee) (value : Option Operand) : Operand :=
  (value.map s.names.operand).getD .undef

theorem Carries.eval_returned {inner outer env' : Env V} (h : s.Carries I inner outer env')
    {value : Option Operand} {x : V} (hx : (value.getD .undef).eval I inner = some x) :
    (s.returned value).eval I env' = some x := by
  cases value with
  | none => exact hx
  | some y => exact h.eval hx

/-- A block returns once, so that its name finds what it returns. -/
theorem find?_returns (hs : Inlinable symbols caller callee) {b : Block} (hb : b ∈ callee.blocks)
    {o : Op} (ho : o ∈ b.ops) {value : Option Operand} (hk : o.kind = .ret value) :
    ((returns s.names callee).find? (·.2 == s.names.block b.id)).map (·.1) =
      some (s.returned value) := by
  cases hfind : (returns s.names callee).find? (·.2 == s.names.block b.id) with
  | none =>
    have := List.find?_eq_none.1 hfind _ (s.mem_returns_of_ret hb ho hk)
    simp at this
  | some e =>
    obtain ⟨x, id⟩ := e
    have hid := List.find?_some hfind
    rw [beq_iff_eq] at hid
    obtain ⟨b', hb', hid', o', ho', value', hk', hx⟩ :=
      s.mem_returns (List.mem_of_find?_eq_some hfind)
    -- Blocks with the same copy are the same, and a block has one terminator.
    have hbb : b' = b := by
      have hids : b'.id = b.id := block_names_injective hs (List.mem_map_of_mem hb')
        (List.mem_map_of_mem hb) (hid'.symm.trans hid)
      exact List.inj_on_of_nodup_map hs.calleeFramed.ids_nodup hb' hb hids
    subst hbb
    have hoo : o' = o := by
      obtain ⟨body, last, -, hlast⟩ := (hs.calleeFramed.closed b' hb).exists_last
      have hterm : o.isTerminator = true := by
        rw [Op.isTerminator, hk]
        rfl
      have hterm' : o'.isTerminator = true := by
        rw [Op.isTerminator, hk']
        rfl
      rw [hlast o ho hterm, hlast o' ho' hterm']
    subst hoo
    rw [hk] at hk'
    cases hk'
    simp [hx, returned]

theorem isPhi_of_mem_tail (hs : Inlinable symbols caller callee) {o : Op} (ho : o ∈ s.tail) :
    o.kind.isPhi = false := by
  have hplain := hs.callerPhis s.block s.block_mem_blocks
  rw [s.ops_eq, (leading_append_cons _ s.isPhi_call _).2] at hplain
  exact hplain o (by simp [ho])

/-- The value that the body returns is merged, be it by a phi or by what stands for it. -/
theorem Inside.merge (hs : Inlinable symbols caller callee) (h : s.Inside I inner outer fr')
    {o : Op} (ho : o ∈ inner.rest) {value : Option Operand} (hk : o.kind = .ret value) {x : V}
    (hx : (value.getD .undef).eval I inner.env = some x) :
    ∃ xs, (s.mergeOps.map (s.edit s.cont)).mapM (phiValue I fr'.env (some fr'.block)) = some xs ∧
      s.Agrees I (outer.env.bind s.call.result x)
        (fr'.env.bindAll ((s.mergeOps.map (s.edit s.cont)).zip xs)) s.block.id s.tail := by
  obtain ⟨b, hb, hid, l, hl⟩ := h.place
  have hob : o ∈ b.ops := by simp [hl, ho]
  have hreturned := h.carries.eval_returned hx
  have hmem := s.mem_returns_of_ret hb hob hk
  rcases merge_cases s.call (returns s.names callee) with
    ⟨hr, hm⟩ | ⟨r, hr, ⟨hrets, -⟩ | ⟨z, b₀, hrets, hm⟩ | ⟨-, hm⟩⟩
  · have hm : s.merged = .nothing := hm
    have hops : s.mergeOps = [] := by simp [mergeOps, hm]
    refine ⟨[], by simp [hops], fun v hv hne => ?_, by simp [hm]⟩
    simpa [hops, hr, Env.bind, Env.bindAll] using h.carries.outer v hv hne
  · -- A body that returns has a return.
    simp [hrets] at hmem
  · have hm : s.merged = .replace r z := hm
    have hops : s.mergeOps = [] := by simp [mergeOps, hm]
    have hz : s.returned value = z := by
      rw [hrets, List.mem_singleton] at hmem
      exact (Prod.mk.inj hmem).1
    refine ⟨[], by simp [hops], fun v hv hne => ?_, fun r' z' hm' => .inl fun y hy => ?_⟩
    · have hvr : r ≠ v := fun heq => hne z (heq ▸ hm)
      simpa [hops, hr, Env.bind, Env.bindAll, hvr] using h.carries.outer v hv hne
    · rw [hm] at hm'
      cases hm'
      have hxy : x = y := by simpa [hr, Env.bind] using hy
      rw [← hxy, ← hz]
      simpa [hops, Env.bindAll] using hreturned
  · have hm : s.merged = .phi ⟨some r, s.call.ty, .phi (returns s.names callee)⟩ := hm
    have hops : s.mergeOps = [⟨some r, s.call.ty, .phi (returns s.names callee)⟩] := by
      simp [mergeOps, hm]
    have hedit : s.edit s.cont ⟨some r, s.call.ty, .phi (returns s.names callee)⟩ =
        ⟨some r, s.call.ty, .phi (returns s.names callee)⟩ :=
      edit_of_mem_mergeOps hs (by simp [hops])
    have hvalue : phiValue I fr'.env (some fr'.block)
        ⟨some r, s.call.ty, .phi (returns s.names callee)⟩ = some x := by
      refine phiValue_eq_some_iff.2 ⟨s.returned value, ?_, hreturned⟩
      rw [h.block', hid]
      exact find?_returns hs hb hob hk
    refine ⟨[x], by simp [hops, hedit, hvalue], fun v hv hne => ?_, by simp [hm]⟩
    simp only [hops, hedit, hr, Env.bind, Env.bindAll, List.map_cons, List.map_nil,
      List.zip_cons_cons, List.zip_nil_right, List.foldl_cons, List.foldl_nil]
    split
    · rfl
    · exact h.carries.outer v hv hne

/-- Where the body returns, its copy goes on behind the call. -/
theorem Inside.leave (hs : Inlinable symbols caller callee) (h : s.Inside I inner outer fr')
    {o : Op} (ho : o ∈ inner.rest) {value : Option Operand} (hk : o.kind = .ret value) {x : V}
    (hx : (value.getD .undef).eval I inner.env = some x) :
    ∃ fr₁', fr'.jump I s.cont = some fr₁' ∧ s.Outside I (outer.pass (some x)) fr₁' := by
  obtain ⟨xs, hxs, hagrees⟩ := h.merge hs ho hk hx
  obtain ⟨b', hb', hid, hops⟩ := exists_block?_result hs s.last_mem_code
  -- In the continuation at most the merging phi stands before the second half of the block.
  have hmerge : ∀ p ∈ s.mergeOps, p.kind.isPhi = true := by
    intro p hp
    obtain ⟨v, -, rfl⟩ := s.mem_mergeOps hp
    rfl
  obtain ⟨hleading, hafter⟩ := leading_append_of_forall hmerge
    (fun o ho => isPhi_of_mem_tail hs ho)
  obtain ⟨hleading', hafter'⟩ := leading_map (s.isPhi_edit s.cont) (s.mergeOps ++ s.tail)
  rw [← hops, hleading] at hleading'
  rw [← hops, hafter] at hafter'
  have hrest : afterPhis b'.ops = s.tail.map s.rewrite := by
    rw [hafter']
    exact List.map_congr_left fun o ho => s.edit_of_isPhi_eq_false (isPhi_of_mem_tail hs ho)
  rw [← hleading'] at hxs hagrees
  have hpass : outer.pass (some x) = { outer with
      rest := s.tail, env := outer.env.bind s.call.result x } := by
    rw [Frame.pass, h.waits.rest]
    rfl
  obtain ⟨past, hwalk⟩ := h.waits.walk
  rw [h.waits.rest] at hwalk
  have hjump : fr'.jump I s.cont = some
      { fn := s.result, block := b'.id, rest := afterPhis b'.ops
        env := fr'.env.bindAll ((leading b'.ops).zip xs) } := by
    rw [Frame.jump, h.fn', hb']
    exact Option.map_eq_some_iff.2 ⟨xs, hxs, rfl⟩
  rw [hpass]
  refine ⟨_, hjump, h.waits.fn, rfl, ?_, fun p hp => isPhi_of_mem_tail hs hp, ⟨_, hwalk.pass⟩, ?_⟩
  · exact .inr (.inr ⟨[], rfl, h.waits.block, hid, hrest⟩)
  · rw [h.waits.block]
    exact hagrees

end Inside

end Splicing

end PassEngine.Inline
