import PassEngine.Proofs.Inline.Layout

namespace PassEngine.Inline

open Dialect

variable {V W : Type}

/-- What is known of two functions when the body of one takes the place of a call in the other. -/
structure Inlinable (symbols : List String) (caller callee : Function) : Prop where
  callerFramed : caller.Framed symbols
  calleeFramed : callee.Framed symbols
  reads : caller.Scoped
  strict : caller.StrictSsa
  callerPhis : caller.PhisLead

namespace Splicing

variable {caller callee : Function} (s : Splicing caller callee)

/-- Outside the copy both functions have the same values. Where another operand stands for the value
of the call, it has that value, or else control may have come here without the call, so that nothing
here reads it. -/
structure Agrees (I : Interpretation V W) (env env' : Env V) (id : BlockId) (rest : List Op) :
    Prop where
  same : ∀ v ∈ caller.definitions, (∀ x, s.merged ≠ .replace v x) → env' v = env v
  merged : ∀ r x, s.merged = .replace r x → (∀ y, env r = some y → x.eval I env' = some y) ∨
    ∃ past, Walk caller past id rest ∧ ¬caller.Sets past r

theorem merged_eq_replace (h : callee.definitions.Nodup) {r : ValueId} {x : Operand}
    (hm : s.merged = .replace r x) :
    s.call.result = some r ∧ ∀ a, x = .value a → a ∈ s.call.uses ∨ a ∈ s.fresh := by
  obtain ⟨hr, rfl | ⟨o, ho, z, hk, rfl⟩⟩ := s.of_merged_eq_replace hm
  · exact ⟨hr, by simp⟩
  · refine ⟨hr, fun a ha => ?_⟩
    rcases s.operand_names h ho (Op.mem_operands_of_ret hk) ha with hcall | ⟨u, -, hu⟩
    · exact .inl hcall
    · exact .inr (s.mem_fresh_of_origin? hu)

theorem result_ne_of_mem_kept (h : caller.definitions.Nodup) {o : Op} (ho : o ∈ s.kept)
    {r : ValueId} (hr : s.call.result = some r) : o.result ≠ some r := by
  intro hor
  rw [s.definitions_caller_perm.nodup_iff, List.nodup_append'] at h
  obtain ⟨-, -, hdisjoint⟩ := h
  have hmem : r ∈ s.kept.filterMap Op.result := List.mem_filterMap.2 ⟨o, ho, hor⟩
  exact hdisjoint (List.mem_append_right _ hmem) (by simp [hr])

section Agrees

variable {s} {I : Interpretation V W} {env env' : Env V} {id : BlockId} {rest : List Op}

/-- What is defined wherever control comes from has the same value on both sides. -/
theorem Agrees.eval (h : s.Agrees I env env' id rest) {y : Operand}
    (hdef : ∀ v, y = .value v → v ∈ caller.definitions)
    (hset : ∀ r, y = .value r → s.call.result = some r → ∀ past, Walk caller past id rest →
      caller.Sets past r) {x : V} (hy : y.eval I env = some x) :
    (s.merged.operand y).eval I env' = some x := by
  cases y with
  | value v =>
    rcases s.merged_operand_value v with ⟨z, hm, hz⟩ | ⟨hne, hv⟩
    · rw [hz]
      -- Had control come without the call, the value could not be read here.
      rcases h.merged v z hm with hleft | ⟨past, hw, hnot⟩
      · exact hleft x hy
      · have hr := (s.of_merged_eq_replace hm).1
        exact absurd (hset v rfl hr past hw) hnot
    · rw [hv]
      exact (h.same v (hdef v rfl) hne).trans hy
  | _ =>
    rw [s.merged_operand_of_ne (by simp)]
    exact hy

variable {symbols : List String} (hs : Inlinable symbols caller callee) {o : Op}

include hs

theorem Agrees.eval_of_mem_operands (ho : o ∈ caller.ops) (hphi : o.kind.isPhi = false)
    (h : s.Agrees I env env' id (o :: rest)) :
    ∀ y ∈ o.operands, ∀ x, y.eval I env = some x →
      (s.merged.operand y).eval I env' = some x := by
  intro y hy x hx
  refine h.eval ?_ ?_ hx
  · rintro v rfl
    exact hs.reads o ho v (o.mem_uses_iff.2 hy)
  · rintro v rfl - past hw
    exact hs.strict.uses past id o rest hw hphi v (o.mem_uses_iff.2 hy)

theorem not_sets_append {past : List Op} (ho : o ∈ s.kept) {r : ValueId}
    (hr : s.call.result = some r) (h : ¬caller.Sets past r) : ¬caller.Sets (past ++ [o]) r := by
  rintro (hp | ⟨o', ho', hor⟩)
  · exact h (.inl hp)
  · rcases List.mem_append.1 ho' with ho' | ho'
    · exact h (.inr ⟨o', ho', hor⟩)
    · rw [List.mem_singleton.1 ho'] at hor
      exact s.result_ne_of_mem_kept hs.callerFramed.definitions_nodup ho hr hor

theorem Agrees.branch (ho : o ∈ s.kept) (h : s.Agrees I env env' id (o :: rest)) {b : Block}
    (hb : b ∈ caller.blocks) (hbranch : b.id ∈ o.successors) : s.Agrees I env env' b.id b.ops := by
  refine ⟨h.same, fun r x hm => (h.merged r x hm).imp_right ?_⟩
  rintro ⟨past, hw, hnot⟩
  have hr := (s.of_merged_eq_replace hm).1
  exact ⟨past ++ [o], hw.branch hb hbranch, not_sets_append hs ho hr hnot⟩

theorem Agrees.skip (ho : o ∈ s.kept) (h : s.Agrees I env env' id (o :: rest)) :
    s.Agrees I env env' id rest := by
  refine ⟨h.same, fun r x hm => (h.merged r x hm).imp_right ?_⟩
  rintro ⟨past, hw, hnot⟩
  have hr := (s.of_merged_eq_replace hm).1
  exact ⟨past ++ [o], hw.pass, not_sets_append hs ho hr hnot⟩

/-- Where an argument of the call is defined, control may come without the call. -/
theorem exists_walk_not_sets {past : List Op} (hwalk : Walk caller past id (o :: rest))
    {a r : ValueId} (ha : o.result = some a) (huse : a ∈ s.call.uses)
    (hr : s.call.result = some r) :
    ∃ past', Walk caller past' id (o :: rest) ∧ ¬caller.Sets past' r := by
  have hnodup := hs.callerFramed.definitions_nodup
  obtain ⟨past', hw, havoid⟩ :=
    hwalk.exists_avoiding hnodup hs.strict ha s.call_mem_ops hr s.isPhi_call huse
  refine ⟨past', hw, ?_⟩
  rintro (hp | ⟨o', ho', hr'⟩)
  · exact Function.not_mem_params_of_result hnodup s.call_mem_ops hr hp
  · exact havoid o' ho' hr'

theorem Agrees.bind {past : List Op} (hwalk : Walk caller past id (o :: rest)) (ho : o ∈ s.kept)
    (h : s.Agrees I env env' id (o :: rest)) (y : V) :
    s.Agrees I (env.bind o.result y) (env'.bind o.result y) id rest := by
  have hskip := h.skip hs ho
  refine ⟨fun v hv hne => ?_, fun r x hm => ?_⟩
  · simp only [Env.bind]
    split
    · rfl
    · exact h.same v hv hne
  · obtain ⟨hr, hx⟩ := s.merged_eq_replace hs.calleeFramed.definitions_nodup hm
    have hor := s.result_ne_of_mem_kept hs.callerFramed.definitions_nodup ho hr
    have henv : (env.bind o.result y) r = env r := if_neg hor
    by_cases hxo : ∃ a, x = .value a ∧ o.result = some a
    · -- The operand that stands for the call gets a new value: no one can have made the call since.
      obtain ⟨a, rfl, ha⟩ := hxo
      right
      have huse : a ∈ s.call.uses := by
        rcases hx a rfl with huse | hfresh
        · exact huse
        · exact absurd (Function.mem_definitions_of_result (s.mem_ops_caller_of_mem_kept ho) ha)
            (s.not_mem_definitions_of_mem_fresh hfresh)
      obtain ⟨past', hw, hnot⟩ := exists_walk_not_sets hs hwalk ha huse hr
      exact ⟨past' ++ [o], hw.pass, not_sets_append hs ho hr hnot⟩
    · rw [henv]
      refine (hskip.merged r x hm).imp_left fun hleft z hz => ?_
      have hsame : x.eval I (env'.bind o.result y) = x.eval I env' := by
        cases x with
        | value a => exact if_neg fun ha => hxo ⟨a, rfl, ha⟩
        | _ => rfl
      rw [hsame, hleft z hz]

theorem Agrees.bindAll {past phis : List Op} (hwalk : Walk caller past id (phis ++ rest))
    (hphis : ∀ o ∈ phis, o ∈ s.kept)
    (h : s.Agrees I env env' id (phis ++ rest)) {ys : List V} (hys : phis.length = ys.length) :
    s.Agrees I (env.bindAll (phis.zip ys)) (env'.bindAll ((phis.map (s.edit id)).zip ys)) id
      rest := by
  induction phis generalizing past env env' ys with
  | nil => exact h
  | cons o phis ih =>
    obtain _ | ⟨y, ys⟩ := ys
    · simp at hys
    · have hbind := h.bind hs hwalk (hphis o (by simp)) y
      rw [← s.result_edit id o] at hbind
      have := ih hwalk.pass (fun o ho => hphis o (by simp [ho])) hbind (by simpa using hys)
      simpa [Env.bindAll] using this

end Agrees

/-- Where the spliced function is when the caller is at `rest` in block `id` and not in the called
body. -/
def Image (id : BlockId) (rest : List Op) (id' : BlockId) (rest' : List Op) : Prop :=
  (∃ b, (b ∈ s.before ∨ b ∈ s.after) ∧ id = b.id ∧ (∃ l, b.ops = l ++ rest) ∧ id' = id ∧
    rest' = rest.map s.rewrite) ∨
  (∃ l h, s.head = l ++ h ∧ id = s.block.id ∧ rest = h ++ s.call :: s.tail ∧ id' = id ∧
    rest' = h.map s.rewrite ++ [s.jumpIn]) ∨
  ∃ l, s.tail = l ++ rest ∧ id = s.block.id ∧ id' = s.cont ∧ rest' = rest.map s.rewrite

section Image

variable {s} {id id' : BlockId} {o : Op} {rest rest' : List Op}

theorem Image.cons (h : s.Image id (o :: rest) id' rest') :
    (o ∈ s.kept ∧ ∃ rest₁, rest' = s.rewrite o :: rest₁ ∧ s.Image id rest id' rest₁) ∨
    (o = s.call ∧ rest = s.tail ∧ id = s.block.id ∧ id' = id ∧ rest' = [s.jumpIn]) := by
  rcases h with ⟨b, hb, rfl, ⟨l, hl⟩, rfl, rfl⟩ | ⟨l, h, hl, rfl, hrest, rfl, rfl⟩ |
    ⟨l, hl, rfl, rfl, rfl⟩
  · refine .inl ⟨?_, _, rfl, .inl ⟨b, hb, rfl, ⟨l ++ [o], by simp [hl]⟩, rfl, rfl⟩⟩
    have ho : o ∈ b.ops := by simp [hl]
    rw [kept, List.mem_append, List.mem_append, List.mem_append]
    rcases hb with hb | hb
    · exact .inl (.inl (.inl (List.mem_flatMap.2 ⟨b, hb, ho⟩)))
    · exact .inr (List.mem_flatMap.2 ⟨b, hb, ho⟩)
  · -- The first half ends at the call, in whose place the jump stands.
    obtain _ | ⟨o', h⟩ := h
    · obtain ⟨rfl, rfl⟩ := List.cons.inj hrest
      exact .inr ⟨rfl, rfl, rfl, rfl, rfl⟩
    · obtain ⟨rfl, rfl⟩ := List.cons.inj hrest
      refine .inl ⟨by simp [kept, hl], _, rfl, .inr (.inl ?_)⟩
      exact ⟨l ++ [o], h, by simp [hl], rfl, rfl, rfl, rfl⟩
  · refine .inl ⟨by simp [kept, hl], _, rfl, .inr (.inr ?_)⟩
    exact ⟨l ++ [o], by simp [hl], rfl, rfl, rfl⟩

theorem Image.source {symbols : List String} (hs : Inlinable symbols caller callee)
    (h : s.Image id (o :: rest) id' rest') {dest : BlockId} (hdest : dest ∈ o.successors) :
    (id' = id ∧ id ≠ s.block.id) ∨
    (id = s.block.id ∧ id' = s.cont ∧ dest ∈ s.last.flow.targets) := by
  have hterm := o.isTerminator_of_mem_successors hdest
  obtain ⟨hhead, htail⟩ := s.closed_halves hs.callerFramed.closed
  rcases h with ⟨b, hb, rfl, -, rfl, -⟩ | ⟨l, h, hl, -, hrest, -, -⟩ | ⟨l, hl, rfl, rfl, -⟩
  · exact .inl ⟨rfl, s.id_ne_of_mem hs.callerFramed.ids_nodup hb⟩
  · obtain _ | ⟨o', h⟩ := h
    · obtain ⟨rfl, -⟩ := List.cons.inj hrest
      rw [s.isTerminator_call] at hterm
      cases hterm
    · obtain ⟨rfl, -⟩ := List.cons.inj hrest
      rw [hhead o (by simp [hl])] at hterm
      cases hterm
  · refine .inr ⟨rfl, rfl, ?_⟩
    -- The branch is the terminator of the second half, which nothing follows.
    obtain ⟨body, last, htail, hlast⟩ := htail.exists_last
    have ho : o = last := hlast o (by simp [hl]) hterm
    have hterminator : s.last.terminator? = some o := by
      rw [Block.terminator?, ops_last, htail, ← ho, ← List.append_assoc, List.getLast?_append]
      simp [hterm]
    simpa [Block.flow, hterminator] using hdest

theorem image_body (s : Splicing caller callee) (h : caller.ids.Nodup) {b : Block}
    (hb : b ∈ caller.blocks) :
    s.Image b.id (afterPhis b.ops) b.id ((afterPhis (s.body b)).map s.rewrite) := by
  rcases s.mem_caller_blocks hb with hb | rfl
  · rw [body, if_neg (s.id_ne_of_mem h hb)]
    exact .inl ⟨b, hb, rfl, ⟨leading b.ops, (leading_append_afterPhis _).symm⟩, rfl, rfl⟩
  · rw [body, if_pos rfl, s.ops_eq, (leading_append_cons _ s.isPhi_call _).2]
    rw [(leading_append_cons s.head (o := s.jumpIn) rfl []).2]
    refine .inr (.inl ⟨leading s.head, afterPhis s.head, ?_, rfl, rfl, rfl, ?_⟩)
    · exact (leading_append_afterPhis _).symm
    · rw [List.map_append, List.map_singleton, rewrite_jumpIn]

end Image

theorem isPhi_of_mem_afterPhis_body {symbols : List String} (hs : Inlinable symbols caller callee)
    {b : Block} (hb : b ∈ caller.blocks) {o : Op} (ho : o ∈ afterPhis (s.body b)) :
    o.kind.isPhi = false := by
  have hplain := hs.callerPhis b hb
  by_cases hid : b.id = s.block.id
  · obtain rfl := (s.id_eq_iff hs.callerFramed.ids_nodup hb).1 hid
    rw [body, if_pos rfl, (leading_append_cons s.head (o := s.jumpIn) rfl []).2] at ho
    rw [s.ops_eq, (leading_append_cons _ s.isPhi_call _).2] at hplain
    rcases List.mem_append.1 ho with ho | ho
    · exact hplain o (List.mem_append_left _ ho)
    · rw [List.mem_singleton.1 ho]
      rfl
  · rw [body, if_neg hid] at ho
    exact hplain o ho

structure Outside (I : Interpretation V W) (fr fr' : Frame V) : Prop where
  fn : fr.fn = caller
  fn' : fr'.fn = s.result
  image : s.Image fr.block fr.rest fr'.block fr'.rest
  plain : ∀ o ∈ fr.rest, o.kind.isPhi = false
  walk : ∃ past, Walk caller past fr.block fr.rest
  agrees : s.Agrees I fr.env fr'.env fr.block fr.rest

section Outside

variable {s} {symbols : List String} (hs : Inlinable symbols caller callee)
  {I : Interpretation V W} {fr fr' : Frame V}

include hs

theorem Outside.pass (h : s.Outside I fr fr') {o : Op} {rest : List Op}
    (hrest : fr.rest = o :: rest) (hnot : fr'.rest ≠ [s.jumpIn]) (x : Option V) :
    s.Outside I (fr.pass x) (fr'.pass x) := by
  obtain ⟨fn, id, rest', env⟩ := fr
  obtain ⟨fn', id', rest'', env'⟩ := fr'
  obtain ⟨hfn, hfn', himage, hplain, ⟨past, hwalk⟩, hagrees⟩ := h
  dsimp only at hfn hfn' hrest hnot himage hplain hwalk hagrees
  subst hrest
  rcases himage.cons with ⟨ho, rest₁, rfl, himage₁⟩ | ⟨-, -, -, -, hjump⟩
  · refine ⟨hfn, hfn', himage₁, fun p hp => hplain p (List.mem_cons_of_mem _ hp), ?_, ?_⟩
    · exact ⟨_, hwalk.pass⟩
    · cases x with
      | none => exact hagrees.skip hs ho
      | some y => exact hagrees.bind hs hwalk ho y
  · exact absurd hjump hnot

/-- Both functions enter the same block of the caller. -/
theorem Outside.arrive {b b' : Block} (hb : b ∈ caller.blocks) (hid : b'.id = b.id)
    (hops : b'.ops = (s.body b).map (s.edit b.id)) {env env' : Env V}
    {source source' : Option BlockId} {past : List Op} (hwalk : Walk caller past b.id b.ops)
    (hagrees : s.Agrees I env env' b.id b.ops)
    (hphis : ∀ p ∈ leading b.ops, ∀ x, phiValue I env source p = some x →
      phiValue I env' source' (s.edit b.id p) = some x)
    (h : Dialect.arrive I caller source env b = some fr) :
    ∃ fr', Dialect.arrive I s.result source' env' b' = some fr' ∧ s.Outside I fr fr' := by
  obtain ⟨xs, hxs, rfl⟩ := Option.map_eq_some_iff.1 h
  obtain ⟨hleading, hafter⟩ := leading_map (s.isPhi_edit b.id) (s.body b)
  rw [← hops, s.leading_body hs.callerFramed.ids_nodup hb] at hleading
  rw [← hops] at hafter
  have hafter : afterPhis b'.ops = (afterPhis (s.body b)).map s.rewrite := by
    rw [hafter]
    exact List.map_congr_left fun o ho =>
      s.edit_of_isPhi_eq_false (s.isPhi_of_mem_afterPhis_body hs hb ho)
  -- All phis are read before any is set, in one environment on each side.
  have hxs' := mapM_map_of_imp (φ := s.edit b.id) hphis hxs
  rw [← hleading] at hxs'
  refine ⟨_, Option.map_eq_some_iff.2 ⟨xs, hxs', rfl⟩, rfl, rfl, ?_, hs.callerPhis b hb, ?_, ?_⟩
  · rw [hid, hafter]
    exact s.image_body hs.callerFramed.ids_nodup hb
  · rw [← leading_append_afterPhis b.ops] at hwalk
    exact ⟨_, hwalk.passAll⟩
  · rw [← leading_append_afterPhis b.ops] at hwalk hagrees
    rw [hleading]
    exact hagrees.bindAll hs hwalk (fun o ho => s.mem_kept_of_mem_leading hb ho)
      (length_eq_of_mapM hxs)

theorem cont_not_mem_ids : s.cont ∉ caller.ids :=
  s.not_mem_ids_of_mem_cont_cons hs.calleeFramed.ids_nodup List.mem_cons_self

/-- A phi reads the same value, though control may come from the continuation in place of the split
block. -/
theorem phiValue_edit {id id' : BlockId} {o : Op} {rest rest' : List Op}
    (himage : s.Image id (o :: rest) id' rest') (ho : o ∈ s.kept) {past : List Op}
    (hwalk : Walk caller past id (o :: rest)) {env env' : Env V}
    (hagrees : s.Agrees I env env' id (o :: rest)) {b : Block} (hb : b ∈ caller.blocks)
    (hbranch : b.id ∈ o.successors) {p : Op} (hp : p ∈ leading b.ops) {x : V}
    (hx : phiValue I env (some id) p = some x) :
    phiValue I env' (some id') (s.edit b.id p) = some x := by
  obtain ⟨y, hincoming, hy⟩ := phiValue_eq_some_iff.1 hx
  obtain ⟨incoming, hk, hmem⟩ := OpKind.exists_of_incoming? hincoming
  have hpb : p ∈ b.ops := List.takeWhile_subset _ hp
  have hpops : p ∈ caller.ops := List.mem_flatMap.2 ⟨b, hb, hpb⟩
  have hid : id ∈ caller.ids := by
    obtain ⟨c, hc, rfl, -⟩ := hwalk.exists_block
    exact List.mem_map_of_mem hc
  have hcont : s.cont ∉ caller.ids := cont_not_mem_ids hs
  -- The continuation is no block of the caller, so in the phi only the split block has its name.
  have hnames : ∀ q ∈ p.kind.blocks,
      (if b.id ∈ s.last.flow.targets ∧ q = s.block.id then s.cont else q) = id' ↔ q = id := by
    intro q hq
    have hqids := hs.callerFramed.targets p hpops q hq
    rcases himage.source hs hbranch with ⟨rfl, hne⟩ | ⟨rfl, rfl, htarget⟩
    · split
      · next hsplit =>
        constructor
        · intro heq
          exact absurd (heq ▸ hid) hcont
        · intro heq
          exact absurd (heq.symm.trans hsplit.2) hne
      · exact Iff.rfl
    · split
      · next hsplit => exact ⟨fun _ => hsplit.2, fun _ => rfl⟩
      · next hsplit =>
        constructor
        · intro heq
          exact absurd (heq ▸ hqids) hcont
        · intro heq
          exact absurd ⟨htarget, heq⟩ hsplit
  have hedit : (s.edit b.id p).kind.incoming? id' = some (s.merged.operand y) := by
    rw [s.kind_edit_of_isPhi (isPhi_of_mem_leading hp), OpKind.incoming?_map hnames, hincoming]
    rfl
  refine phiValue_eq_some_iff.2 ⟨_, hedit, hagrees.eval ?_ ?_ hy⟩
  · rintro v rfl
    refine hs.reads p hpops v (p.mem_uses_iff.2 ?_)
    rw [Op.operands, hk]
    exact List.mem_map_of_mem (f := Prod.fst) hmem
  · rintro r rfl hr past hw
    have hset := hs.strict.phis past id o rest hw b hb hbranch p hpb incoming hk r hmem
    by_contra hnot
    exact not_sets_append hs ho hr hnot hset

theorem exists_block?_result {id : BlockId} {ops : List Op} (h : (id, ops) ∈ s.result.code) :
    ∃ b, s.result.block? id = some b ∧ b.id = id ∧ b.ops = ops :=
  Function.exists_block?_of_mem_code
    (s.ids_result_nodup hs.callerFramed.ids_nodup hs.calleeFramed.ids_nodup) h

theorem Outside.jump (h : s.Outside I fr fr') {o : Op} {rest : List Op}
    (hrest : fr.rest = o :: rest) {dest : BlockId} (hdest : dest ∈ o.successors) {fr₁ : Frame V}
    (hjump : fr.jump I dest = some fr₁) :
    ∃ fr₁', fr'.jump I dest = some fr₁' ∧ s.Outside I fr₁ fr₁' := by
  obtain ⟨hfn, hfn', himage, -, ⟨past, hwalk⟩, hagrees⟩ := h
  rw [hrest] at himage hwalk hagrees
  rw [Frame.jump, hfn] at hjump
  obtain ⟨b, hblock, harrive⟩ := Option.bind_eq_some_iff.1 hjump
  obtain ⟨hb, rfl⟩ := Function.mem_of_block? hblock
  -- It is not the call that jumps.
  have ho : o ∈ s.kept := by
    rcases himage.cons with ⟨ho, -⟩ | ⟨rfl, -⟩
    · exact ho
    · have := s.isTerminator_call
      rw [s.call.isTerminator_of_mem_successors hdest] at this
      cases this
  obtain ⟨b', hblock', hid, hops⟩ :=
    exists_block?_result hs (s.body_mem_code hs.callerFramed.ids_nodup hb)
  obtain ⟨fr₁', hfr₁', houtside⟩ := Outside.arrive hs hb hid hops (hwalk.branch hb hdest)
    (hagrees.branch hs ho hb hdest)
    (fun p hp x hx => phiValue_edit hs himage ho hwalk hagrees hb hdest hp hx) harrive
  refine ⟨fr₁', ?_, houtside⟩
  rw [Frame.jump, hfn', hblock']
  exact hfr₁'

theorem Outside.start {args : List V} (h : Dialect.start I caller args = some fr) :
    ∃ fr', Dialect.start I s.result args = some fr' ∧ s.Outside I fr fr' := by
  obtain ⟨b, hhead, harrive⟩ := Option.bind_eq_some_iff.1 h
  obtain ⟨b', hhead', hid, hops⟩ := s.head?_result hs.callerFramed.ids_nodup hhead
  have hagrees : s.Agrees I (.ofParams caller.params args) (.ofParams s.result.params args) b.id
      b.ops := by
    -- Nothing has been called yet.
    refine ⟨fun v _ _ => rfl, fun r x hm => .inr ⟨[], .entry hhead, ?_⟩⟩
    have hr := (s.of_merged_eq_replace hm).1
    rintro (hp | ⟨o, ho, -⟩)
    · exact Function.not_mem_params_of_result hs.callerFramed.definitions_nodup s.call_mem_ops hr hp
    · cases ho
  have hphis : ∀ p ∈ leading b.ops, ∀ x, phiValue I (.ofParams caller.params args) none p = some x →
      phiValue I (.ofParams s.result.params args) none (s.edit b.id p) = some x := by
    simp [phiValue]
  obtain ⟨fr', hfr', houtside⟩ := Outside.arrive hs (List.mem_of_head? hhead) hid hops
    (.entry hhead) hagrees hphis harrive
  exact ⟨fr', Option.bind_eq_some_iff.2 ⟨b', hhead', hfr'⟩, houtside⟩

end Outside

end Splicing

end PassEngine.Inline
