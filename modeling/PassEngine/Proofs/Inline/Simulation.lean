import PassEngine.Proofs.Inline.Inside
import PassEngine.Proofs.Inline.Run

namespace PassEngine.Inline

open Dialect

variable {V W : Type}

theorem fn_of_arrive {I : Interpretation V W} {f : Function} {source : Option BlockId} {env : Env V}
    {b : Block} {fr : Frame V} (h : arrive I f source env b = some fr) : fr.fn = f := by
  obtain ⟨xs, -, rfl⟩ := Option.map_eq_some_iff.1 h
  rfl

theorem fn_of_start {I : Interpretation V W} {f : Function} {args : List V} {fr : Frame V}
    (h : start I f args = some fr) : fr.fn = f := by
  obtain ⟨b, -, harrive⟩ := Option.bind_eq_some_iff.1 h
  exact fn_of_arrive harrive

theorem fn_of_jump {I : Interpretation V W} {fr fr₁ : Frame V} {dest : BlockId}
    (h : fr.jump I dest = some fr₁) : fr₁.fn = fr.fn := by
  obtain ⟨b, -, harrive⟩ := Option.bind_eq_some_iff.1 h
  exact fn_of_arrive harrive

theorem fn_pass (fr : Frame V) (x : Option V) : (fr.pass x).fn = fr.fn := by
  rw [Frame.pass]
  split <;> rfl

namespace Splicing

variable {caller callee : Function} (s : Splicing caller callee)

def image (f : Function) : Function := if f = caller then s.result else f

/-- The functions that wait, on both sides. The called body and the caller that waits for it are one
function on the other side. -/
inductive Waiting (I : Interpretation V W) : List (Frame V) → List (Frame V) → Prop where
  | nil : Waiting I [] []
  | plain {fr : Frame V} {below below' : List (Frame V)} (hfn : fr.fn ≠ caller)
      (h : Waiting I below below') : Waiting I (fr :: below) (fr :: below')
  | outside {fr fr' : Frame V} {below below' : List (Frame V)} (hfr : s.Outside I fr fr')
      (hrest : fr.rest ≠ []) (hrest' : fr'.rest ≠ [s.jumpIn]) (h : Waiting I below below') :
      Waiting I (fr :: below) (fr' :: below')
  | inside {inner outer fr' : Frame V} {below below' : List (Frame V)}
      (hfr : s.Inside I inner outer fr') {o : Op} {rest : List Op} (hrest : inner.rest = o :: rest)
      (hret : ∀ value, o.kind ≠ .ret value) (h : Waiting I below below') :
      Waiting I (inner :: outer :: below) (fr' :: below')

/-- What a run before inlining and one after it have in common. -/
inductive Simulates (I : Interpretation V W) : Status V W → Status V W → Prop where
  | plain {fr : Frame V} {below below' : List (Frame V)} {world : W} (hfn : fr.fn ≠ caller)
      (h : s.Waiting I below below') :
      Simulates I (.running fr below world) (.running fr below' world)
  | outside {fr fr' : Frame V} {below below' : List (Frame V)} {world : W}
      (hfr : s.Outside I fr fr') (h : s.Waiting I below below') :
      Simulates I (.running fr below world) (.running fr' below' world)
  | inside {inner outer fr' : Frame V} {below below' : List (Frame V)} {world : W}
      (hfr : s.Inside I inner outer fr') (h : s.Waiting I below below') :
      Simulates I (.running inner (outer :: below) world) (.running fr' below' world)
  | returned {x : V} {world : W} : Simulates I (.returned x world) (.returned x world)

section Step

variable {s} {symbols : List String} {I : Interpretation V W} {m m' : Module}
  {below below' : List (Frame V)} {world : W}

theorem Simulates.outcome_eq {st st' : Status V W} (h : s.Simulates I st st') :
    st'.outcome = st.outcome := by
  cases h <;> rfl

/-- A function returns to one that waits. -/
theorem Waiting.pop (hs : Inlinable symbols caller callee) (h : s.Waiting I below below')
    {fr fr' : Frame V} (x : V) (world : W) :
    s.Simulates I (.apply I fr below world (.pop x)) (.apply I fr' below' world (.pop x)) := by
  cases h with
  | nil => exact .returned
  | plain hfn h => exact .plain (by rwa [fn_pass]) h
  | outside hfr hrest hrest' h =>
    obtain ⟨o, rest, hrest⟩ := List.exists_cons_of_ne_nil hrest
    exact .outside (hfr.pass hs hrest hrest' _) h
  | inside hfr hrest hret h => exact .inside (hfr.pass hs hrest hret _) h

theorem Waiting.push (hs : Inlinable symbols caller callee) (h : s.Waiting I below below')
    {f : Function} {args : List V} (hne : Status.resume below world (start I f args) ≠ .stuck) :
    s.Simulates I (.resume below world (start I f args))
      (.resume below' world (start I (s.image f) args)) := by
  cases hstart : start I f args with
  | none => simp [hstart, Status.resume] at hne
  | some fr =>
    by_cases hf : f = caller
    · subst hf
      obtain ⟨fr', hstart', houtside⟩ := Outside.start (s := s) hs hstart
      rw [image, if_pos rfl, hstart']
      exact .outside houtside h
    · rw [image, if_neg hf, hstart]
      exact .plain (by rwa [fn_of_start hstart]) h

/-- The module after the call is inlined: the spliced function in the place of the caller. -/
structure Links (s : Splicing caller callee) (m m' : Module) : Prop where
  functions : ∀ c f, m.function? c = some f →
    m'.function? c = some (s.image f) ∧ (s.image f).hasBody = f.hasBody
  target : m.function? s.symbol = some callee
  body : callee.hasBody = true

theorem step_running {fr : Frame V} {o : Op} {rest : List Op} (h : fr.rest = o :: rest) :
    step m I (.running fr below world) = .apply I fr below world (effect m I fr.env o world) := by
  rw [step, h]

theorem exists_cons_of_step_ne {fr : Frame V}
    (h : step m I (.running fr below world) ≠ .stuck) : ∃ o rest, fr.rest = o :: rest := by
  cases hrest : fr.rest with
  | nil => simp [step, hrest] at h
  | cons o rest => exact ⟨o, rest, rfl⟩

theorem resume_ne_stuck {fr : Option (Frame V)} (h : Status.resume below world fr ≠ .stuck) :
    ∃ fr₁, fr = some fr₁ := by
  cases fr with
  | none => simp [Status.resume] at h
  | some fr₁ => exact ⟨fr₁, rfl⟩

theorem step_plain (hs : Inlinable symbols caller callee) (hl : Links s m m') {fr : Frame V}
    (hfn : fr.fn ≠ caller) (h : s.Waiting I below below')
    (hne : step m I (.running fr below world) ≠ .stuck) :
    s.Simulates I (step m I (.running fr below world)) (step m' I (.running fr below' world)) := by
  obtain ⟨o, rest, hrest⟩ := exists_cons_of_step_ne hne
  rw [step_running hrest] at hne ⊢
  rw [step_running hrest]
  have hmap : effect m I fr.env o world ≠ .stuck →
      effect m' I fr.env o world = (effect m I fr.env o world).map id s.image :=
    effect_map (f := id) (by rw [OpKind.mapOperands_id, OpKind.mapBlocks_id]) rfl
      (fun _ _ _ hx => hx) hl.functions
  rcases effect_cases m I fr.env o world with he | ⟨x, world', he, -⟩ | ⟨dest, he, -⟩ |
    ⟨f, xs, callee', args, known, he, -⟩ | ⟨x, value, he, -⟩
  · rw [he] at hne
    exact absurd rfl hne
  · rw [hmap (by simp [he]), he]
    exact .plain (by rwa [fn_pass]) h
  · rw [hmap (by simp [he]), he]
    rw [he] at hne
    obtain ⟨fr₁, hfr₁⟩ := resume_ne_stuck hne
    simp only [Status.apply, Effect.map, id_eq, hfr₁, Status.resume]
    exact .plain (by rwa [fn_of_jump hfr₁]) h
  · rw [hmap (by simp [he]), he]
    rw [he] at hne
    exact (Waiting.plain hfn h).push hs hne
  · rw [hmap (by simp [he]), he]
    exact h.pop hs x world

theorem rewrite_ne_jumpIn (hs : Inlinable symbols caller callee) {o : Op} (ho : o ∈ s.kept)
    (rest : List Op) : s.rewrite o :: rest ≠ [s.jumpIn] := by
  intro heq
  have hentry : s.entry ∈ callee.blocks := by simp [s.callee_eq]
  apply block_names_not_mem_ids (s := s) hs hentry
  have hblocks : (s.rewrite o).blocks = o.blocks := Op.blocks_mapOperands _ _
  rw [(List.cons.inj heq).1] at hblocks
  refine hs.callerFramed.targets o (s.mem_ops_caller_of_mem_kept ho) _ ?_
  rw [← hblocks]
  exact List.mem_singleton_self _

theorem effect_call (hl : Links s m m') (env : Env V) (world : W) :
    effect m I env s.call world = match s.args.mapM (Operand.eval I env) with
      | none => .stuck
      | some xs => .push callee xs := by
  unfold effect
  rw [s.kind_eq]
  simp only [OpKind.action, hl.target]
  exact if_pos hl.body

/-- The call itself: the body is put on top, or the copy is entered. -/
theorem step_call (hs : Inlinable symbols caller callee) (hl : Links s m m') {fr fr' : Frame V}
    (hfr : s.Outside I fr fr') (hrest : fr.rest = s.call :: s.tail)
    (hblock : fr.block = s.block.id) (hrest' : fr'.rest = [s.jumpIn])
    (h : s.Waiting I below below') (hne : step m I (.running fr below world) ≠ .stuck) :
    s.Simulates I (step m I (.running fr below world)) (step m' I (.running fr' below' world)) := by
  rw [step_running hrest, effect_call hl] at hne ⊢
  rw [step_running hrest']
  cases hargs : s.args.mapM (Operand.eval I fr.env) with
  | none => simp [hargs, Status.apply] at hne
  | some xs =>
    simp only [hargs] at hne ⊢
    obtain ⟨inner, hinner⟩ := resume_ne_stuck hne
    obtain ⟨fr₁', hfr₁', hinside⟩ := Inside.start hs hfr hrest hblock hargs hinner
    have hjump : effect m' I fr'.env s.jumpIn world = .jump (s.names.block s.entry.id) := rfl
    simp only [hjump, Status.apply, hinner, hfr₁', Status.resume]
    exact .inside hinside h

theorem step_outside (hs : Inlinable symbols caller callee) (hl : Links s m m') {fr fr' : Frame V}
    (hfr : s.Outside I fr fr') (h : s.Waiting I below below')
    (hne : step m I (.running fr below world) ≠ .stuck) :
    s.Simulates I (step m I (.running fr below world)) (step m' I (.running fr' below' world)) := by
  obtain ⟨o, rest, hrest⟩ := exists_cons_of_step_ne hne
  have himage := hfr.image
  have hagrees := hfr.agrees
  rw [hrest] at himage hagrees
  rcases himage.cons with ⟨ho, rest₁, hrest', -⟩ | ⟨rfl, rfl, hblock, -, hrest'⟩
  · -- An operation of the caller with other operands of the same values.
    have hphi := hfr.plain o (by simp [hrest])
    have heval := hagrees.eval_of_mem_operands hs (s.mem_ops_caller_of_mem_kept ho) hphi
    have hnot : fr'.rest ≠ [s.jumpIn] := hrest' ▸ rewrite_ne_jumpIn hs ho rest₁
    rw [step_running hrest] at hne ⊢
    rw [step_running hrest']
    have hmap : effect m I fr.env o world ≠ .stuck → effect m' I fr'.env (s.rewrite o) world =
        (effect m I fr.env o world).map id s.image :=
      effect_map (OpKind.mapBlocks_id _).symm rfl heval hl.functions
    rcases effect_cases m I fr.env o world with he | ⟨x, world', he, -⟩ | ⟨dest, he, hdest⟩ |
      ⟨f, xs, callee', args, known, he, -⟩ | ⟨x, value, he, -⟩
    · rw [he] at hne
      exact absurd rfl hne
    · rw [hmap (by simp [he]), he]
      exact .outside (hfr.pass hs hrest hnot x) h
    · rw [hmap (by simp [he]), he]
      rw [he] at hne
      obtain ⟨fr₁, hfr₁⟩ := resume_ne_stuck hne
      obtain ⟨fr₁', hfr₁', houtside⟩ := hfr.jump hs hrest hdest hfr₁
      simp only [Status.apply, Effect.map, id_eq, hfr₁, hfr₁', Status.resume]
      exact .outside houtside h
    · rw [hmap (by simp [he]), he]
      rw [he] at hne
      exact (Waiting.outside hfr (by simp [hrest]) hnot h).push hs hne
    · rw [hmap (by simp [he]), he]
      exact h.pop hs x world
  · exact step_call hs hl hfr hrest hblock hrest' h hne

theorem step_inside (hs : Inlinable symbols caller callee) (hl : Links s m m')
    {inner outer fr' : Frame V} (hfr : s.Inside I inner outer fr') (h : s.Waiting I below below')
    (hne : step m I (.running inner (outer :: below) world) ≠ .stuck) :
    s.Simulates I (step m I (.running inner (outer :: below) world))
      (step m' I (.running fr' below' world)) := by
  obtain ⟨o, rest, hrest⟩ := exists_cons_of_step_ne hne
  have hrest' : fr'.rest = copyOp s.names s.cont o :: rest.map (copyOp s.names s.cont) := by
    rw [hfr.rest', hrest, List.map_cons]
  rw [step_running hrest] at hne ⊢
  rw [step_running hrest']
  rcases eq_ret_or_ne_ret o with ⟨value, hk⟩ | hret
  · -- The body returns to the caller, and its copy goes on there.
    have hjump : effect m' I fr'.env (copyOp s.names s.cont o) world = .jump s.cont := by
      rw [copyOp_of_ret hk]
      rfl
    rcases effect_cases m I inner.env o world with he | ⟨x, world', he, hret⟩ | ⟨dest, he, hdest⟩ |
      ⟨f, xs, callee', args, known, he, hcall, -⟩ | ⟨x, value', he, hk', hx⟩
    · rw [he] at hne
      exact absurd rfl hne
    · exact absurd hk (hret value)
    · simp [Op.successors, hk, OpKind.successors] at hdest
    · rw [hk] at hcall
      cases hcall
    · obtain ⟨fr₁', hfr₁', houtside⟩ := hfr.leave hs (by simp [hrest]) hk' hx
      simp only [he, hjump, Status.apply, hfr₁', Status.resume]
      exact .outside houtside h
  · have hmap : effect m I inner.env o world ≠ .stuck →
        effect m' I fr'.env (copyOp s.names s.cont o) world =
          (effect m I inner.env o world).map s.names.block s.image := by
      rw [copyOp_of_ne_ret hret]
      exact effect_map rfl rfl (fun _ _ _ hx => hfr.carries.eval hx) hl.functions
    rcases effect_cases m I inner.env o world with he | ⟨x, world', he, -⟩ | ⟨dest, he, -⟩ |
      ⟨f, xs, callee', args, known, he, -⟩ | ⟨x, value, he, hk, -⟩
    · rw [he] at hne
      exact absurd rfl hne
    · rw [hmap (by simp [he]), he]
      exact .inside (hfr.pass hs hrest hret x) h
    · rw [hmap (by simp [he]), he]
      rw [he] at hne
      obtain ⟨inner₁, hinner₁⟩ := resume_ne_stuck hne
      obtain ⟨fr₁', hfr₁', hinside⟩ := hfr.jump hs hinner₁
      simp only [Status.apply, Effect.map, hinner₁, hfr₁', Status.resume]
      exact .inside hinside h
    · rw [hmap (by simp [he]), he]
      rw [he] at hne
      exact (Waiting.inside hfr hrest hret h).push hs hne
    · exact absurd hk (hret value)

theorem Simulates.step (hs : Inlinable symbols caller callee) (hl : Links s m m')
    {st st' : Status V W} (h : s.Simulates I st st') (hne : Dialect.step m I st ≠ .stuck) :
    s.Simulates I (Dialect.step m I st) (Dialect.step m' I st') := by
  cases h with
  | plain hfn h => exact step_plain hs hl hfn h hne
  | outside hfr h => exact step_outside hs hl hfr h hne
  | inside hfr h => exact step_inside hs hl hfr h hne
  | returned => exact .returned

/-- A call from outside, step by step. -/
theorem simulates_run (hs : Inlinable symbols caller callee) (hl : Links s m m') (symbol : String)
    (args : List V) (world : W) (n : Nat) (hne : m.run I symbol args world n ≠ .stuck) :
    s.Simulates I (m.run I symbol args world n) (m'.run I symbol args world n) := by
  induction n with
  | zero =>
    change m.begin I symbol args world ≠ .stuck at hne
    change s.Simulates I (m.begin I symbol args world) (m'.begin I symbol args world)
    rw [Module.begin] at hne ⊢
    rw [Module.begin]
    cases hf : m.function? symbol with
    | none => simp [hf] at hne
    | some f =>
      obtain ⟨hf', hbody⟩ := hl.functions symbol f hf
      simp only [hf, hf', hbody] at hne ⊢
      split
      · next hb =>
        rw [if_pos hb] at hne
        exact Waiting.nil.push hs hne
      · next hb => simp [hb] at hne
  | succ n ih =>
    rw [Module.run, Function.iterate_succ_apply'] at hne ⊢
    rw [Module.run, Function.iterate_succ_apply']
    -- A machine that is stuck stays so, so it was not stuck before.
    have hprev : m.run I symbol args world n ≠ .stuck := by
      intro hstuck
      rw [Module.run] at hstuck
      rw [hstuck] at hne
      exact hne rfl
    exact (ih hprev).step hs hl hne

end Step

end Splicing

end PassEngine.Inline
