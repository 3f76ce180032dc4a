import PassEngine.Proofs.Inline.Recursion

namespace PassEngine

namespace Dialect

namespace OpKind

def mapLabels (g : BlockId → BlockId) : OpKind → OpKind
  | phi incoming => phi (incoming.map fun (x, b) => (x, g b))
  | kind => kind

variable (f : Operand → Operand) (g h : BlockId → BlockId) (k : OpKind)

theorem mapLabels_id : k.mapLabels id = k := by
  cases k <;> simp [mapLabels]

theorem mapLabels_mapLabels : (k.mapLabels g).mapLabels h = k.mapLabels (h ∘ g) := by
  cases k <;> simp [mapLabels]

theorem mapOperands_mapLabels : (k.mapLabels g).mapOperands f = (k.mapOperands f).mapLabels g := by
  cases k <;> simp [mapOperands, mapLabels]

theorem mapBlocks_of_isPhi (hk : k.isPhi = true) : k.mapBlocks g = k.mapLabels g := by
  cases k <;> simp_all [isPhi, mapBlocks, mapLabels]

end OpKind

namespace Op

/-- The operation is still there: it may read other things where it read values, and as a phi it may
name other blocks, but nothing else about it has changed. -/
structure Kept (o o' : Op) : Prop where
  result : o'.result = o.result
  ty : o'.ty = o.ty
  kind : ∃ (f : Operand → Operand) (g : BlockId → BlockId), (∀ x, x.value? = none → f x = x) ∧
    o'.kind = (o.kind.mapOperands f).mapLabels g

namespace Kept

variable {o o' o'' : Op}

theorem refl (o : Op) : o.Kept o :=
  ⟨rfl, rfl, id, id, fun _ _ => rfl, by rw [OpKind.mapOperands_id, OpKind.mapLabels_id]⟩

theorem trans (h : o.Kept o') (h' : o'.Kept o'') : o.Kept o'' := by
  obtain ⟨f, g, hf, hkind⟩ := h.kind
  obtain ⟨f', g', hf', hkind'⟩ := h'.kind
  refine ⟨h'.result.trans h.result, h'.ty.trans h.ty, f' ∘ f, g' ∘ g, fun x hx => ?_, ?_⟩
  · rw [Function.comp_apply, hf x hx, hf' x hx]
  · rw [hkind', hkind, OpKind.mapOperands_mapLabels, OpKind.mapOperands_mapOperands,
      OpKind.mapLabels_mapLabels]

/-- A call still calls the same function, with as many arguments. -/
theorem call (h : o.Kept o') {symbol : String} {args : List Operand} {known : Bool}
    (hk : o.kind = .call symbol args known) :
    ∃ args', o'.kind = .call symbol args' known ∧ args'.length = args.length := by
  obtain ⟨f, g, -, hkind⟩ := h.kind
  exact ⟨args.map f, by rw [hkind, hk]; rfl, List.length_map f⟩

end Kept

end Op

end Dialect

namespace Inline

open Dialect

theorem Merge.operand_of_value?_eq_none (m : Merge) {x : Operand} (hx : x.value? = none) :
    m.operand x = x := by
  cases m with
  | replace v y =>
    rw [operand, if_neg]
    rintro rfl
    cases hx
  | _ => rfl

theorem Splicing.kept_edit {caller callee : Function} (s : Splicing caller callee) (b : BlockId)
    (o : Op) : o.Kept (s.edit b o) := by
  have hfix : ∀ x : Operand, x.value? = none → s.merged.operand x = x :=
    fun x => s.merged.operand_of_value?_eq_none
  rw [edit, redirectOp]
  split
  · next hphi =>
    let redirect (p : BlockId) : BlockId := if p = s.block.id then s.cont else p
    refine ⟨rfl, rfl, s.merged.operand, redirect, hfix, ?_⟩
    rw [← OpKind.mapOperands_mapLabels, ← OpKind.mapBlocks_of_isPhi _ _ hphi.2]
    rfl
  · exact ⟨rfl, rfl, s.merged.operand, id, hfix, (OpKind.mapLabels_id _).symm⟩

variable {config : InlineConfig} {m m' : Module} {site : CallSite} {sites : List CallSite}

theorem kept_before_inlineSite {f : Function} (hf : m.functions[site.caller]? = some f)
    (h : inlineSite m site = .ok m') :
    ∃ f', m'.functions = m.functions.set site.caller f' ∧
      ∀ i j o, toLex (i, j) < site.position → f.op? i j = some o →
        ∃ o', f'.op? i j = some o' ∧ o.Kept o' := by
  obtain ⟨caller, callee, hcaller, -, s, hblock, hop, rfl⟩ := inlineSite_cases h
  rw [hf] at hcaller
  cases hcaller
  refine ⟨s.result, rfl, fun i j o hlt ho => ?_⟩
  rw [CallSite.position, ← hblock, ← hop] at hlt
  obtain ⟨id, hid⟩ := s.op?_result_of_lt hlt
  exact ⟨s.edit id o, by rw [hid, ho, Option.map_some], s.kept_edit id o⟩

theorem kept_before_foldlM {c : Nat} {f : Function} (hf : m.functions[c]? = some f)
    (hsites : ∀ t ∈ sites, t.caller = c) (h : sites.foldlM inlineSite m = .ok m') :
    ∃ f', m'.functions = m.functions.set c f' ∧
      ∀ i j o, (∀ t ∈ sites, toLex (i, j) < t.position) → f.op? i j = some o →
        ∃ o', f'.op? i j = some o' ∧ o.Kept o' := by
  induction sites generalizing m f with
  | nil =>
    cases h
    obtain ⟨hc, rfl⟩ := List.getElem?_eq_some_iff.1 hf
    exact ⟨m'.functions[c], by rw [List.set_getElem_self], fun i j o _ ho => ⟨o, ho, .refl o⟩⟩
  | cons t sites ih =>
    rw [List.foldlM_cons] at h
    obtain ⟨m₁, hm₁, h⟩ := bind_eq_ok_iff.1 h
    obtain ⟨rfl, hsites⟩ := List.forall_mem_cons.1 hsites
    obtain ⟨f₁, hset, hfirst⟩ := kept_before_inlineSite hf hm₁
    have hf₁ : m₁.functions[t.caller]? = some f₁ := by
      rw [hset, List.getElem?_set_self (List.getElem?_eq_some_iff.1 hf).1]
    obtain ⟨f', hset', hrest⟩ := ih hf₁ hsites h
    refine ⟨f', by rw [hset', hset, List.set_set], fun i j o hlt ho => ?_⟩
    obtain ⟨hlt, hlts⟩ := List.forall_mem_cons.1 hlt
    obtain ⟨o₁, ho₁, hkept⟩ := hfirst i j o hlt ho
    obtain ⟨o', ho', hkept'⟩ := hrest i j o₁ hlts ho₁
    exact ⟨o', ho', hkept.trans hkept'⟩

/-- A moment in a round on `m`, when a call is about to be inlined. The functions before `c` are
done, which has given `start`; there the calls of `c` are chosen, `site` among them; and those behind
`site` are inlined, which has given `now`. -/
structure Moment (config : InlineConfig) (m : Module) (c : Nat) (start now : Module)
    (site : CallSite) : Prop where
  lt : c < m.functions.length
  done : ∃ count, roundUpTo config m c = .ok (start, count)
  chosen : ∃ earlier later, select config start (.build m) c = earlier ++ site :: later ∧
    later.reverse.foldlM inlineSite start = .ok now

/-- When a function's turn comes it is as it was, so the graph is right about its calls. -/
theorem caller_of_roundUpTo {c count : Nat} {start : Module} (hc : c < m.functions.length)
    (h : roundUpTo config m c = .ok (start, count)) :
    ∃ f, m.functions[c]? = some f ∧ start.functions[c]? = some f ∧
      (CallGraph.build m).sitesIn c = CallGraph.functionSites start.symbolTable c f := by
  obtain ⟨hwithin, hahead⟩ := callsWithin_roundUpTo (Nat.le_of_lt hc) h
  have hf : m.functions[c]? = some m.functions[c] := List.getElem?_eq_getElem hc
  refine ⟨m.functions[c], hf, (hahead c (Nat.le_refl c)).trans hf, ?_⟩
  rw [CallGraph.sitesIn_build hf, Module.symbolTable_congr hwithin.symbols]

theorem Moment.exists_call {c : Nat} {start now : Module} (h : Moment config m c start now site) :
    site.caller = c ∧ ∃ f selected f' current callee,
      start.functions[c]? = some f ∧ f.op? site.block site.op = some selected ∧
      now.functions[c]? = some f' ∧ f'.op? site.block site.op = some current ∧
      start.functions[site.callee]? = some callee ∧ now.functions[site.callee]? = some callee ∧
      selected.Kept current ∧ ∃ args, selected.kind = .call callee.symbol args false ∧
        callee.hasBody = true ∧ args.length = callee.params.length := by
  obtain ⟨count, hdone⟩ := h.done
  obtain ⟨earlier, later, hselect, hlater⟩ := h.chosen
  obtain ⟨f, -, hf, hgraph⟩ := caller_of_roundUpTo h.lt hdone
  have hmem : site ∈ select config start (.build m) c := by simp [hselect]
  obtain ⟨hcaller, selected, callee, hselected, hcallee, hname, hcandidate⟩ :=
    exists_of_mem_select hf hgraph hmem
  have hsorted : (earlier ++ site :: later).Pairwise (·.position < ·.position) :=
    hselect ▸ pairwise_select hf hgraph
  have hbehind : ∀ t ∈ later, site.position < t.position :=
    (List.pairwise_cons.1 (List.pairwise_append.1 hsorted).2.1).1
  have hothers : ∀ t ∈ later.reverse, t.caller = c := by
    intro t ht
    have ht : t ∈ select config start (.build m) c := by
      rw [hselect]
      exact List.mem_append_right _ (List.mem_cons_of_mem _ (List.mem_reverse.1 ht))
    exact (exists_of_mem_select hf hgraph ht).1
  -- The sites behind this one are done, and none of them lies before it.
  obtain ⟨f', hset, hkept⟩ := kept_before_foldlM hf hothers hlater
  obtain ⟨current, hcurrent, hstill⟩ := hkept site.block site.op selected
    (fun t ht => hbehind t (List.mem_reverse.1 ht)) hselected
  have hne : c ≠ site.callee := (callee_ne_of_mem_select hf hgraph hmem).symm
  obtain ⟨symbol, args, hkind, -, hbody, -, -, hargs, -⟩ :=
    refusal?_eq_none_iff.1 (refusal?_of_isCandidate hcandidate)
  rw [Op.callee?, hkind, OpKind.callee?] at hname
  cases hname
  refine ⟨hcaller, f, selected, f', current, callee, hf, hselected, ?_, hcurrent, hcallee, ?_,
    hstill, args, hkind, hbody, hargs⟩
  · rw [hset, List.getElem?_set_self (List.getElem?_eq_some_iff.1 hf).1]
  · rw [hset, List.getElem?_set_ne hne, hcallee]

theorem Moment.error_cases {c : Nat} {start now : Module} {e : SpliceError}
    (h : Moment config m c start now site) (hfail : inlineSite now site = .error e) :
    e = .overflow ∨ ∃ callee, now.functions[site.callee]? = some callee ∧
      ∃ o ∈ callee.ops, ∃ v ∈ o.uses, v ∉ callee.definitions ∧
        e = .undefinedValue callee.symbol v := by
  obtain ⟨rfl, f, selected, f', current, callee, -, -, hf', hcurrent, -, hcallee, hkept, args, hkind,
    hbody, hargs⟩ := h.exists_call
  obtain ⟨args', hkind', hlength⟩ := hkept.call hkind
  obtain ⟨b, hb, hop⟩ := Function.op?_eq_some_iff.1 hcurrent
  have hblocks : callee.blocks ≠ [] := by
    intro hnil
    simp [Function.hasBody, hnil] at hbody
  simp only [inlineSite, hf', hcallee] at hfail
  rcases bind_eq_error_iff.1 hfail with hfail | ⟨_, -, hfail⟩
  · rcases splice_error_cases hb hop hkind' hblocks (hlength.trans hargs) hfail with
      ⟨he, -⟩ | ⟨o, ho, v, hv, hundefined, he⟩
    · exact .inl he
    · exact .inr ⟨callee, hcallee, o, ho, v, hv, hundefined, he⟩
  · cases hfail

/-- A round that fails does so at one of its moments. -/
theorem exists_moment_of_round_eq_error {e : SpliceError} (h : round config m = .error e) :
    ∃ c start now site, Moment config m c start now site ∧ inlineSite now site = .error e := by
  rw [round_eq_roundUpTo, roundUpTo] at h
  obtain ⟨before, c, after, ⟨start, count⟩, hrange, hdone, hfail⟩ := exists_of_foldlM_eq_error h
  obtain ⟨rfl, hc⟩ := eq_range_of_append_cons hrange
  rcases bind_eq_error_iff.1 hfail with hfail | ⟨_, -, hfail⟩
  · rcases bind_eq_error_iff.1 hfail with hfail | ⟨_, -, hfail⟩
    · obtain ⟨behind, site, rest, now, hsplit, hnow, hsite⟩ := exists_of_foldlM_eq_error hfail
      have hselect : select config start (.build m) c = rest.reverse ++ site :: behind.reverse := by
        rw [← List.reverse_reverse (select config start (.build m) c), hsplit]
        simp
      exact ⟨c, start, now, site, ⟨hc, ⟨count, hdone⟩, rest.reverse, behind.reverse, hselect,
        by rwa [List.reverse_reverse]⟩, hsite⟩
    · cases hfail
  · cases hfail

/-- At every moment of a round the call that was chosen is still where it was, calls the same
function with as many arguments, and the function has a body. Choosing looks only at what is there.
So a round fails only where ids run out or a callee reads a value that it does not define. -/
theorem round_finds_chosen_calls (config : InlineConfig) (m : Module) :
    (∀ c start now site, Moment config m c start now site →
      site.caller = c ∧ ∃ f selected args f' current args' callee,
        start.functions[c]? = some f ∧ f.op? site.block site.op = some selected ∧
        selected.kind = .call callee.symbol args false ∧
        now.functions[c]? = some f' ∧ f'.op? site.block site.op = some current ∧
        current.kind = .call callee.symbol args' false ∧
        current.result = selected.result ∧ args'.length = args.length ∧
        now.functions[site.callee]? = some callee ∧ callee.hasBody = true) ∧
    (∀ c start count, c < m.functions.length → roundUpTo config m c = .ok (start, count) →
      ∃ f, start.functions[c]? = some f ∧ ∀ site ∈ (CallGraph.build m).sitesIn c,
        (∃ callee, start.functions[site.callee]? = some callee) ∧
        ∃ call, f.op? site.block site.op = some call) ∧
    ∀ e, round config m = .error e →
      ∃ c start now site, Moment config m c start now site ∧ inlineSite now site = .error e ∧
        (e = .overflow ∨ ∃ callee, now.functions[site.callee]? = some callee ∧
          ∃ o ∈ callee.ops, ∃ v ∈ o.uses, v ∉ callee.definitions ∧
            e = .undefinedValue callee.symbol v) := by
  refine ⟨fun c start now site h => ?_, fun c start count hc h => ?_, fun e h => ?_⟩
  · obtain ⟨hcaller, f, selected, f', current, callee, hf, hselected, hf', hcurrent, -, hcallee,
      hkept, args, hkind, hbody, -⟩ := h.exists_call
    obtain ⟨args', hkind', hlength⟩ := hkept.call hkind
    exact ⟨hcaller, f, selected, args, f', current, args', callee, hf, hselected, hkind, hf',
      hcurrent, hkind', hkept.result, hlength, hcallee, hbody⟩
  · obtain ⟨f, -, hf, hgraph⟩ := caller_of_roundUpTo hc h
    refine ⟨f, hf, fun site hsite => ?_⟩
    rw [hgraph, CallGraph.mem_functionSites_iff] at hsite
    obtain ⟨-, call, name, hcall, -, hcallee⟩ := hsite
    obtain ⟨callee, hcallee, -⟩ := Module.exists_of_symbolTable_get? hcallee
    exact ⟨⟨callee, hcallee⟩, call, hcall⟩
  · obtain ⟨c, start, now, site, hmoment, hfail⟩ := exists_moment_of_round_eq_error h
    exact ⟨c, start, now, site, hmoment, hfail, hmoment.error_cases hfail⟩

/-- A call that reads its own value, in a function that is called in turn. -/
def stranding : Module where
  name := "stranding"
  functions := [identity,
    { symbol := "main", ret := .int 32
      blocks := [{ id := ⟨0⟩, ops := [
        ⟨some ⟨0⟩, .int 32, .call "identity" [.value ⟨0⟩] false⟩,
        .void (.ret (some (.value ⟨0⟩)))] }] },
    { symbol := "outer", ret := .int 32
      blocks := [{ id := ⟨0⟩, ops := [
        ⟨some ⟨0⟩, .int 32, .call "main" [] false⟩,
        .void (.ret (some (.value ⟨0⟩)))] }] }]

example : stranding.verify = .ok () ∧ (optimize {} stranding).1 =
    .failed (.failed "@main uses undefined value %0") := by
  decide +kernel

end Inline

end PassEngine
