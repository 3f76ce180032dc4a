import PassEngine.Proofs.Inline.Positions

namespace PassEngine

namespace Dialect.Function

def unannotated (f : Function) : Function :=
  { f with blocks := f.blocks.map fun b => { b with ops := b.ops.filter fun o => !o.isAnnotation } }

theorem size_eq_length_unannotated (f : Function) : f.size = f.unannotated.ops.length := by
  unfold size ops unannotated
  rw [List.countP_eq_length_filter, List.filter_flatMap, List.flatMap_map]

end Dialect.Function

namespace Inline

open Dialect

variable {config : InlineConfig} {m m' : Module} {site : CallSite} {sites : List CallSite}

/-- What a call adds to its caller when it is inlined: the body of the callee, and a phi if the call
has a value and there are several returns that may give it. -/
def added (callee : Function) (call : Op) : Nat :=
  callee.size + if call.result.isSome = true ∧ 2 ≤ callee.returnCount then 1 else 0

/-- Calls inlined one after the other, each with the function that it calls and the operation that it
is when its turn comes. -/
inductive Inlines : Module → List CallSite → List (Function × Op) → Module → Prop
  | nil (m : Module) : Inlines m [] [] m
  | cons {m m₁ m₂ : Module} {site : CallSite} {sites : List CallSite} {caller callee : Function}
    {call : Op} {rest : List (Function × Op)} (hcaller : m.functions[site.caller]? = some caller)
    (hcall : caller.op? site.block site.op = some call)
    (hcallee : m.functions[site.callee]? = some callee) (hsite : inlineSite m site = .ok m₁)
    (hrest : Inlines m₁ sites rest m₂) : Inlines m (site :: sites) ((callee, call) :: rest) m₂

theorem exists_inlines (h : sites.foldlM inlineSite m = .ok m') :
    ∃ calls, Inlines m sites calls m' := by
  induction sites generalizing m with
  | nil =>
    cases h
    exact ⟨[], .nil _⟩
  | cons site sites ih =>
    rw [List.foldlM_cons] at h
    obtain ⟨m₁, hsite, h⟩ := bind_eq_ok_iff.1 h
    obtain ⟨rest, hrest⟩ := ih h
    obtain ⟨caller, callee, hcaller, hcallee, s, hblock, hop, -⟩ := inlineSite_cases hsite
    have hcall : caller.op? site.block site.op = some s.call := by
      rw [← hblock, ← hop, s.op?_caller]
    exact ⟨_, .cons hcaller hcall hcallee hsite hrest⟩

/-- The calls of one function grow it by the sum of what each one adds, and change no other
function. -/
theorem Inlines.size {calls : List (Function × Op)} {c : Nat} {f : Function}
    (h : Inlines m sites calls m') (hsites : ∀ t ∈ sites, t.caller = c)
    (hf : m.functions[c]? = some f) :
    ∃ f', m'.functions = m.functions.set c f' ∧
      f'.size = f.size + (calls.map fun x => added x.1 x.2).sum := by
  induction h generalizing f with
  | nil m =>
    obtain ⟨hc, rfl⟩ := List.getElem?_eq_some_iff.1 hf
    exact ⟨m.functions[c], by rw [List.set_getElem_self], rfl⟩
  | @cons m m₁ m₂ site sites caller callee call rest hcaller hcall hcallee hsite _ ih =>
    obtain ⟨rfl, hsites⟩ := List.forall_mem_cons.1 hsites
    obtain rfl : f = caller := Option.some.inj (hf.symm.trans hcaller)
    obtain ⟨f₁, hset, hsize, -⟩ := caller_inlineSite hsite hf
    have hf₁ : m₁.functions[site.caller]? = some f₁ := by
      rw [hset, List.getElem?_set_self (List.getElem?_eq_some_iff.1 hf).1]
    obtain ⟨f', hset', hsize'⟩ := ih hsites hf₁
    -- What the growth lemma counts by the site is what `added` counts by callee and call.
    have hbody : calleeSize m site = callee.size := by simp [calleeSize, hcallee]
    have hphi : needsPhi m site =
        decide (call.result.isSome = true ∧ 2 ≤ callee.returnCount) := by
      simp [needsPhi, valueAt, hf, hcall, hcallee]
    have hadded : calleeSize m site + (needsPhi m site).toNat = added callee call := by
      rw [hbody, hphi, added]
      split_ifs with hneeds <;> simp [hneeds]
    refine ⟨f', by rw [hset', hset, List.set_set], ?_⟩
    rw [hsize', hsize, List.map_cons, List.sum_cons, ← hadded]
    omega

/-- The share of one function in a round on `m` that has come to `m'`: where the round stands when
the function's turn comes, the calls that are chosen there, which are inlined from the last to the
first, and what they add. -/
def Accounted (config : InlineConfig) (m : Module) (c : Nat) (f : Function) (m' : Module) : Prop :=
  ∃ start done calls after f', roundUpTo config m c = .ok (start, done) ∧
    start.functions[c]? = some f ∧
    Inlines start (select config start (.build m) c).reverse calls after ∧
    after.functions[c]? = some f' ∧ m'.functions[c]? = some f' ∧
    f'.size = f.size + (calls.map fun x => added x.1 x.2).sum

theorem accounted_inlineCaller {c done more : Nat} {f : Function} {start : Module}
    (hf : m.functions[c]? = some f) (hdone : roundUpTo config m c = .ok (start, done))
    (h : inlineCaller config (.build m) start c = .ok (m', more)) :
    Accounted config m c f m' ∧ ∃ f', m'.functions = start.functions.set c f' := by
  obtain ⟨f₀, hf₀, hstart, hgraph⟩ :=
    caller_of_roundUpTo (List.getElem?_eq_some_iff.1 hf).1 hdone
  obtain rfl : f = f₀ := Option.some.inj (hf.symm.trans hf₀)
  obtain ⟨m₁, hfold, hpair⟩ := bind_eq_ok_iff.1 h
  cases hpair
  obtain ⟨calls, hcalls⟩ := exists_inlines hfold
  have hsites : ∀ t ∈ (select config start (.build m) c).reverse, t.caller = c := by
    intro t ht
    exact (exists_of_mem_select hstart hgraph (List.mem_reverse.1 ht)).1
  obtain ⟨f', hset, hsize⟩ := hcalls.size hsites hstart
  have hf' : m'.functions[c]? = some f' := by
    rw [hset, List.getElem?_set_self (List.getElem?_eq_some_iff.1 hstart).1]
  exact ⟨⟨start, done, calls, m', f', hdone, hstart, hcalls, hf', hf', hsize⟩, f', hset⟩

theorem Accounted.congr {c : Nat} {f : Function} {m₁ m₂ : Module} (h : Accounted config m c f m₁)
    (heq : m₂.functions[c]? = m₁.functions[c]?) : Accounted config m c f m₂ := by
  obtain ⟨start, done, calls, after, f', hdone, hstart, hcalls, hafter, hf', hsize⟩ := h
  exact ⟨start, done, calls, after, f', hdone, hstart, hcalls, hafter, heq.trans hf', hsize⟩

/-- After a round every function has the size that it had before, and for each of its chosen calls
the size that the callee had when the call was inlined, with one more where the value of the call
comes from several returns. Annotations have no size. -/
theorem size_round {count : Nat} (h : round config m = .ok (m', count)) :
    (∀ c f, m.functions[c]? = some f → Accounted config m c f m') ∧
    ∀ f : Function, f.size = f.unannotated.ops.length := by
  refine ⟨fun c f hf => ?_, Function.size_eq_length_unannotated⟩
  have hc := (List.getElem?_eq_some_iff.1 hf).1
  rw [round_eq_roundUpTo] at h
  -- What is accounted for stays so, for a later turn is that of another function.
  refine roundUpTo_induction (P := fun i m' _ => c < i → Accounted config m c f m') ?_ h
    (fun hlt => absurd hlt (Nat.not_lt_zero c)) hc
  intro i m₁ done m₂ more hi hdone hcaller ih hlt
  obtain ⟨haccounted, g, hset⟩ :=
    accounted_inlineCaller (List.getElem?_eq_getElem hi) hdone hcaller
  by_cases hci : c = i
  · subst hci
    obtain ⟨-, rfl⟩ := List.getElem?_eq_some_iff.1 hf
    exact haccounted
  · refine (ih (by omega)).congr ?_
    rw [hset, List.getElem?_set_ne (Ne.symm hci)]

/-- A function with a comment that calls one with two returns, and is called in turn. -/
def relaying : Module where
  name := "relaying"
  functions := [
    { symbol := "pick", params := [(⟨0⟩, .bool)], ret := .int 32
      blocks := [
        { id := ⟨0⟩, ops := [.void (.condBr (.value ⟨0⟩) ⟨1⟩ ⟨2⟩)], succs := [⟨1⟩, ⟨2⟩] },
        { id := ⟨1⟩, ops := [.void (.ret (some (.const 1)))], preds := [⟨0⟩] },
        { id := ⟨2⟩, ops := [.void (.ret (some (.const 2)))], preds := [⟨0⟩] }] },
    { symbol := "relay", params := [(⟨0⟩, .bool)], ret := .int 32
      blocks := [{ id := ⟨0⟩, ops := [
        .void (.comment "one of two"),
        ⟨some ⟨1⟩, .int 32, .call "pick" [.value ⟨0⟩] false⟩,
        .void (.ret (some (.value ⟨1⟩)))] }] },
    { symbol := "main", params := [(⟨0⟩, .bool)], ret := .int 32
      blocks := [{ id := ⟨0⟩, ops := [
        ⟨some ⟨1⟩, .int 32, .call "relay" [.value ⟨0⟩] false⟩,
        .void (.ret (some (.value ⟨1⟩)))] }] }]

/-- When the last function's turn comes, the one that it calls has grown from two to six, a phi
included. -/
theorem size_round_relaying : relaying.verify = .ok () ∧
    relaying.functions.map Function.size = [3, 2, 2] ∧ ∃ m', round {} relaying = .ok (m', 2) ∧
      m'.functions.map Function.size = [3, 6, 8] ∧
      ∀ c f, relaying.functions[c]? = some f → Accounted {} relaying c f m' := by
  have hsizes : (round {} relaying).toOption.map
      (fun r => (r.2, r.1.functions.map Function.size)) = some (2, [3, 6, 8]) := by
    decide +kernel
  refine ⟨by decide, by decide, ?_⟩
  cases hround : round {} relaying with
  | error e =>
    rw [hround] at hsizes
    cases hsizes
  | ok r =>
    obtain ⟨m', count⟩ := r
    rw [hround] at hsizes
    obtain ⟨rfl, hsizes⟩ := Prod.mk.inj (Option.some.inj hsizes)
    exact ⟨m', rfl, hsizes, (size_round hround).1⟩

end Inline

end PassEngine
