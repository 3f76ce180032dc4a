import PassEngine.Proofs.Inline.Positions

namespace PassEngine

theorem forall₂_getElem? {α β : Type} {R : α → β → Prop} {l : List α} {l' : List β}
    (h : List.Forall₂ R l l') (i : Nat) :
    (l[i]? = none ∧ l'[i]? = none) ∨ ∃ a b, l[i]? = some a ∧ l'[i]? = some b ∧ R a b := by
  induction h generalizing i with
  | nil => exact .inl ⟨rfl, rfl⟩
  | @cons a b _ _ hab _ ih =>
    cases i with
    | zero => exact .inr ⟨a, b, rfl, rfl, hab⟩
    | succ i => exact ih i

namespace Dialect

namespace Function

def declaration (f : Function) : Function := { f with blocks := [] }

/-- Whether a function is declared so that its calls are never inlined: its body is elsewhere, or it
asks not to be inlined, or it takes any number of arguments. -/
def isShielded (f : Function) : Bool := f.isExternal || f.hint = .never || f.isVararg

theorem isShielded_congr {f f' : Function} (h : f'.declaration = f.declaration) :
    f'.isShielded = f.isShielded := by
  have hdeclaration : f'.declaration.isShielded = f.declaration.isShielded := by rw [h]
  exact hdeclaration

end Function

namespace Module

/-- Whether calls of the function at a position are never inlined: because of its declaration, or
because it is recursive. -/
def shields (m : Module) (i : Nat) : Bool :=
  m.functions[i]?.any Function.isShielded || (CallGraph.build m).isRecursive i

/-- Whether an operation is never inlined: it is no direct call, or one that the host has dealt with,
or one of such a function. -/
def retains (m : Module) (o : Op) : Bool :=
  match o.kind with
  | .call symbol _ known => known || (m.symbolTable.get? symbol).any m.shields
  | _ => true

end Module

instance : Std.Refl Op.Kept := ⟨.refl⟩

instance : IsTrans Op Op.Kept := ⟨fun _ _ _ => .trans⟩

theorem Op.Kept.retains_eq {o o' : Op} (h : o.Kept o') (m : Module) :
    m.retains o' = m.retains o := by
  obtain ⟨f, g, -, hkind⟩ := h.kind
  rw [Module.retains, Module.retains, hkind]
  cases o.kind <;> rfl

end Dialect

namespace Inline

open Dialect

namespace Splicing

variable {caller callee : Function} (s : Splicing caller callee)

theorem kept_sublist : s.kept.Sublist (s.blocks.flatMap Block.ops) := by
  have hblocks : s.blocks.flatMap Block.ops = s.before.flatMap Block.ops ++ s.head ++
      (.void (.br (s.names.block s.entry.id)) :: s.copied ++ s.mergeOps) ++ s.tail ++
        s.after.flatMap Block.ops := by
    simp [blocks, first, flatMap_ops_copies, ops_last]
  rw [hblocks, kept]
  refine List.Sublist.append_right (List.Sublist.append_right ?_ _) _
  exact List.sublist_append_left _ _

theorem forall₂_ops_result : List.Forall₂ Op.Kept (s.blocks.flatMap Block.ops) s.result.ops := by
  rw [Function.ops_eq_flatMap_code, code_result, List.flatMap_map]
  induction s.blocks with
  | nil => exact .nil
  | cons b bs ih =>
    rw [List.flatMap_cons, List.flatMap_cons]
    refine List.rel_append ?_ ih
    rw [List.forall₂_map_right_iff, List.forall₂_same]
    exact fun o _ => s.kept_edit b.id o

theorem filter_ops_caller {P : Op → Bool} (hcall : P s.call = false) :
    caller.ops.filter P = s.kept.filter P := by
  have hops : caller.ops = s.before.flatMap Block.ops ++ s.head ++
      s.call :: (s.tail ++ s.after.flatMap Block.ops) := by
    simp [Function.ops, s.blocks_eq, s.ops_eq]
  rw [hops, kept, List.append_assoc _ s.tail, List.filter_append,
    List.filter_cons_of_neg (by simp [hcall]), ← List.filter_append]

end Splicing

section Widening

variable {P : Op → Bool}

/-- A function has the same declaration and, around the operations that `P` picks, at most more
code. -/
structure Widened (P : Op → Bool) (f f' : Function) : Prop where
  declaration : f'.declaration = f.declaration
  ops : List.SublistForall₂ Op.Kept (f.ops.filter P) (f'.ops.filter P)

namespace Widened

theorem refl (f : Function) : Widened P f f :=
  ⟨rfl, Std.Refl.refl _⟩

theorem trans {f f' f'' : Function} (h : Widened P f f') (h' : Widened P f' f'') :
    Widened P f f'' :=
  ⟨h'.declaration.trans h.declaration, IsTrans.trans _ _ _ h.ops h'.ops⟩

end Widened

variable (hP : ∀ o o' : Op, o.Kept o' → P o' = P o)

include hP

theorem Splicing.widened {caller callee : Function} (s : Splicing caller callee)
    (hcall : P s.call = false) : Widened P caller s.result := by
  refine ⟨rfl, ?_⟩
  have hsublist : (caller.ops.filter P).Sublist ((s.blocks.flatMap Block.ops).filter P) := by
    rw [s.filter_ops_caller hcall]
    exact s.kept_sublist.filter P
  have hkept : List.Forall₂ Op.Kept ((s.blocks.flatMap Block.ops).filter P)
      (s.result.ops.filter P) := by
    refine List.rel_filter (fun o o' h => ?_) s.forall₂_ops_result
    change P o = true ↔ P o' = true
    rw [hP o o' h]
  exact IsTrans.trans _ _ _ hsublist.sublistForall₂
    (List.sublistForall₂_iff.2 ⟨_, hkept, List.Sublist.refl _⟩)

end Widening

/-- What a module has around the operations that `P` picks may be more than another one has. All else
is the same. -/
structure Widens (P : Op → Bool) (m m' : Module) : Prop where
  name : m'.name = m.name
  globals : m'.globals = m.globals
  typeDefs : m'.typeDefs = m.typeDefs
  functions : List.Forall₂ (Widened P) m.functions m'.functions

variable {config : InlineConfig} {m m' m'' : Module} {site : CallSite} {P : Op → Bool}

namespace Widens

theorem refl (m : Module) : Widens P m m :=
  ⟨rfl, rfl, rfl, List.forall₂_same.2 fun f _ => .refl f⟩

theorem trans (h : Widens P m m') (h' : Widens P m' m'') : Widens P m m'' :=
  ⟨h'.name.trans h.name, h'.globals.trans h.globals, h'.typeDefs.trans h.typeDefs,
    forall₂_trans .trans h.functions h'.functions⟩

theorem declaration (h : Widens P m m') {i : Nat} {f' : Function}
    (hf' : m'.functions[i]? = some f') :
    ∃ f, m.functions[i]? = some f ∧ f'.declaration = f.declaration := by
  rcases forall₂_getElem? h.functions i with ⟨-, hnone⟩ | ⟨f, f'', hf, hf'', hwidened⟩
  · rw [hnone] at hf'
    cases hf'
  · rw [hf''] at hf'
    cases hf'
    exact ⟨f, hf, hwidened.declaration⟩

end Widens

theorem widens_inlineSite (hP : ∀ o o' : Op, o.Kept o' → P o' = P o) {f : Function} {call : Op}
    (hf : m.functions[site.caller]? = some f) (hcall : f.op? site.block site.op = some call)
    (hopen : P call = false) (h : inlineSite m site = .ok m') : Widens P m m' := by
  obtain ⟨caller, callee, hcaller, -, s, hblock, hop, rfl⟩ := inlineSite_cases h
  rw [hf] at hcaller
  cases hcaller
  have hsame : s.call = call := by
    rw [← hblock, ← hop, s.op?_caller] at hcall
    exact Option.some.inj hcall
  refine ⟨rfl, rfl, rfl, forall₂_set_right (List.forall₂_same.2 fun f _ => .refl f) hf ?_⟩
  exact s.widened hP (hsame ▸ hopen)

theorem widens_foldlM (hP : ∀ o o' : Op, o.Kept o' → P o' = P o) {c : Nat} {f : Function}
    {sites : List CallSite} (hf : m.functions[c]? = some f)
    (hsites : ∀ t ∈ sites, t.caller = c ∧ ∃ call, f.op? t.block t.op = some call ∧ P call = false)
    (hsorted : sites.Pairwise (·.position < ·.position))
    (h : sites.reverse.foldlM inlineSite m = .ok m') : Widens P m m' := by
  induction sites generalizing m' with
  | nil =>
    cases h
    exact .refl m
  | cons t sites ih =>
    rw [List.reverse_cons, List.foldlM_append] at h
    obtain ⟨m₁, hm₁, h⟩ := bind_eq_ok_iff.1 h
    rw [List.foldlM_cons] at h
    obtain ⟨m₂, hm₂, h⟩ := bind_eq_ok_iff.1 h
    cases h
    obtain ⟨hfirst, hsorted⟩ := List.pairwise_cons.1 hsorted
    obtain ⟨⟨rfl, call, hcall, hopen⟩, hsites⟩ := List.forall_mem_cons.1 hsites
    -- The call is still where it was, and no more to be kept than it was.
    obtain ⟨f₁, hset, hkept⟩ := kept_before_foldlM hf
      (fun u hu => (hsites u (List.mem_reverse.1 hu)).1) hm₁
    obtain ⟨call₁, hcall₁, hstill⟩ := hkept t.block t.op call
      (fun u hu => hfirst u (List.mem_reverse.1 hu)) hcall
    have hf₁ : m₁.functions[t.caller]? = some f₁ := by
      rw [hset, List.getElem?_set_self (List.getElem?_eq_some_iff.1 hf).1]
    have hopen₁ : P call₁ = false := (hP call call₁ hstill).trans hopen
    exact (ih hsites hsorted hm₁).trans (widens_inlineSite hP hf₁ hcall₁ hopen₁ hm₂)

/-- A call that may be inlined is not among those to be kept. -/
theorem retains_eq_false {start : Module} {call : Op} {callee : Function} {symbol : String}
    (hwidens : Widens P m start) (hcallee : start.functions[site.callee]? = some callee)
    (hsymbol : call.callee? = some symbol) (htable : m.symbolTable.get? symbol = some site.callee)
    (hlegal : refusal? (.build m) site call callee = none) : m.retains call = false := by
  obtain ⟨name, args, hkind, -, hbody, hhint, hvararg, -, -, -, hrecursive⟩ :=
    refusal?_eq_none_iff.1 hlegal
  rw [Op.callee?, hkind, OpKind.callee?] at hsymbol
  cases hsymbol
  obtain ⟨f, hf, hdeclaration⟩ := hwidens.declaration hcallee
  have hshielded : f.isShielded = false := by
    rw [← Function.isShielded_congr hdeclaration]
    simp [Function.isShielded, Function.isExternal_of_hasBody hbody, hhint, hvararg]
  simp [Module.retains, hkind, htable, Module.shields, hf, hshielded, hrecursive]

theorem widens_roundUpTo {c count : Nat} (hc : c ≤ m.functions.length)
    (h : roundUpTo config m c = .ok (m', count)) : Widens m.retains m m' := by
  refine roundUpTo_induction (P := fun _ m' _ => Widens m.retains m m') ?_ h (.refl m)
  intro i start _ m₂ more hi hdone hcaller hwidens
  obtain ⟨f, -, hf, hgraph⟩ := caller_of_roundUpTo (hi.trans_le hc) hdone
  have htable := Module.symbolTable_congr
    (callsWithin_roundUpTo (Nat.le_of_lt (hi.trans_le hc)) hdone).1.symbols
  obtain ⟨m₁, hm₁, hpair⟩ := bind_eq_ok_iff.1 hcaller
  cases hpair
  refine hwidens.trans (widens_foldlM (fun _ _ h => h.retains_eq m) hf (fun t ht => ?_)
    (pairwise_select hf hgraph) hm₁)
  obtain ⟨htc, call, callee, hcall, hcallee, hname, hcandidate⟩ := exists_of_mem_select hf hgraph ht
  have hsymbol := symbolTable_of_mem_select hf hgraph ht hcall hname
  rw [htable] at hsymbol
  exact ⟨htc, call, hcall, retains_eq_false hwidens hcallee hname hsymbol
    (refusal?_of_isCandidate hcandidate)⟩

theorem widens_round {count : Nat} (h : round config m = .ok (m', count)) :
    Widens m.retains m m' := by
  rw [round_eq_roundUpTo] at h
  exact widens_roundUpTo (Nat.le_refl _) h

/-- What is to be kept is the same after as before. -/
theorem retains_congr (hwidens : Widens P m m') (hwithin : CallsWithin m m') :
    m'.retains = m.retains := by
  have hshields : m'.shields = m.shields := by
    funext i
    rw [Module.shields, Module.shields, hwithin.isRecursive_eq]
    rcases forall₂_getElem? hwidens.functions i with ⟨hf, hf'⟩ | ⟨f, f', hf, hf', hwidened⟩
    · rw [hf, hf']
    · rw [hf, hf', Option.any_some, Option.any_some, Function.isShielded_congr hwidened.declaration]
  funext o
  rw [Module.retains, Module.retains, Module.symbolTable_congr hwithin.symbols, hshields]

theorem widens_rounds {n count : Nat} (h : rounds config n m = .ok (m', count)) :
    Widens m.retains m m' := by
  induction n generalizing m count with
  | zero =>
    cases h
    exact .refl m'
  | succ n ih =>
    rcases rounds_succ_cases h with ⟨hround, -⟩ | ⟨m₁, first, more, hround, -, hrounds, -⟩
    · exact widens_round hround
    · have hfirst := widens_round hround
      have hrest := ih hrounds
      rw [retains_congr hfirst (callsWithin_round hround)] at hrest
      exact hfirst.trans hrest

/-- The inliner changes nothing of a module but the bodies of its functions. There everything that is
no direct call, and every direct call that must not be inlined, is kept in its order. -/
theorem optimize_keeps_surroundings (config : InlineConfig) (m : Module) :
    (optimize config m).2.name = m.name ∧ (optimize config m).2.globals = m.globals ∧
    (optimize config m).2.typeDefs = m.typeDefs ∧
    List.Forall₂ (fun f f' => f'.declaration = f.declaration ∧
        List.SublistForall₂ Op.Kept (f.ops.filter m.retains) f'.ops)
      m.functions (optimize config m).2.functions := by
  have hwidens : Widens m.retains m (optimize config m).2 := by
    rw [optimize]
    split
    · next after count hrounds => exact widens_rounds hrounds
    · exact .refl m
  refine ⟨hwidens.name, hwidens.globals, hwidens.typeDefs, hwidens.functions.imp fun f f' h => ?_⟩
  have hall : List.SublistForall₂ Op.Kept (f'.ops.filter m.retains) f'.ops :=
    List.filter_sublist.sublistForall₂
  exact ⟨h.declaration, IsTrans.trans _ _ _ h.ops hall⟩

end Inline

end PassEngine
