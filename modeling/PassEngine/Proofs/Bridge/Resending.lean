import PassEngine.Proofs.Bridge.Raisable
import PassEngine.Proofs.Dialect.WellFormed

namespace PassEngine

section Inverse

variable {ε α β : Type} {f : β → Except ε α} {g : α → β} (h : ∀ a, f (g a) = .ok a)

include h

theorem mapM_map_eq_ok (xs : List α) : (xs.map g).mapM f = .ok xs := by
  rw [mapM_eq_ok_iff, List.forall₂_map_left_iff, List.forall₂_same]
  exact fun a _ => h a

theorem option_mapM_map_eq_ok (x : Option α) : (x.map g).mapM f = .ok x := by
  cases x with
  | none => rfl
  | some a => simp [h, Functor.map, Except.map]

end Inverse

namespace Dialect

namespace Ty

mutual

theorem lower_of_raise (t : Ty) {n : Native.Ty} (h : t.raise = .ok n) : n.lower = t := by
  cases t with
  | int bits =>
    rw [raise] at h
    split_ifs at h with h8 h16 h32 h64
    all_goals
      cases h
      simp [Native.Ty.lower, *]
  | ptr pointee =>
    obtain ⟨p, hp, h⟩ := bind_eq_ok_iff.1 h
    cases h
    rw [Native.Ty.lower, lower_of_raise pointee hp]
  | array len elem =>
    obtain ⟨e, he, h⟩ := bind_eq_ok_iff.1 h
    cases h
    rw [Native.Ty.lower, lower_of_raise elem he]
  | func ret params vararg =>
    obtain ⟨r, hr, h⟩ := bind_eq_ok_iff.1 h
    obtain ⟨ps, hps, h⟩ := bind_eq_ok_iff.1 h
    cases h
    rw [Native.Ty.lower, lower_of_raise ret hr, lowerList_of_raiseList params hps]
  | struct name fields packed =>
    obtain ⟨fs, hfs, h⟩ := bind_eq_ok_iff.1 h
    cases h
    rw [Native.Ty.lower, lowerList_of_raiseList fields hfs]
  | void | bool | label =>
    cases h
    rfl

theorem lowerList_of_raiseList (ts : List Ty) {ns : List Native.Ty} (h : raiseList ts = .ok ns) :
    Native.Ty.lowerList ns = ts := by
  cases ts with
  | nil =>
    cases h
    rfl
  | cons t ts =>
    obtain ⟨n, hn, h⟩ := bind_eq_ok_iff.1 h
    obtain ⟨ns, hns, h⟩ := bind_eq_ok_iff.1 h
    cases h
    rw [Native.Ty.lowerList, lower_of_raise t hn, lowerList_of_raiseList ts hns]

end

end Ty

@[simp]
theorem Operand.lower_raise (x : Operand) : x.raise.lower = .ok x := by
  cases x <;> rfl

theorem GlobalInit.lowerInit_raise (i : GlobalInit) : i.raise.lowerInit = .ok i := by
  cases i <;> rfl

namespace Op

/-- What is left of an operation once it has been an instruction. An instruction that defines
nothing has no place for a result or its type. -/
def carried (o : Op) : Op :=
  match o.kind with
  | .store .. | .ret .. | .br .. | .condBr .. | .debugLoc .. | .comment .. => .void o.kind
  | _ => o

@[simp]
theorem kind_carried (o : Op) : o.carried.kind = o.kind := by
  rw [carried]
  split <;> rfl

/-- An instruction tells its operation, but for what it had no place for. -/
theorem lower_of_raise {o : Op} {symbol : String} {i : Native.Instruction}
    (h : o.raise symbol = .ok i) : i.lower = .ok o.carried := by
  obtain ⟨result, ty, kind⟩ := o
  have hoperands := mapM_map_eq_ok Operand.lower_raise
  have hoption := option_mapM_map_eq_ok Operand.lower_raise
  have hedges : ∀ edges : List (Operand × BlockId), (edges.map fun e => (e.1.raise, e.2)).mapM
      (fun e => e.1.lower >>= fun x => .ok (x, e.2)) = .ok edges := mapM_map_eq_ok (by simp)
  cases kind with
  | binary | cmp | unary | convert | load | elementPtr | cast | select | phi =>
    simp only [raise, bind_eq_ok_iff, need_eq_ok_iff, pure_eq_ok, Except.ok.injEq] at h
    obtain ⟨v, rfl, t, ht, rfl⟩ := h
    simp [Native.Instruction.lower, Native.Instruction.lowerBinary, Native.Instruction.lowerUnary,
      carried, ty.lower_of_raise ht, hoperands, hedges]
  | alloca allocated count =>
    simp only [raise, bind_eq_ok_iff, need_eq_ok_iff, pure_eq_ok, Except.ok.injEq] at h
    obtain ⟨v, rfl, a, ha, t, ht, rfl⟩ := h
    simp [Native.Instruction.lower, carried, ty.lower_of_raise ht, allocated.lower_of_raise ha,
      hoption]
  | call | intrinsic =>
    simp only [raise, bind_eq_ok_iff, pure_eq_ok, Except.ok.injEq] at h
    obtain ⟨t, ht, rfl⟩ := h
    simp [Native.Instruction.lower, Native.Instruction.lowerCall, carried, ty.lower_of_raise ht,
      hoperands]
  | callIndirect target args =>
    cases target with
    | func name => cases h
    | _ =>
      simp only [raise, bind_eq_ok_iff, pure_eq_ok, Except.ok.injEq] at h
      obtain ⟨t, ht, rfl⟩ := h
      simp [Native.Instruction.lower, Native.Instruction.lowerCall, Operand.raise,
        Native.Value.lower, carried, ty.lower_of_raise ht, hoperands]
  | store | ret | br | condBr =>
    simp only [raise, bind_eq_ok_iff, needNone_eq_ok_iff, pure_eq_ok, Except.ok.injEq] at h
    obtain ⟨-, rfl, rfl⟩ := h
    simp [Native.Instruction.lower, carried, hoption]
  | debugLoc | comment =>
    cases h
    rfl

theorem result_carried {o : Op} (h : o.Shaped) :
    o.carried.result = if o.isAnnotation then none else o.result := by
  cases hk : o.kind <;> simp_all [carried, Shaped, isAnnotation, OpKind.isAnnotation, void]

theorem result_carried_cases (o : Op) : o.carried.result = none ∨ o.carried.result = o.result := by
  rw [carried]
  split <;> simp [void]

end Op

theorem Block.lower_of_raise {b : Block} {symbol : String} {n : Native.Block}
    (h : b.raise symbol = .ok n) : n.lower = .ok (b.mapOps Op.carried) := by
  obtain ⟨is, his, h⟩ := bind_eq_ok_iff.1 h
  cases h
  simp only [Native.Block.lower, mapM_map_of_mapM (fun _ _ _ => Op.lower_of_raise) his, ok_bind]
  rfl

theorem map_lower_of_mapM {κ : Type} {ts : List (κ × Ty)} {ns : List (κ × Native.Ty)}
    (h : ts.mapM (fun t => t.2.raise >>= fun n => .ok (t.1, n)) = .ok ns) :
    (ns.map fun n => (n.1, n.2.lower)) = ts := by
  apply map_of_mapM ?_ h
  rintro ⟨k, t⟩ ⟨k', n⟩ hn
  obtain ⟨n', hn', heq⟩ := bind_eq_ok_iff.1 hn
  cases heq
  simp only [t.lower_of_raise hn']

namespace Function

theorem lower_of_raise {f : Function} {n : Native.Function} (h : f.raise = .ok n)
    (hexternal : f.isExternal = true → f.blocks = []) : n.lower = .ok (f.mapOps Op.carried) := by
  obtain ⟨ret, hret, h⟩ := bind_eq_ok_iff.1 h
  obtain ⟨ps, hps, h⟩ := bind_eq_ok_iff.1 h
  obtain ⟨bs, hbs, h⟩ := bind_eq_ok_iff.1 h
  cases h
  have hblocks := mapM_map_of_mapM (fun _ _ _ => Block.lower_of_raise) hbs
  have hbody : ¬(f.isExternal = true ∧ bs ≠ []) := by
    rintro ⟨hext, hne⟩
    rw [hexternal hext] at hbs
    cases hbs
    exact hne rfl
  simp only [Native.Function.lower, Native.Function.lowerBlocks, if_neg hbody, hblocks,
    Except.mapError, ok_bind, f.ret.lower_of_raise hret, map_lower_of_mapM hps]
  rfl

@[simp]
theorem ids_mapOps (g : Op → Op) (f : Function) : (f.mapOps g).ids = f.ids := by
  simp [ids, mapOps, Block.mapOps]

@[simp]
theorem ops_mapOps (g : Op → Op) (f : Function) : (f.mapOps g).ops = f.ops.map g := by
  simp [ops, mapOps, Block.mapOps, List.flatMap_map, List.map_flatMap]

theorem definitions_mapOps_carried (f : Function) : (f.mapOps Op.carried).definitions =
    f.params.map (·.1) ++ f.ops.filterMap (Op.result ∘ Op.carried) := by
  rw [definitions, ops_mapOps, List.filterMap_map]
  rfl

theorem definitions_mapOps_carried_sublist (f : Function) :
    (f.mapOps Op.carried).definitions.Sublist f.definitions := by
  rw [definitions_mapOps_carried]
  exact (filterMap_sublist fun o _ => o.result_carried_cases).append_left _

theorem Framed.carried {symbols : List String} {f : Function} (h : f.Framed symbols) :
    (f.mapOps Op.carried).Framed symbols where
  nonempty := by simpa [mapOps] using h.nonempty
  ids_nodup := by simpa using h.ids_nodup
  definitions_nodup := h.definitions_nodup.sublist f.definitions_mapOps_carried_sublist
  closed := by
    intro _ hmem
    obtain ⟨b, hb, rfl⟩ := List.mem_map.1 hmem
    exact (h.closed b hb).map fun o => by rw [Op.isTerminator, Op.kind_carried, Op.isTerminator]
  targets := by simpa [Op.blocks] using h.targets
  edges := by
    intro _ hmem
    obtain ⟨b, hb, rfl⟩ := List.mem_map.1 hmem
    simpa [Block.mapOps] using h.edges b hb
  calls := by simpa [Op.callee?] using h.calls

/-- What is lost is what locations and comments define. -/
theorem mem_definitions_mapOps_carried_iff {f : Function} (h : f.definitions.Nodup)
    (hshaped : ∀ o ∈ f.ops, o.Shaped) {v : ValueId} :
    v ∈ (f.mapOps Op.carried).definitions ↔
      v ∈ f.definitions ∧ ∀ o ∈ f.ops, o.isAnnotation = true → o.result ≠ some v := by
  constructor
  · intro hv
    refine ⟨f.definitions_mapOps_carried_sublist.subset hv, fun a ha hannotation hav => ?_⟩
    rw [definitions_mapOps_carried] at hv
    rcases List.mem_append.1 hv with hv | hv
    · exact not_mem_params_of_result h ha hav hv
    · obtain ⟨o, ho, hov⟩ := List.mem_filterMap.1 hv
      rw [Function.comp_apply, Op.result_carried (hshaped o ho)] at hov
      split at hov
      · cases hov
      · next hnot => exact hnot (eq_of_result_eq h ho ha hov hav ▸ hannotation)
  · rintro ⟨hv, hnone⟩
    rw [definitions_mapOps_carried]
    refine List.mem_append.2 ((List.mem_append.1 hv).imp_right fun hv => ?_)
    obtain ⟨o, ho, hov⟩ := List.mem_filterMap.1 hv
    refine List.mem_filterMap.2 ⟨o, ho, ?_⟩
    rw [Function.comp_apply, Op.result_carried (hshaped o ho),
      if_neg fun hannotation => hnone o ho hannotation hov, hov]

/-- No operation reads what a location or a comment defines. -/
def ReadsNoAnnotation (f : Function) : Prop :=
  ∀ a ∈ f.ops, a.isAnnotation = true → ∀ v, a.result = some v → ∀ o ∈ f.ops, v ∉ o.uses

theorem scoped_carried_iff {f : Function} (h : f.definitions.Nodup) (hscoped : f.Scoped)
    (hshaped : ∀ o ∈ f.ops, o.Shaped) :
    (f.mapOps Op.carried).Scoped ↔ f.ReadsNoAnnotation := by
  have huses : ∀ o : Op, o.carried.uses = o.uses := fun o => by
    rw [Op.uses, Op.operands, Op.kind_carried, Op.uses, Op.operands]
  simp only [Scoped, ops_mapOps, List.forall_mem_map, huses,
    mem_definitions_mapOps_carried_iff h hshaped]
  constructor
  · intro hs a ha hannotation v hv o ho hread
    exact (hs o ho v hread).2 a ha hannotation hv
  · intro hs o ho v hread
    exact ⟨hscoped o ho v hread, fun a ha hannotation hv => hs a ha hannotation v hv o ho hread⟩

end Function

theorem Global.lower_of_raise {g : Global} {n : Native.Global} (h : g.raise = .ok n) :
    n.lower = .ok g := by
  obtain ⟨t, ht, h⟩ := bind_eq_ok_iff.1 h
  cases h
  simp only [Native.Global.lower, option_mapM_map_eq_ok GlobalInit.lowerInit_raise,
    Except.mapError, ok_bind, g.ty.lower_of_raise ht]
  rfl

namespace Module

def carried (m : Module) : Module :=
  { m with functions := m.functions.map (Function.mapOps Op.carried) }

theorem map_lower_of_traverse {t : NameTable Ty} {n : NameTable Native.Ty}
    (h : t.traverse Ty.raise = .ok n) : n.map Native.Ty.lower = t := by
  obtain ⟨es, hes, h⟩ := bind_eq_ok_iff.1 h
  cases h
  have hmap := map_lower_of_mapM hes
  have hsorted := t.sorted
  rw [← hmap, List.pairwise_map] at hsorted
  apply NameTable.ext_entries
  rw [NameTable.entries_map, NameTable.entries_ofList hsorted, hmap]

/-- What the host has taken over it can send again. -/
theorem lower_of_raise {m : Module} {n : Native.Module} (h : m.raise = .ok n) :
    n.lower = .ok m.carried := by
  obtain ⟨_, hverify, h⟩ := bind_eq_ok_iff.1 h
  obtain ⟨types, htypes, h⟩ := bind_eq_ok_iff.1 h
  obtain ⟨globals, hglobals, h⟩ := bind_eq_ok_iff.1 h
  obtain ⟨functions, hfunctions, h⟩ := bind_eq_ok_iff.1 h
  cases h
  have hframed := (m.verify_eq_ok_iff.1 (mapError_eq_ok_iff.1 hverify)).1
  have hglobals := mapM_of_mapM (fun _ _ => Global.lower_of_raise) hglobals
  have hfunctions : functions.mapM Native.Function.lower =
      .ok (m.functions.map (Function.mapOps Op.carried)) :=
    mapM_map_of_mapM (fun f hf _ hn => Function.lower_of_raise hn (hframed.bodiless f hf))
      hfunctions
  simp only [Native.Module.lower, hglobals, hfunctions, ok_bind, map_lower_of_traverse htypes]
  rfl

theorem Framed.carried {m : Module} (h : m.Framed) : m.carried.Framed := by
  have hsymbols : m.carried.symbols = m.symbols := by
    simp [symbols, Module.carried, Function.mapOps]
  refine ⟨by rw [hsymbols]; exact h.symbols_nodup, ?_, ?_⟩
  · intro _ hmem hext
    obtain ⟨f, hf, rfl⟩ := List.mem_map.1 hmem
    simp [Function.mapOps, h.bodiless f hf hext]
  · intro _ hmem hext
    obtain ⟨f, hf, rfl⟩ := List.mem_map.1 hmem
    rw [hsymbols]
    exact (h.bodies f hf hext).carried

theorem shaped_of_raise {m : Module} {n : Native.Module} (h : m.raise = .ok n) :
    ∀ f ∈ m.functions, f.Shaped := by
  obtain ⟨_, -, h⟩ := bind_eq_ok_iff.1 h
  obtain ⟨_, -, h⟩ := bind_eq_ok_iff.1 h
  obtain ⟨_, -, h⟩ := bind_eq_ok_iff.1 h
  obtain ⟨functions, hfunctions, -⟩ := bind_eq_ok_iff.1 h
  intro f hf
  exact (f.exists_raise_iff.1 (exists_mapM_eq_ok_iff.1 ⟨functions, hfunctions⟩ f hf)).1

/-- What the host has taken over it can send again, and then every operation is as it was but for
what locations and comments define. So the verifier has only one thing to find: a value that is read
and that no other operation defines. -/
theorem resend_of_raise {m : Module} {n : Native.Module} (h : m.raise = .ok n) :
    n.lower = .ok m.carried ∧
      (m.carried.verify = .ok () ↔ ∀ f ∈ m.functions, f.ReadsNoAnnotation) := by
  refine ⟨lower_of_raise h, ?_⟩
  have hshaped := shaped_of_raise h
  obtain ⟨_, hverify, -⟩ := bind_eq_ok_iff.1 h
  obtain ⟨hframed, hscoped⟩ := m.verify_eq_ok_iff.1 (mapError_eq_ok_iff.1 hverify)
  rw [verify_eq_ok_iff, and_iff_right hframed.carried, Scoped, Module.carried, List.forall_mem_map]
  refine forall₂_congr fun f hf => ?_
  cases hext : f.isExternal with
  | true =>
    have hnil : f.ops = [] := by rw [Function.ops, hframed.bodiless f hf hext, List.flatMap_nil]
    simp [Function.Scoped, Function.ReadsNoAnnotation, hnil]
  | false =>
    exact Function.scoped_carried_iff (hframed.bodies f hf hext).definitions_nodup (hscoped f hf)
      (hshaped f hf).ops

/-- A comment that defines a value, and a return that reads one. -/
def commented (read : ValueId) : Module where
  name := "commented"
  functions := [
    { symbol := "main", ret := .int 32, params := [(⟨0⟩, .int 32)]
      blocks := [{ id := ⟨0⟩, ops := [
        ⟨some ⟨1⟩, .int 32, .comment "note"⟩, .void (.ret (some (.value read)))] }] }]

theorem resend_commented : ∃ n, (commented ⟨0⟩).raise = .ok n ∧
    n.lower = .ok (commented ⟨0⟩).carried ∧ (commented ⟨0⟩).carried ≠ commented ⟨0⟩ ∧
    (commented ⟨0⟩).carried.verify = .ok () := by
  have h : ∃ n, (commented ⟨0⟩).raise = .ok n := ⟨_, rfl⟩
  have hunread : ∀ f ∈ (commented ⟨0⟩).functions, ∀ a ∈ f.ops, ∀ o ∈ f.ops, ∀ v ∈ o.uses,
      a.result ≠ some v := by decide
  obtain ⟨n, hn⟩ := h
  obtain ⟨hlower, hverify⟩ := resend_of_raise hn
  refine ⟨n, hn, hlower, by decide, hverify.2 fun f hf a ha _ v hv o ho hread => ?_⟩
  exact hunread f hf a ha o ho v hread hv

/-- A comment's value that is read is adopted all the same, and is not there when the module is sent
again. -/
theorem resend_commented_read : ∃ n d, (commented ⟨1⟩).raise = .ok n ∧ n.lower = .ok d ∧
    d.verify = .error (.undefinedValue "main" ⟨0⟩ ⟨1⟩) :=
  ⟨_, _, rfl, rfl, by decide +kernel⟩

end Module

end Dialect

end PassEngine
