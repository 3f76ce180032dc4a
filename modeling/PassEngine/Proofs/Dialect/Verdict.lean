import PassEngine.Proofs.Dialect.Operands
import PassEngine.Proofs.Dialect.WellFormed

namespace PassEngine.Dialect

namespace OpKind

inductive Reads : OpKind → Operand → Prop
  | binaryLeft {op lhs rhs} : Reads (.binary op lhs rhs) lhs
  | binaryRight {op lhs rhs} : Reads (.binary op lhs rhs) rhs
  | cmpLeft {op lhs rhs} : Reads (.cmp op lhs rhs) lhs
  | cmpRight {op lhs rhs} : Reads (.cmp op lhs rhs) rhs
  | unary {op x} : Reads (.unary op x) x
  | convert {op x} : Reads (.convert op x) x
  | load {ptr} : Reads (.load ptr) ptr
  | storeValue {value ptr} : Reads (.store value ptr) value
  | storePtr {value ptr} : Reads (.store value ptr) ptr
  | base {base indices} : Reads (.elementPtr base indices) base
  | index {base indices x} : x ∈ indices → Reads (.elementPtr base indices) x
  | count {ty x} : Reads (.alloca ty (some x)) x
  | argument {callee args known x} : x ∈ args → Reads (.call callee args known) x
  | target {target args} : Reads (.callIndirect target args) target
  | indirectArgument {target args x} : x ∈ args → Reads (.callIndirect target args) x
  | intrinsicArgument {name args x} : x ∈ args → Reads (.intrinsic name args) x
  | cast {x} : Reads (.cast x) x
  | choice {cond onTrue onFalse} : Reads (.select cond onTrue onFalse) cond
  | onTrue {cond onTrue onFalse} : Reads (.select cond onTrue onFalse) onTrue
  | onFalse {cond onTrue onFalse} : Reads (.select cond onTrue onFalse) onFalse
  | incoming {incoming x b} : (x, b) ∈ incoming → Reads (.phi incoming) x
  | returned {x} : Reads (.ret (some x)) x
  | branchCond {cond onTrue onFalse} : Reads (.condBr cond onTrue onFalse) cond

/-- The blocks that an operation names: where a branch goes, and where the values of a phi come
from. -/
inductive Names : OpKind → BlockId → Prop
  | dest {dest} : Names (.br dest) dest
  | onTrue {cond onTrue onFalse} : Names (.condBr cond onTrue onFalse) onTrue
  | onFalse {cond onTrue onFalse} : Names (.condBr cond onTrue onFalse) onFalse
  | incoming {incoming x b} : (x, b) ∈ incoming → Names (.phi incoming) b

inductive Leaves : OpKind → Prop
  | ret {value} : Leaves (.ret value)
  | br {dest} : Leaves (.br dest)
  | condBr {cond onTrue onFalse} : Leaves (.condBr cond onTrue onFalse)

theorem mem_operands_iff {k : OpKind} {x : Operand} : x ∈ k.operands ↔ k.Reads x := by
  constructor
  · intro h
    cases k <;> simp only [operands, List.mem_cons, List.not_mem_nil, or_false, Option.mem_toList,
      List.mem_map, Prod.exists, exists_and_right, exists_eq_right] at h
    case binary | cmp => rcases h with rfl | rfl <;> constructor
    case unary | convert | load | cast | condBr => subst h; constructor
    case store => rcases h with rfl | rfl <;> constructor
    case elementPtr => rcases h with rfl | h; exacts [.base, .index h]
    case alloca => cases h; exact .count
    case call => exact .argument h
    case callIndirect => rcases h with rfl | h; exacts [.target, .indirectArgument h]
    case intrinsic => exact .intrinsicArgument h
    case select => rcases h with rfl | rfl | rfl <;> constructor
    case phi => obtain ⟨b, h⟩ := h; exact .incoming h
    case ret => cases h; exact .returned
  · intro h
    cases h with
    | incoming h => exact List.mem_map.2 ⟨_, h, rfl⟩
    | _ => simp_all [operands]

theorem mem_blocks_iff {k : OpKind} {t : BlockId} : t ∈ k.blocks ↔ k.Names t := by
  constructor
  · intro h
    cases k <;> simp only [blocks, successors, List.mem_cons, List.not_mem_nil, or_false,
      List.mem_map, Prod.exists, exists_eq_right] at h
    case phi => obtain ⟨x, h⟩ := h; exact .incoming h
    case br => subst h; exact .dest
    case condBr => rcases h with rfl | rfl; exacts [.onTrue, .onFalse]
  · intro h
    cases h with
    | incoming h => exact List.mem_map.2 ⟨_, h, rfl⟩
    | _ => simp [blocks, successors]

theorem isTerminator_iff {k : OpKind} : k.isTerminator = true ↔ k.Leaves := by
  constructor
  · intro h
    cases k with
    | ret => exact .ret
    | br => exact .br
    | condBr => exact .condBr
    | _ => cases h
  · rintro ⟨⟩ <;> rfl

theorem isTerminator_eq_false_iff {k : OpKind} : k.isTerminator = false ↔ ¬k.Leaves := by
  rw [← isTerminator_iff, Bool.not_eq_true]

end OpKind

namespace Function

def HasBlock (f : Function) (t : BlockId) : Prop :=
  ∃ b ∈ f.blocks, b.id = t

def Defines (f : Function) (v : ValueId) : Prop :=
  (∃ ty, (v, ty) ∈ f.params) ∨ ∃ b ∈ f.blocks, ∃ o ∈ b.ops, o.result = some v

theorem mem_ids_iff {f : Function} {t : BlockId} : t ∈ f.ids ↔ f.HasBlock t :=
  List.mem_map

theorem mem_ops_iff {f : Function} {o : Op} : o ∈ f.ops ↔ ∃ b ∈ f.blocks, o ∈ b.ops :=
  List.mem_flatMap

theorem mem_definitions_iff {f : Function} {v : ValueId} : v ∈ f.definitions ↔ f.Defines v := by
  simp only [definitions, List.mem_append, List.mem_map, Prod.exists, exists_and_right,
    exists_eq_right, List.mem_filterMap, mem_ops_iff, Defines]
  refine or_congr_right ⟨?_, ?_⟩
  · rintro ⟨o, ⟨b, hb, ho⟩, hv⟩
    exact ⟨b, hb, o, ho, hv⟩
  · rintro ⟨b, hb, o, ho, hv⟩
    exact ⟨o, ⟨b, hb, ho⟩, hv⟩

/-- The rules for a function with a body, in a module that has functions of the given names. -/
structure Sound (symbols : List String) (f : Function) : Prop where
  nonempty : f.blocks ≠ []
  blocks_distinct : (f.blocks.map Block.id).Nodup
  definitions_distinct : (f.params.map (·.1) ++ f.ops.filterMap Op.result).Nodup
  ends : ∀ b ∈ f.blocks, ∃ body last, b.ops = body ++ [last] ∧ last.kind.Leaves ∧
    ∀ o ∈ body, ¬o.kind.Leaves
  names : ∀ b ∈ f.blocks, ∀ o ∈ b.ops, ∀ t, o.kind.Names t → f.HasBlock t
  preds : ∀ b ∈ f.blocks, ∀ t ∈ b.preds, f.HasBlock t
  succs : ∀ b ∈ f.blocks, ∀ t ∈ b.succs, f.HasBlock t
  reads : ∀ b ∈ f.blocks, ∀ o ∈ b.ops, ∀ v, o.kind.Reads (.value v) → f.Defines v
  calls : ∀ b ∈ f.blocks, ∀ o ∈ b.ops, ∀ callee args known,
    o.kind = .call callee args known → callee ∈ symbols

theorem sound_iff {f : Function} {symbols : List String} :
    f.Sound symbols ↔ f.Framed symbols ∧ f.Scoped := by
  have hops {p : Op → Prop} : (∀ o ∈ f.ops, p o) ↔ ∀ b ∈ f.blocks, ∀ o ∈ b.ops, p o := by
    simp only [mem_ops_iff]
    exact ⟨fun h b hb o ho => h o ⟨b, hb, ho⟩, fun h o ⟨b, hb, ho⟩ => h b hb o ho⟩
  have hclosed (b : Block) : IsClosed b.ops ↔ ∃ body last, b.ops = body ++ [last] ∧
      last.kind.Leaves ∧ ∀ o ∈ body, ¬o.kind.Leaves := by
    simp only [IsClosed, Op.isTerminator, OpKind.isTerminator_iff,
      OpKind.isTerminator_eq_false_iff]
  constructor
  · intro h
    refine ⟨⟨h.nonempty, h.blocks_distinct, h.definitions_distinct,
      fun b hb => (hclosed b).2 (h.ends b hb), ?_, fun b hb t ht => ?_, ?_⟩, ?_⟩
    · refine hops.2 fun b hb o ho t ht => ?_
      exact mem_ids_iff.2 (h.names b hb o ho t (OpKind.mem_blocks_iff.1 ht))
    · rcases List.mem_append.1 ht with ht | ht
      · exact mem_ids_iff.2 (h.preds b hb t ht)
      · exact mem_ids_iff.2 (h.succs b hb t ht)
    · refine hops.2 fun b hb o ho callee hc => ?_
      obtain ⟨args, known, hk⟩ := OpKind.callee?_eq_some_iff.1 hc
      exact h.calls b hb o ho callee args known hk
    · refine hops.2 fun b hb o ho v hv => ?_
      have hv := OpKind.mem_operands_iff.1 ((o.mem_uses_iff).1 hv)
      exact mem_definitions_iff.2 (h.reads b hb o ho v hv)
  · rintro ⟨hf, hs⟩
    have hedges {b : Block} (hb : b ∈ f.blocks) {t : BlockId} (ht : t ∈ b.preds ∨ t ∈ b.succs) :
        f.HasBlock t := mem_ids_iff.1 (hf.edges b hb t (List.mem_append.2 ht))
    refine ⟨hf.nonempty, hf.ids_nodup, hf.definitions_nodup,
      fun b hb => (hclosed b).1 (hf.closed b hb), fun b hb o ho t ht => ?_,
      fun b hb t ht => hedges hb (.inl ht), fun b hb t ht => hedges hb (.inr ht),
      fun b hb o ho v hv => ?_, fun b hb o ho callee args known hk => ?_⟩
    · exact mem_ids_iff.1 (hops.1 hf.targets b hb o ho t (OpKind.mem_blocks_iff.2 ht))
    · have hv := (o.mem_uses_iff).2 (OpKind.mem_operands_iff.2 hv)
      exact mem_definitions_iff.1 (hops.1 hs b hb o ho v hv)
    · exact hops.1 hf.calls b hb o ho callee (OpKind.callee?_eq_some_iff.2 ⟨args, known, hk⟩)

end Function

namespace Module

structure WellFormed (m : Module) : Prop where
  symbols_distinct : m.symbols.Nodup
  declarations : ∀ f ∈ m.functions, f.isExternal = true → f.blocks = []
  bodies : ∀ f ∈ m.functions, f.isExternal = false → f.Sound m.symbols

theorem wellFormed_iff {m : Module} : m.WellFormed ↔ m.Framed ∧ m.Scoped := by
  constructor
  · rintro ⟨hsymbols, hext, hbodies⟩
    refine ⟨⟨hsymbols, hext, fun f hf h => (Function.sound_iff.1 (hbodies f hf h)).1⟩, ?_⟩
    intro f hf
    cases h : f.isExternal with
    | true => exact scoped_of_blocks_eq_nil (hext f hf h)
    | false => exact (Function.sound_iff.1 (hbodies f hf h)).2
  · rintro ⟨hm, hs⟩
    exact ⟨hm.symbols_nodup, hm.bodiless, fun f hf h =>
      Function.sound_iff.2 ⟨hm.bodies f hf h, hs f hf⟩⟩

/-- What each error says of a module: that the function it names, and the block, value, callee or
position in it, break a rule. -/
inductive Exhibits (m : Module) : VerifyError → Prop
  | duplicateFunction {symbol : String} (h : 2 ≤ m.symbols.count symbol) :
    Exhibits m (.duplicateFunction symbol)
  | declarationWithBody {f : Function} (hf : f ∈ m.functions) (hext : f.isExternal = true)
    (h : f.blocks ≠ []) : Exhibits m (.declarationWithBody f.symbol)
  | missingBody {f : Function} (hf : f ∈ m.functions) (hext : f.isExternal = false)
    (h : f.blocks = []) : Exhibits m (.missingBody f.symbol)
  | duplicateBlock {f : Function} (hf : f ∈ m.functions) (hext : f.isExternal = false)
    {id : BlockId} (h : 2 ≤ (f.blocks.map Block.id).count id) :
    Exhibits m (.duplicateBlock f.symbol id)
  | missingTerminator {f : Function} (hf : f ∈ m.functions) (hext : f.isExternal = false)
    {b : Block} (hb : b ∈ f.blocks) (h : ∀ last, b.ops.getLast? = some last → ¬last.kind.Leaves) :
    Exhibits m (.missingTerminator f.symbol b.id)
  | misplacedTerminator {f : Function} (hf : f ∈ m.functions) (hext : f.isExternal = false)
    {b : Block} (hb : b ∈ f.blocks) {i : Nat} {o : Op} (ho : b.ops[i]? = some o)
    (hleaves : o.kind.Leaves) (h : i + 1 < b.ops.length) :
    Exhibits m (.misplacedTerminator f.symbol b.id i)
  | unknownBlock {f : Function} (hf : f ∈ m.functions) (hext : f.isExternal = false)
    {b : Block} (hb : b ∈ f.blocks) {t : BlockId}
    (ht : (∃ o ∈ b.ops, o.kind.Names t) ∨ t ∈ b.preds ∨ t ∈ b.succs) (h : ¬f.HasBlock t) :
    Exhibits m (.unknownBlock f.symbol b.id t)
  | duplicateDefinition {f : Function} (hf : f ∈ m.functions) (hext : f.isExternal = false)
    {v : ValueId} (h : 2 ≤ (f.params.map (·.1) ++ f.ops.filterMap Op.result).count v) :
    Exhibits m (.duplicateDefinition f.symbol v)
  | undefinedValue {f : Function} (hf : f ∈ m.functions) (hext : f.isExternal = false)
    {b : Block} (hb : b ∈ f.blocks) {o : Op} (ho : o ∈ b.ops) {v : ValueId}
    (hv : o.kind.Reads (.value v)) (h : ¬f.Defines v) :
    Exhibits m (.undefinedValue f.symbol b.id v)
  | danglingCall {f : Function} (hf : f ∈ m.functions) (hext : f.isExternal = false)
    {b : Block} (hb : b ∈ f.blocks) {o : Op} (ho : o ∈ b.ops) {callee : String}
    {args : List Operand} {known : Bool} (hk : o.kind = .call callee args known)
    (h : callee ∉ m.symbols) : Exhibits m (.danglingCall f.symbol callee)

end Module

theorem two_le_count_of_firstRepeat?_go {α : Type} [DecidableEq α] {seen xs : List α} {x : α}
    (h : firstRepeat?.go seen xs = some x) : 2 ≤ (seen ++ xs).count x := by
  induction xs generalizing seen with
  | nil => cases h
  | cons y ys ih =>
    rw [firstRepeat?.go] at h
    split at h
    · next hy =>
      cases h
      have hcount := List.count_pos_iff.2 hy
      rw [List.count_append, List.count_cons_self]
      omega
    · have hcount := ih h
      rw [List.count_append, List.count_cons] at hcount ⊢
      omega

theorem two_le_count_of_firstRepeat? {α : Type} [DecidableEq α] {xs : List α} {x : α}
    (h : firstRepeat? xs = some x) : 2 ≤ xs.count x :=
  two_le_count_of_firstRepeat?_go h

theorem not_nodup_of_two_le_count {α : Type} [DecidableEq α] {xs : List α} {x : α}
    (h : 2 ≤ xs.count x) : ¬xs.Nodup := by
  intro hnodup
  have hcount := List.nodup_iff_count_le_one.1 hnodup x
  omega

theorem of_orElse_eq_some {α : Type} {x y : Option α} {a : α} (h : (x <|> y) = some a) :
    x = some a ∨ y = some a := by
  cases x with
  | none => exact .inr h
  | some b => exact .inl h

theorem Function.two_le_count_of_redefined? {f : Function} {v : ValueId}
    (h : f.redefined? = some v) : 2 ≤ f.definitions.count v := by
  obtain ⟨i, hi, rfl⟩ := Option.map_eq_some_iff.1 h
  obtain ⟨w, hw, rfl⟩ := List.mem_map.1 (List.min?_mem hi)
  exact of_decide_eq_true (List.mem_filter.1 hw).2

namespace Module

variable {m : Module} {f : Function} {e : VerifyError}

section Body

variable (hf : f ∈ m.functions) (hext : f.isExternal = false) {b : Block} (hb : b ∈ f.blocks)
include hf hext hb

theorem exhibits_of_opFault? {i : Nat} {o : Op} (ho : b.ops[i]? = some o)
    (h : f.opFault? m.symbols b i o = some e) : m.Exhibits e := by
  have hmem := List.mem_of_getElem? ho
  have hi := (List.getElem?_eq_some_iff.1 ho).1
  rcases of_orElse_eq_some h with h | h
  · split at h
    · next hterm =>
      cases h
      exact .misplacedTerminator hf hext hb ho (OpKind.isTerminator_iff.1 hterm.1) (by omega)
    · cases h
  rcases of_orElse_eq_some h with h | h
  · obtain ⟨t, ht, rfl⟩ := Option.map_eq_some_iff.1 h
    have hnames := OpKind.mem_blocks_iff.1 (List.mem_of_find?_eq_some ht)
    have hunknown : t ∉ f.ids := by simpa [Function.ids] using List.find?_some ht
    exact .unknownBlock hf hext hb (.inl ⟨o, hmem, hnames⟩)
      fun h => hunknown (Function.mem_ids_iff.2 h)
  rcases of_orElse_eq_some h with h | h
  · obtain ⟨v, hv, rfl⟩ := Option.map_eq_some_iff.1 h
    have hreads := OpKind.mem_operands_iff.1 ((o.mem_uses_iff).1 (List.mem_of_find?_eq_some hv))
    have hundefined : v ∉ f.definitions := by simpa using List.find?_some hv
    exact .undefinedValue hf hext hb hmem hreads
      fun h => hundefined (Function.mem_definitions_iff.2 h)
  · obtain ⟨callee, hc, rfl⟩ := Option.map_eq_some_iff.1 h
    obtain ⟨hcallee, hdangling⟩ := Option.filter_eq_some_iff.1 hc
    obtain ⟨args, known, hk⟩ := OpKind.callee?_eq_some_iff.1 hcallee
    exact .danglingCall hf hext hb hmem hk (of_decide_eq_true hdangling)

theorem exhibits_of_blockFault? (h : f.blockFault? m.symbols b = some e) : m.Exhibits e := by
  rcases of_orElse_eq_some h with h | h
  · split at h
    · next hnone =>
      cases h
      refine .missingTerminator hf hext hb fun last hlast hleaves => ?_
      simp [Block.terminator?, hlast, Op.isTerminator, OpKind.isTerminator_iff.2 hleaves] at hnone
    · cases h
  rcases of_orElse_eq_some h with h | h
  · obtain ⟨⟨o, i⟩, hmem, hfault⟩ := List.exists_of_findSome?_eq_some h
    exact exhibits_of_opFault? hf hext hb (List.mem_zipIdx_iff_getElem?.1 hmem) hfault
  · obtain ⟨t, ht, rfl⟩ := Option.map_eq_some_iff.1 h
    have hunknown : t ∉ f.ids := by simpa [Function.ids] using List.find?_some ht
    exact .unknownBlock hf hext hb (.inr (List.mem_append.1 (List.mem_of_find?_eq_some ht)))
      fun h => hunknown (Function.mem_ids_iff.2 h)

end Body

theorem exhibits_of_function_fault? (hf : f ∈ m.functions) (h : f.fault? m.symbols = some e) :
    m.Exhibits e := by
  rw [Function.fault?] at h
  split at h
  · next hext =>
    split at h
    · cases h
    · next hblocks =>
      cases h
      exact .declarationWithBody hf hext fun hnil => hblocks (List.isEmpty_iff.2 hnil)
  · next hext =>
    have hext : f.isExternal = false := Bool.eq_false_iff.2 hext
    split at h
    · next hnil =>
      cases h
      exact .missingBody hf hext (List.isEmpty_iff.1 hnil)
    rcases of_orElse_eq_some h with h | h
    · obtain ⟨id, hid, rfl⟩ := Option.map_eq_some_iff.1 h
      exact .duplicateBlock hf hext (two_le_count_of_firstRepeat? hid)
    rcases of_orElse_eq_some h with h | h
    · obtain ⟨v, hv, rfl⟩ := Option.map_eq_some_iff.1 h
      exact .duplicateDefinition hf hext (Function.two_le_count_of_redefined? hv)
    · obtain ⟨b, hb, hfault⟩ := List.exists_of_findSome?_eq_some h
      exact exhibits_of_blockFault? hf hext hb hfault

theorem exhibits_of_fault? (h : m.fault? = some e) : m.Exhibits e := by
  rcases of_orElse_eq_some h with h | h
  · obtain ⟨symbol, hsymbol, rfl⟩ := Option.map_eq_some_iff.1 h
    exact .duplicateFunction (two_le_count_of_firstRepeat? hsymbol)
  · obtain ⟨f, hf, hfault⟩ := List.exists_of_findSome?_eq_some h
    exact exhibits_of_function_fault? hf hfault

/-- Where every other rule is kept, an error can only say of a value that it is read and not
defined. -/
theorem Exhibits.undefinedValue_of_framed (h : m.Exhibits e) (hm : m.Framed) :
    ∃ f ∈ m.functions, ∃ b ∈ f.blocks, ∃ o ∈ b.ops, ∃ v ∈ o.uses, v ∉ f.definitions ∧
      e = .undefinedValue f.symbol b.id v := by
  cases h with
  | undefinedValue hf hext hb ho hv h =>
    refine ⟨_, hf, _, hb, _, ho, _, (Op.mem_uses_iff _).2 (OpKind.mem_operands_iff.2 hv), ?_, rfl⟩
    exact fun hmem => h (Function.mem_definitions_iff.1 hmem)
  -- Each of the other errors says that a rule of the frame is broken.
  | duplicateFunction h => exact absurd hm.symbols_nodup (not_nodup_of_two_le_count h)
  | declarationWithBody hf hext h => exact absurd (hm.bodiless _ hf hext) h
  | missingBody hf hext h => exact absurd h (hm.bodies _ hf hext).nonempty
  | duplicateBlock hf hext h =>
    exact absurd (hm.bodies _ hf hext).ids_nodup (not_nodup_of_two_le_count h)
  | missingTerminator hf hext hb h =>
    obtain ⟨body, last, hops, hlast, -⟩ := (hm.bodies _ hf hext).closed _ hb
    exact absurd (OpKind.isTerminator_iff.1 hlast) (h last (by rw [hops, List.getLast?_concat]))
  | misplacedTerminator hf hext hb ho hleaves h =>
    obtain ⟨body, last, hops, -, hbody⟩ := (hm.bodies _ hf hext).closed _ hb
    rw [hops, List.length_append, List.length_singleton] at h
    rw [hops, List.getElem?_append_left (by omega)] at ho
    have hstays := hbody _ (List.mem_of_getElem? ho)
    exact absurd hleaves (OpKind.isTerminator_eq_false_iff.1 hstays)
  | unknownBlock hf hext hb ht h =>
    have hbody := hm.bodies _ hf hext
    rw [← Function.mem_ids_iff] at h
    rcases ht with ⟨o, ho, ht⟩ | ht
    · have ho := Function.mem_ops_iff.2 ⟨_, hb, ho⟩
      exact absurd (hbody.targets o ho _ (OpKind.mem_blocks_iff.2 ht)) h
    · exact absurd (hbody.edges _ hb _ (List.mem_append.2 ht)) h
  | duplicateDefinition hf hext h =>
    exact absurd (hm.bodies _ hf hext).definitions_nodup (not_nodup_of_two_le_count h)
  | danglingCall hf hext hb ho hk h =>
    have hcallee := OpKind.callee?_eq_some_iff.2 ⟨_, _, hk⟩
    exact absurd ((hm.bodies _ hf hext).calls _ (Function.mem_ops_iff.2 ⟨_, hb, ho⟩) _ hcallee) h

/-- What an error says is never so in a well-formed module. -/
theorem Exhibits.not_wellFormed (h : m.Exhibits e) : ¬m.WellFormed := by
  intro hm
  obtain ⟨hframed, hscoped⟩ := wellFormed_iff.1 hm
  obtain ⟨f, hf, b, hb, o, ho, v, hv, hundefined, -⟩ := h.undefinedValue_of_framed hframed
  exact hundefined (hscoped f hf o (Function.mem_ops_iff.2 ⟨b, hb, ho⟩) v hv)

/-- The verifier accepts exactly the well-formed modules. Every error that it gives is true of the
module, and a module of which some error is true is not accepted. -/
theorem verify_accepts_iff_wellFormed (m : Module) :
    (m.verify = .ok () ↔ m.WellFormed) ∧ (∀ e, m.verify = .error e → m.Exhibits e) ∧
      ∀ e, m.Exhibits e → m.verify ≠ .ok () := by
  have hiff : m.verify = .ok () ↔ m.WellFormed := by rw [verify_eq_ok_iff, wellFormed_iff]
  refine ⟨hiff, fun e he => exhibits_of_fault? ?_, fun e he hok => he.not_wellFormed (hiff.1 hok)⟩
  rw [verify] at he
  cases hfault : m.fault? with
  | none => simp [hfault] at he
  | some e' =>
    simp only [hfault, Except.error.injEq] at he
    rw [he]

end Module

end PassEngine.Dialect
