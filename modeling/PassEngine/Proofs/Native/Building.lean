import Mathlib.Data.List.DropRight
import PassEngine.Native.Builder
import PassEngine.Proofs.Bridge.Linking

namespace PassEngine.Native

namespace Function

def ids (f : Function) : List BlockId :=
  f.blocks.map Block.id

def results (blocks : List Block) : List ValueId :=
  blocks.flatMap fun b => b.instructions.filterMap Instruction.result?

/-- All values that a function names: its parameters, and the results of its instructions. -/
def definitions (f : Function) : List ValueId :=
  f.params.map Prod.fst ++ results f.blocks

theorem map_blocks_relinked {α : Type} {g : Block → α}
    (hg : ∀ b preds, g (b.linked preds) = g b) (f : Function) :
    f.relinked.blocks.map g = f.blocks.map g := by
  rw [blocks_relinked, map_zipWith_of_eq hg]
  rw [FlowNode.length_preds, List.length_map]

@[simp]
theorem ids_relinked (f : Function) : f.relinked.ids = f.ids :=
  map_blocks_relinked (fun _ _ => rfl) f

@[simp]
theorem definitions_relinked (f : Function) : f.relinked.definitions = f.definitions := by
  have hresults : results f.relinked.blocks = results f.blocks := by
    unfold results
    rw [List.flatMap_def, map_blocks_relinked fun _ _ => rfl, List.flatMap_def]
  rw [definitions, hresults]
  rfl

theorem relinked_relinked (f : Function) : f.relinked.relinked = f.relinked := by
  have hblocks : f.relinked.relinked.blocks = f.relinked.blocks := by
    rw [blocks_relinked, map_blocks_relinked (fun _ _ => rfl), blocks_relinked,
      zipWith_zipWith_of_eq (f := Block.linked) fun _ _ => rfl]
  calc f.relinked.relinked = { f.relinked with blocks := f.relinked.relinked.blocks } := rfl
    _ = f.relinked := by rw [hblocks]

end Function

namespace Builder

/-- A call to a builder. A function is created with all that is not numbered in it. -/
inductive Call where
  | newValue
  | newBlockId
  | create (name : String) (returnType : Ty) (isExternal isVararg : Bool)
      (inlineHint : InlineHint) (location : Option Location)
  | addParameter (ty : Ty)
  | addBlock
  | switchTo (id : BlockId)
  | binary (op : BinaryOp) (lhs rhs : Value) (ty : Ty)
  | unary (op : UnaryOp) (operand : Value) (ty : Ty)
  | load (ptr : Value) (ty : Ty)
  | store (value ptr : Value)
  | alloca (ty : Ty) (count : Option Value)
  | elementPtr (ptr : Value) (indices : List Value) (ty : Ty)
  | call (target : Value) (args : List Value) (ty : Ty)
  | intrinsic (name : String) (args : List Value) (ty : Ty)
  | cast (value : Value) (ty : Ty)
  | select (cond onTrue onFalse : Value) (ty : Ty)
  | phi (incoming : List (Value × BlockId)) (ty : Ty)
  | ret (value : Option Value)
  | br (dest : BlockId)
  | condBr (cond : Value) (onTrue onFalse : BlockId)
  | debugLoc (loc : Location)
  | comment (text : String)
  | inlineAsm (assembly : String)
  | isTerminated
  | finish

inductive Answer where
  | done
  | value (id : ValueId)
  | value? (id : Option ValueId)
  | block (id : BlockId)
  | truth (b : Bool)
  | function (f : Option Function)

namespace Call

def perform : Call → Build Answer
  | newValue => .value <$> Builder.newValue
  | newBlockId => .block <$> Builder.newBlockId
  | create name returnType isExternal isVararg inlineHint location =>
    (fun _ => .done) <$>
      Builder.start { name, returnType, isExternal, isVararg, inlineHint, location }
  | addParameter ty => .value <$> Builder.addParameter ty
  | addBlock => .block <$> Builder.addBlock
  | switchTo id => (fun _ => .done) <$> Builder.switchTo id
  | binary op lhs rhs ty => .value <$> Builder.binary op lhs rhs ty
  | unary op operand ty => .value <$> Builder.unary op operand ty
  | load ptr ty => .value <$> Builder.load ptr ty
  | store value ptr => (fun _ => .done) <$> Builder.store value ptr
  | alloca ty count => .value <$> Builder.alloca ty count
  | elementPtr ptr indices ty => .value <$> Builder.elementPtr ptr indices ty
  | call target args ty => .value? <$> Builder.call target args ty
  | intrinsic name args ty => .value? <$> Builder.intrinsic name args ty
  | cast value ty => .value <$> Builder.cast value ty
  | select cond onTrue onFalse ty => .value <$> Builder.select cond onTrue onFalse ty
  | phi incoming ty => .value <$> Builder.phi incoming ty
  | ret value => (fun _ => .done) <$> Builder.ret value
  | br dest => (fun _ => .done) <$> Builder.br dest
  | condBr cond onTrue onFalse => (fun _ => .done) <$> Builder.condBr cond onTrue onFalse
  | debugLoc loc => (fun _ => .done) <$> Builder.debugLoc loc
  | comment text => (fun _ => .done) <$> Builder.comment text
  | inlineAsm assembly => (fun _ => .done) <$> Builder.inlineAsm assembly
  | isTerminated => (fun b => .truth b.isTerminated) <$> get
  | finish => .function <$> Builder.finish

def creates : Call → Bool
  | create .. => true
  | _ => false

/-- Whether a call numbers a value, also if it then fails. -/
def numbersValue : Call → Bool
  | newValue | addParameter .. | binary .. | unary .. | load .. | alloca .. | elementPtr ..
  | cast .. | select .. | phi .. => true
  | call _ _ ty | intrinsic _ _ ty => ty ≠ .void
  | _ => false

def numbersBlock : Call → Bool
  | newBlockId | addBlock => true
  | _ => false

end Call

/-- The builder that some calls leave, whether or not they fail. -/
def after (calls : List Call) : Builder :=
  calls.foldl (fun b c => (c.perform.run b).2) {}

/-- The number of calls of a kind since a function was last created. -/
def countSince (kind : Call → Bool) (calls : List Call) : Nat :=
  (calls.rtakeWhile fun c => !c.creates).countP kind

/-- How a function under construction can grow: by a value or a block of this number, or by an
instruction that defines no value. -/
inductive Grows (f : Function) : Option ValueId → Option BlockId → Function → Prop
  | parameter (v : ValueId) (ty : Ty) :
      Grows f (some v) none { f with params := f.params ++ [(v, ty)] }
  | block (id : BlockId) : Grows f none (some id) { f with blocks := f.blocks ++ [{ id }] }
  | instruction {id : BlockId} {i : Instruction} {blocks : List Block}
      (h : append id i f.blocks = some blocks) : Grows f i.result? none { f with blocks }

/-- All that a step can do, which numbers a value or a block or neither. If it fails, it leaves the
function under construction alone. If not, it may also hand it over, or add to it what it has
numbered. -/
structure Outcome {α : Type} (value block : Bool) (b : Builder)
    (out : Except BuildError α × Builder) : Prop where
  nextValue : out.2.nextValue = if value then b.nextValue + 1 else b.nextValue
  nextBlock : out.2.nextBlock = if block then b.nextBlock + 1 else b.nextBlock
  function : out.2.function = b.function ∨ (∃ a, out.1 = .ok a) ∧ (out.2.function = none ∨
    ∃ f g, b.function = some f ∧ out.2.function = some g ∧
      Grows f (if value then some ⟨b.nextValue⟩ else none)
        (if block then some ⟨b.nextBlock⟩ else none) g)

section Steps

variable {α β : Type} {b b' : Builder}

theorem run_bind_ok {x : Build α} {a : α} (h : x.run b = (.ok a, b')) (k : α → Build β) :
    (x >>= k).run b = (k a).run b' := by
  change (match x.run b with | (r, b'') => (ExceptT.bindCont k r) b'') = _
  rw [h]
  rfl

theorem Outcome.map {value block : Bool} {x : Build α} (h : Outcome value block b (x.run b'))
    (f : α → β) : Outcome value block b ((f <$> x).run b') := by
  have hrun : (f <$> x).run b' = ((x.run b').1.map f, (x.run b').2) := by
    rw [ExceptT.run_map]
    rfl
  rw [hrun]
  refine ⟨h.nextValue, h.nextBlock, h.function.imp_right fun ⟨⟨a, ha⟩, hfunction⟩ => ?_⟩
  exact ⟨⟨f a, by simp only [ha, Except.map]⟩, hfunction⟩

theorem outcome_newValue (b : Builder) : Outcome true false b (newValue.run b) :=
  ⟨rfl, rfl, .inl rfl⟩

theorem outcome_newBlockId (b : Builder) : Outcome false true b (newBlockId.run b) :=
  ⟨rfl, rfl, .inl rfl⟩

theorem outcome_addParameter (ty : Ty) (b : Builder) :
    Outcome true false b ((addParameter ty).run b) := by
  obtain ⟨_ | f, block, nextValue, nextBlock⟩ := b
  · exact ⟨rfl, rfl, .inl rfl⟩
  · exact ⟨rfl, rfl, .inr ⟨⟨_, rfl⟩, .inr ⟨f, _, rfl, rfl, .parameter _ ty⟩⟩⟩

theorem outcome_addBlock (b : Builder) : Outcome false true b (addBlock.run b) := by
  obtain ⟨_ | f, block, nextValue, nextBlock⟩ := b
  · exact ⟨rfl, rfl, .inl rfl⟩
  · exact ⟨rfl, rfl, .inr ⟨⟨_, rfl⟩, .inr ⟨f, _, rfl, rfl, .block _⟩⟩⟩

theorem outcome_switchTo (id : BlockId) (b : Builder) :
    Outcome false false b ((switchTo id).run b) := by
  obtain ⟨_ | f, block, nextValue, nextBlock⟩ := b
  · exact ⟨rfl, rfl, .inl rfl⟩
  · let b : Builder := ⟨some f, block, nextValue, nextBlock⟩
    have hfunction : currentFunction.run b = (.ok f, b) := rfl
    rw [switchTo, run_bind_ok hfunction]
    cases (f.block? id).isNone with
    | true => exact ⟨rfl, rfl, .inl rfl⟩
    | false => exact ⟨rfl, rfl, .inl rfl⟩

theorem outcome_finish (b : Builder) : Outcome false false b (finish.run b) :=
  ⟨rfl, rfl, .inr ⟨⟨_, rfl⟩, .inl rfl⟩⟩

theorem emit_cases (i : Instruction) (b : Builder) : (∃ e, (emit i).run b = (.error e, b)) ∨
    ∃ f id blocks, b.function = some f ∧ append id i f.blocks = some blocks ∧
      (emit i).run b = (.ok (), { b with function := some { f with blocks } }) := by
  obtain ⟨_ | f, _ | id, nextValue, nextBlock⟩ := b
  · exact .inl ⟨.noFunction, rfl⟩
  · exact .inl ⟨.noFunction, rfl⟩
  · exact .inl ⟨.noBlock, rfl⟩
  · let b : Builder := ⟨some f, some id, nextValue, nextBlock⟩
    have hfunction : currentFunction.run b = (.ok f, b) := rfl
    have hget : (get : Build Builder).run b = (.ok b, b) := rfl
    rw [emit, run_bind_ok hfunction, run_bind_ok hget]
    cases happend : append id i f.blocks with
    | none => exact .inl ⟨.blockGone, by simp only [b, happend]; rfl⟩
    | some blocks => exact .inr ⟨f, id, blocks, rfl, happend, by simp only [b, happend]; rfl⟩

theorem outcome_emit (value : Bool) {i : Instruction}
    (hi : i.result? = if value then some ⟨b.nextValue⟩ else none) :
    Outcome value false b
      ((emit i).run { b with nextValue := if value then b.nextValue + 1 else b.nextValue }) := by
  rcases emit_cases i { b with nextValue := if value then b.nextValue + 1 else b.nextValue } with
    ⟨e, hrun⟩ | ⟨f, id, blocks, hf, happend, hrun⟩
  · rw [hrun]
    exact ⟨rfl, rfl, .inl rfl⟩
  · rw [hrun]
    exact ⟨rfl, rfl, .inr ⟨⟨(), rfl⟩, .inr ⟨f, _, hf, rfl, hi ▸ .instruction happend⟩⟩⟩

theorem outcome_define {make : ValueId → Instruction} (hmake : ∀ v, (make v).result? = some v)
    (b : Builder) : Outcome true false b ((define make).run b) := by
  have hrun : (define make).run b = ((fun _ => ⟨b.nextValue⟩) <$> emit (make ⟨b.nextValue⟩)).run
      { b with nextValue := b.nextValue + 1 } := rfl
  rw [hrun]
  exact (outcome_emit true (hmake _)).map _

theorem outcome_defineUnlessVoid {make : Option ValueId → Instruction}
    (hmake : ∀ v, (make v).result? = v) (ty : Ty) (b : Builder) :
    Outcome (ty ≠ .void) false b ((defineUnlessVoid ty make).run b) := by
  by_cases hty : ty = .void
  · have hrun : (defineUnlessVoid ty make).run b =
        ((fun _ => none) <$> emit (make none)).run b := by
      rw [defineUnlessVoid, if_pos hty]
      rfl
    rw [hrun, decide_eq_false (not_not.2 hty)]
    exact (outcome_emit false (hmake none)).map _
  · have hrun : (defineUnlessVoid ty make).run b =
        ((fun _ => some ⟨b.nextValue⟩) <$> emit (make (some ⟨b.nextValue⟩))).run
          { b with nextValue := b.nextValue + 1 } := by
      rw [defineUnlessVoid, if_neg hty]
      rfl
    rw [hrun, decide_eq_true hty]
    exact (outcome_emit true (hmake _)).map _

/-- One call after the other does one of the things that a step can do, unless it creates a
function. -/
theorem Call.outcome {c : Call} (hc : c.creates = false) (b : Builder) :
    Outcome c.numbersValue c.numbersBlock b (c.perform.run b) := by
  cases c with
  | create => cases hc
  | newValue => exact (outcome_newValue b).map _
  | newBlockId => exact (outcome_newBlockId b).map _
  | addParameter ty => exact (outcome_addParameter ty b).map _
  | addBlock => exact (outcome_addBlock b).map _
  | switchTo id => exact (outcome_switchTo id b).map _
  | binary | unary | load | alloca | elementPtr | cast | select | phi =>
    exact (outcome_define (fun _ => rfl) b).map _
  | call target args ty | intrinsic name args ty =>
    exact (outcome_defineUnlessVoid (fun _ => rfl) ty b).map _
  | store | ret | br | condBr | debugLoc | comment | inlineAsm =>
    exact (outcome_emit (b := b) false rfl).map _
  | isTerminated => exact ⟨rfl, rfl, .inl rfl⟩
  | finish => exact (outcome_finish b).map _

end Steps

section Numbering

variable {f g : Function} {v : Option ValueId} {k : Option BlockId}

theorem exists_of_append {id : BlockId} {i : Instruction} {blocks blocks' : List Block}
    (h : append id i blocks = some blocks') : ∃ front b back, blocks = front ++ b :: back ∧
      blocks' = front ++ { b with instructions := b.instructions ++ [i] } :: back := by
  induction blocks generalizing blocks' with
  | nil => cases h
  | cons b rest ih =>
    rw [append] at h
    split at h
    · cases h
      exact ⟨[], b, rest, rfl, rfl⟩
    · obtain ⟨rest', hrest, rfl⟩ := Option.map_eq_some_iff.1 h
      obtain ⟨front, b', back, rfl, rfl⟩ := ih hrest
      exact ⟨b :: front, b', back, rfl, rfl⟩

theorem Grows.ids (h : Grows f v k g) : g.ids = f.ids ++ k.toList := by
  cases h with
  | parameter v ty => exact (List.append_nil _).symm
  | block id => exact List.map_append
  | @instruction id i blocks h =>
    obtain ⟨front, b, back, hf, rfl⟩ := exists_of_append h
    simp [Function.ids, hf]

theorem Grows.definitions (h : Grows f v k g) :
    g.definitions.Perm (f.definitions ++ v.toList) := by
  cases h with
  | parameter v ty =>
    simp only [Function.definitions, List.map_append, List.append_assoc]
    exact List.perm_append_comm.append_left _
  | block id => simp [Function.definitions, Function.results]
  | @instruction id i blocks h =>
    obtain ⟨front, b, back, hf, rfl⟩ := exists_of_append h
    have hresult : [i].filterMap Instruction.result? = i.result?.toList := by
      cases hi : i.result? <;> simp [hi]
    simp only [Function.definitions, Function.results, hf, List.flatMap_append, List.flatMap_cons,
      List.filterMap_append, hresult, List.append_assoc]
    -- Only the results of the blocks after this one come to stand elsewhere.
    apply List.Perm.append_left
    apply List.Perm.append_left
    apply List.Perm.append_left
    exact List.perm_append_comm

/-- Ids that are all different, with numbers below a bound. -/
def Below {α : Type} (index : α → UInt32) (n : Nat) (ids : List α) : Prop :=
  ids.Nodup ∧ ∀ id ∈ ids, (index id).toNat < n

theorem Below.mono {α : Type} {index : α → UInt32} {n m : Nat} {ids : List α}
    (h : Below index n ids) (hm : n ≤ m) : Below index m ids :=
  ⟨h.1, fun id hid => (h.2 id hid).trans_le hm⟩

/-- The next number is none of those before it, as long as the numbers do not run out. -/
theorem Below.grow {α : Type} {index : α → UInt32} {n : Nat} {ids ids' : List α} {next : α}
    {new : Bool} (h : Below index n ids) (hnext : index next = .ofNat n)
    (hids : ids'.Perm (ids ++ (if new then some next else none).toList)) (hn : n < UInt32.size) :
    Below index (n + new.toNat) ids' := by
  obtain ⟨hnodup, hlt⟩ := h
  cases new with
  | false =>
    have hids : ids'.Perm ids := by simpa using hids
    exact ⟨hids.nodup_iff.2 hnodup, fun id hid => hlt id (hids.mem_iff.1 hid)⟩
  | true =>
    have hids : ids'.Perm (ids ++ [next]) := hids
    -- The number fits, so it is above all those given out before.
    have hnext : (index next).toNat = n := by
      rw [hnext, UInt32.toNat_ofNat']
      exact Nat.mod_eq_of_lt hn
    constructor
    · rw [hids.nodup_iff, ← List.concat_eq_append, List.nodup_concat]
      refine ⟨fun hmem => ?_, hnodup⟩
      have := hlt next hmem
      omega
    · intro id hid
      rcases List.mem_append.1 (hids.mem_iff.1 hid) with hold | hnew
      · exact (hlt id hold).trans (Nat.lt_succ_self n)
      · rw [List.mem_singleton.1 hnew, hnext]
        exact Nat.lt_succ_self n

/-- A function in which so many values and blocks are numbered, as far as the numbers reach. -/
structure Distinct (values blocks : Nat) (f : Function) : Prop where
  ids : blocks < UInt32.size → Below BlockId.index blocks f.ids
  definitions : values < UInt32.size → Below ValueId.index values f.definitions

theorem distinct_of_empty (hparams : f.params = []) (hblocks : f.blocks = []) : Distinct 0 0 f := by
  have hids : f.ids = [] := by rw [Function.ids, hblocks, List.map_nil]
  have hdefinitions : f.definitions = [] := by
    rw [Function.definitions, hparams, hblocks]
    rfl
  constructor
  · rw [hids]
    exact fun _ => ⟨List.nodup_nil, nofun⟩
  · rw [hdefinitions]
    exact fun _ => ⟨List.nodup_nil, nofun⟩

theorem Distinct.mono {values blocks values' blocks' : Nat} (h : Distinct values blocks f)
    (hvalues : values ≤ values') (hblocks : blocks ≤ blocks') : Distinct values' blocks' f where
  ids hlt := (h.ids (hblocks.trans_lt hlt)).mono hblocks
  definitions hlt := (h.definitions (hvalues.trans_lt hlt)).mono hvalues

/-- A builder that has numbered so many values and blocks since a function was last created. -/
structure Numbered (values blocks : Nat) (b : Builder) : Prop where
  nextValue : b.nextValue = .ofNat values
  nextBlock : b.nextBlock = .ofNat blocks
  function : ∀ f, b.function = some f → Distinct values blocks f

theorem next_number (n : Nat) (new : Bool) :
    (if new then UInt32.ofNat n + 1 else UInt32.ofNat n) = UInt32.ofNat (n + new.toNat) := by
  cases new with
  | false => rfl
  | true => exact (UInt32.ofNat_add n 1).symm

/-- What one step keeps: the numbers in the function are different and were all given out. -/
theorem Numbered.step {α : Type} {values blocks : Nat} {value block : Bool} {b : Builder}
    {out : Except BuildError α × Builder} (h : Numbered values blocks b)
    (hout : Outcome value block b out) :
    Numbered (values + value.toNat) (blocks + block.toNat) out.2 where
  nextValue := by rw [hout.nextValue, h.nextValue, next_number]
  nextBlock := by rw [hout.nextBlock, h.nextBlock, next_number]
  function g hg := by
    rcases hout.function with hkept | ⟨-, hnone | ⟨f, g', hf, hg', hgrows⟩⟩
    · exact (h.function g (hkept ▸ hg)).mono (by omega) (by omega)
    · rw [hnone] at hg
      cases hg
    · cases hg'.symm.trans hg
      constructor
      · intro hlt
        exact ((h.function f hf).ids (by omega)).grow h.nextBlock (.of_eq hgrows.ids) (by omega)
      · intro hlt
        exact ((h.function f hf).definitions (by omega)).grow h.nextValue hgrows.definitions
          (by omega)

theorem after_concat (calls : List Call) (c : Call) :
    after (calls ++ [c]) = (c.perform.run (after calls)).2 := by
  rw [after, List.foldl_concat, after]

theorem countSince_concat (kind : Call → Bool) (calls : List Call) (c : Call) :
    countSince kind (calls ++ [c]) =
      if c.creates then 0 else countSince kind calls + (kind c).toNat := by
  unfold countSince
  cases hc : c.creates with
  | true =>
    rw [List.rtakeWhile_concat_neg _ _ _ (by simp [hc])]
    rfl
  | false =>
    rw [List.rtakeWhile_concat_pos _ _ _ (by simp [hc]), List.countP_append, List.countP_singleton]
    cases kind c <;> rfl

theorem numbered_after (calls : List Call) : Numbered (countSince Call.numbersValue calls)
    (countSince Call.numbersBlock calls) (after calls) := by
  induction calls using List.reverseRecOn with
  | nil => exact ⟨rfl, rfl, nofun⟩
  | append_singleton calls c ih =>
    rw [after_concat, countSince_concat, countSince_concat]
    cases hc : c.creates with
    | false => exact ih.step (c.outcome hc _)
    | true =>
      cases c with
      | create name returnType isExternal isVararg inlineHint location =>
        refine ⟨rfl, rfl, fun f hf => ?_⟩
        cases hf
        exact distinct_of_empty rfl rfl
      | _ => cases hc

end Numbering

/-- A call that fails leaves the function under construction as it is. -/
theorem function_of_error {c : Call} {b : Builder} {e : BuildError}
    (h : (c.perform.run b).1 = .error e) : (c.perform.run b).2.function = b.function := by
  cases hc : c.creates with
  | true =>
    cases c with
    | create => cases h
    | _ => cases hc
  | false =>
    rcases (c.outcome hc b).function with hkept | ⟨⟨a, ha⟩, -⟩
    · exact hkept
    · rw [h] at ha
      cases ha

theorem answer_finish (b : Builder) :
    (Call.finish.perform.run b).1 = .ok (.function (b.function.map Function.relinked)) := rfl

/-- However a builder is called, the blocks of a function that it hands over have different ids,
its parameters and results are different values, and the edges recorded in it are those that it
has. No call that fails touches the function under construction. -/
theorem finish_wellNumbered (calls : List Call) :
    (∀ f, (Call.finish.perform.run (after calls)).1 = .ok (.function (some f)) →
      countSince Call.numbersValue calls < UInt32.size →
      countSince Call.numbersBlock calls < UInt32.size →
        f.ids.Nodup ∧ f.definitions.Nodup ∧ f.relinked = f) ∧
    ∀ (c : Call) (e : BuildError), (c.perform.run (after calls)).1 = .error e →
      (c.perform.run (after calls)).2.function = (after calls).function := by
  refine ⟨fun f hfinish hvalues hblocks => ?_, fun c e => function_of_error⟩
  rw [answer_finish, Except.ok.injEq, Answer.function.injEq, Option.map_eq_some_iff] at hfinish
  obtain ⟨g, hg, rfl⟩ := hfinish
  rw [Function.ids_relinked, Function.definitions_relinked]
  have hdistinct := (numbered_after calls).function g hg
  exact ⟨(hdistinct.ids hblocks).1, (hdistinct.definitions hvalues).1, g.relinked_relinked⟩

/-- Calls out of order, of which the first, the fifth and the eighth fail. The function is created
after a value was numbered, and a value and a block are asked for that it does not use. -/
def disorderly : List Call := [
  .addParameter .i32,
  .create "choose" .i32 false false .none none,
  .addParameter .i32,
  .newValue,
  .ret none,
  .addBlock,
  .newBlockId,
  .switchTo ⟨7⟩,
  .addParameter .i32,
  .binary (.compare .slt) (.temp ⟨0⟩) (.temp ⟨2⟩) .i1,
  .addBlock,
  .call (.function "log") [] .void,
  .call (.function "next") [.temp ⟨0⟩] .i32,
  .ret (some (.temp ⟨4⟩)),
  .switchTo ⟨0⟩,
  .condBr (.temp ⟨3⟩) ⟨2⟩ ⟨0⟩]

def chooser : Function where
  name := "choose"
  returnType := .i32
  params := [(⟨0⟩, .i32), (⟨2⟩, .i32)]
  blocks := [
    { id := ⟨0⟩
      instructions := [
        .binary ⟨3⟩ (.compare .slt) (.temp ⟨0⟩) (.temp ⟨2⟩) .i1,
        .condBr (.temp ⟨3⟩) ⟨2⟩ ⟨0⟩]
      preds := [⟨0⟩]
      succs := [⟨2⟩, ⟨0⟩] },
    { id := ⟨2⟩
      instructions := [
        .call none (.function "log") [] .void false,
        .call (some ⟨4⟩) (.function "next") [.temp ⟨0⟩] .i32 false,
        .ret (some (.temp ⟨4⟩))]
      preds := [⟨0⟩] }]

theorem finish_wellNumbered_disorderly :
    (Call.finish.perform.run (after disorderly)).1 = .ok (.function (some chooser)) ∧
    chooser.ids.Nodup ∧ chooser.definitions.Nodup ∧ chooser.relinked = chooser ∧
    ((Call.ret none).perform.run (after (disorderly.take 4))).1 = .error .noBlock ∧
    ((Call.ret none).perform.run (after (disorderly.take 4))).2.function =
      (after (disorderly.take 4)).function := by
  have hfinish : (Call.finish.perform.run (after disorderly)).1 =
      .ok (.function (some chooser)) := by
    have hfunction : (after disorderly).function.map Function.relinked = some chooser := by
      decide +kernel
    rw [answer_finish, hfunction]
  have herror : ((Call.ret none).perform.run (after (disorderly.take 4))).1 = .error .noBlock := rfl
  obtain ⟨hids, hdefinitions, hlinked⟩ :=
    (finish_wellNumbered disorderly).1 chooser hfinish (by decide +kernel) (by decide +kernel)
  exact ⟨hfinish, hids, hdefinitions, hlinked, herror,
    (finish_wellNumbered (disorderly.take 4)).2 _ _ herror⟩

end Builder

end PassEngine.Native
