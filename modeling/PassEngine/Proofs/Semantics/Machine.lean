import Mathlib.Logic.Function.Iterate
import PassEngine.Proofs.Dialect.Operands

namespace PassEngine.Dialect

/-- What the meaning of a module is relative to: the values of operands that name none, and what an
operation does that is neither control flow nor the call of a body. `perform` sees the operation
with its operands blanked out, and their values apart. -/
structure Interpretation (V W : Type) where
  const : Int64 → V
  global : String → V
  func : String → V
  undef : V
  truth : V → Bool
  perform : OpKind → Ty → List V → W → Option (V × W)

def Env (V : Type) : Type := ValueId → Option V

variable {V W : Type}

def Operand.eval (I : Interpretation V W) (env : Env V) : Operand → Option V
  | value v => env v
  | const n => some (I.const n)
  | global name => some (I.global name)
  | func name => some (I.func name)
  | undef => some I.undef

namespace Env

def bind (env : Env V) (result : Option ValueId) (x : V) : Env V := fun v =>
  if result = some v then some x else env v

def bindAll (env : Env V) (bound : List (Op × V)) : Env V :=
  bound.foldl (fun env p => env.bind p.1.result p.2) env

def ofParams (params : List (ValueId × Ty)) (xs : List V) : Env V := fun v =>
  (((params.map (·.1)).zip xs).find? (·.1 == v)).map (·.2)

end Env

/-- What an operation asks of the machine. -/
inductive Action where
  | skip
  | goto (dest : BlockId)
  | branch (cond : Operand) (onTrue onFalse : BlockId)
  | leave (value : Option Operand)
  | join
  | invoke (callee : String) (args : List Operand)
  | perform

namespace Action

def map (f : Operand → Operand) (g : BlockId → BlockId) : Action → Action
  | goto dest => goto (g dest)
  | branch cond onTrue onFalse => branch (f cond) (g onTrue) (g onFalse)
  | leave value => leave (value.map f)
  | invoke callee args => invoke callee (args.map f)
  | skip => skip
  | join => join
  | perform => perform

end Action

namespace OpKind

def action : OpKind → Action
  | br dest => .goto dest
  | condBr cond onTrue onFalse => .branch cond onTrue onFalse
  | ret value => .leave value
  | phi _ => .join
  | call callee args _ => .invoke callee args
  | debugLoc _ | comment _ => .skip
  | _ => .perform

def incoming? (k : OpKind) (source : BlockId) : Option Operand :=
  match k with
  | phi incoming => (incoming.find? (·.2 == source)).map (·.1)
  | _ => none

def shape (k : OpKind) : OpKind := k.mapOperands fun _ => .undef

theorem action_map (f : Operand → Operand) (g : BlockId → BlockId) (k : OpKind) :
    ((k.mapOperands f).mapBlocks g).action = k.action.map f g := by
  cases k <;> rfl

/-- Where a block is named, neither the oracle nor a body is asked. -/
theorem shape_map (f : Operand → Operand) (g : BlockId → BlockId) (k : OpKind)
    (h : k.action = .perform ∨ ∃ callee args, k.action = .invoke callee args) :
    ((k.mapOperands f).mapBlocks g).shape = k.shape := by
  rw [shape, mapOperands_mapBlocks, mapOperands_mapOperands]
  cases k <;> first | rfl | simp [action] at h

end OpKind

/-- What the machine does next. -/
inductive Effect (V W : Type) where
  | next (value : Option V) (world : W)
  | jump (dest : BlockId)
  | push (f : Function) (args : List V)
  | pop (value : V)
  | stuck

namespace Effect

def map (g : BlockId → BlockId) (image : Function → Function) : Effect V W → Effect V W
  | jump dest => jump (g dest)
  | push f args => push (image f) args
  | next value world => next value world
  | pop value => pop value
  | stuck => stuck

end Effect

def performed (I : Interpretation V W) (env : Env V) (o : Op) (world : W) : Effect V W :=
  match o.operands.mapM (Operand.eval I env) with
  | none => .stuck
  | some xs =>
    match I.perform o.kind.shape o.ty xs world with
    | none => .stuck
    | some (x, world) => .next (some x) world

def effect (m : Module) (I : Interpretation V W) (env : Env V) (o : Op) (world : W) : Effect V W :=
  match o.kind.action with
  | .skip => .next none world
  | .goto dest => .jump dest
  | .branch cond onTrue onFalse =>
    match cond.eval I env with
    | none => .stuck
    | some x => .jump (if I.truth x then onTrue else onFalse)
  | .leave none => .pop I.undef
  | .leave (some value) =>
    match value.eval I env with
    | none => .stuck
    | some x => .pop x
  | .join => .stuck
  | .invoke callee args =>
    match m.function? callee with
    | none => .stuck
    | some f =>
      if f.hasBody then
        match args.mapM (Operand.eval I env) with
        | none => .stuck
        | some xs => .push f xs
      else performed I env o world
  | .perform => performed I env o world

/-- A function at work: where it is, and what it still has to do there. While a function that it
called is at work, the call comes first in `rest`. -/
structure Frame (V : Type) where
  fn : Function
  block : BlockId
  rest : List Op
  env : Env V

def Frame.pass (fr : Frame V) (x : Option V) : Frame V :=
  match fr.rest with
  | [] => fr
  | o :: rest => { fr with rest, env := (x.map (fr.env.bind o.result)).getD fr.env }

def phiValue (I : Interpretation V W) (env : Env V) (source : Option BlockId) (o : Op) : Option V :=
  source.bind fun p => (o.kind.incoming? p).bind (Operand.eval I env)

theorem phiValue_eq_some_iff {I : Interpretation V W} {env : Env V} {p : BlockId} {o : Op} {x : V} :
    phiValue I env (some p) o = some x ↔
      ∃ y, o.kind.incoming? p = some y ∧ y.eval I env = some x := by
  rw [phiValue, Option.bind_some, Option.bind_eq_some_iff]

def leading (ops : List Op) : List Op := ops.takeWhile fun o => o.kind.isPhi

def afterPhis (ops : List Op) : List Op := ops.dropWhile fun o => o.kind.isPhi

/-- Enters a block, where all leading phis are read before any is set. -/
def arrive (I : Interpretation V W) (f : Function) (source : Option BlockId) (env : Env V)
    (b : Block) : Option (Frame V) :=
  ((leading b.ops).mapM (phiValue I env source)).map fun xs =>
    { fn := f, block := b.id, rest := afterPhis b.ops, env := env.bindAll ((leading b.ops).zip xs) }

def start (I : Interpretation V W) (f : Function) (args : List V) : Option (Frame V) :=
  f.blocks.head?.bind (arrive I f none (.ofParams f.params args))

def Frame.jump (I : Interpretation V W) (fr : Frame V) (dest : BlockId) : Option (Frame V) :=
  (fr.fn.block? dest).bind (arrive I fr.fn (some fr.block) fr.env)

/-- The function at work on top of those that wait for it, or what the outermost one returned. -/
inductive Status (V W : Type) where
  | running (top : Frame V) (below : List (Frame V)) (world : W)
  | returned (value : V) (world : W)
  | stuck

/-- What shows of a run from outside. -/
inductive Outcome (V W : Type) where
  | running
  | returned (value : V) (world : W)
  | stuck

namespace Status

def outcome : Status V W → Outcome V W
  | running _ _ _ => .running
  | returned value world => .returned value world
  | stuck => .stuck

def resume (below : List (Frame V)) (world : W) : Option (Frame V) → Status V W
  | some fr => running fr below world
  | none => stuck

def apply (I : Interpretation V W) (fr : Frame V) (below : List (Frame V)) (world : W) :
    Effect V W → Status V W
  | .next x world => running (fr.pass x) below world
  | .jump dest => resume below world (fr.jump I dest)
  | .push f args => resume (fr :: below) world (start I f args)
  | .pop x =>
    match below with
    | [] => returned x world
    | caller :: below => running (caller.pass (some x)) below world
  | .stuck => stuck

end Status

def step (m : Module) (I : Interpretation V W) : Status V W → Status V W
  | .running fr below world =>
    match fr.rest with
    | [] => .stuck
    | o :: _ => .apply I fr below world (effect m I fr.env o world)
  | .returned value world => .returned value world
  | .stuck => .stuck

namespace Module

def begin (m : Module) (I : Interpretation V W) (symbol : String) (args : List V) (world : W) :
    Status V W :=
  match m.function? symbol with
  | none => .stuck
  | some f => if f.hasBody then .resume [] world (start I f args) else .stuck

def run (m : Module) (I : Interpretation V W) (symbol : String) (args : List V) (world : W)
    (n : Nat) : Status V W :=
  (step m I)^[n] (m.begin I symbol args world)

end Module

theorem mapM_map_of_imp {α β γ : Type} {f : α → Option γ} {g : β → Option γ} {φ : α → β}
    {xs : List α} {ys : List γ} (h : ∀ x ∈ xs, ∀ y, f x = some y → g (φ x) = some y)
    (hxs : xs.mapM f = some ys) : (xs.map φ).mapM g = some ys := by
  induction xs generalizing ys with
  | nil => exact hxs
  | cons x xs ih =>
    simp only [List.mapM_cons, Option.bind_eq_bind, Option.bind_eq_some_iff, Option.pure_def,
      Option.some.injEq, List.map_cons] at hxs ⊢
    obtain ⟨y, hy, zs, hzs, rfl⟩ := hxs
    refine ⟨y, h x (by simp) y hy, zs, ?_, rfl⟩
    exact ih (fun x hx => h x (by simp [hx])) hzs

theorem length_eq_of_mapM {α β : Type} {f : α → Option β} {xs : List α} {ys : List β}
    (h : xs.mapM f = some ys) : xs.length = ys.length := by
  induction xs generalizing ys with
  | nil =>
    cases h
    rfl
  | cons x xs ih =>
    simp only [List.mapM_cons, Option.bind_eq_bind, Option.bind_eq_some_iff, Option.pure_def,
      Option.some.injEq] at h
    obtain ⟨y, -, zs, hzs, rfl⟩ := h
    simp [ih hzs]

theorem performed_cases (I : Interpretation V W) (env : Env V) (o : Op) (world : W) :
    performed I env o world = .stuck ∨ ∃ x world', performed I env o world = .next x world' := by
  unfold performed
  split
  · exact .inl rfl
  · split
    · exact .inl rfl
    · exact .inr ⟨_, _, rfl⟩

section Map

variable {m m' : Module} {I : Interpretation V W} {env env' : Env V} {o o' : Op} {world : W}
  {f : Operand → Operand} {g : BlockId → BlockId} {image : Function → Function}

theorem performed_map (hkind : o'.kind.shape = o.kind.shape) (hty : o'.ty = o.ty)
    (hoperands : o'.operands = o.operands.map f)
    (heval : ∀ y ∈ o.operands, ∀ x, y.eval I env = some x → (f y).eval I env' = some x)
    (h : performed I env o world ≠ .stuck) :
    performed I env' o' world = performed I env o world := by
  unfold performed at h ⊢
  cases hxs : o.operands.mapM (Operand.eval I env) with
  | none => simp [hxs] at h
  | some xs =>
    rw [hoperands, mapM_map_of_imp heval hxs, hkind, hty]

theorem map_performed : (performed I env o world).map g image = performed I env o world := by
  rcases performed_cases I env o world with h | ⟨x, world', h⟩ <;> rw [h] <;> rfl

/-- Whether it comes from a condition, a return or a call, the machine reads it. -/
theorem Action.operands_subset {k : OpKind} {a : Action} (h : k.action = a) :
    (∀ cond onTrue onFalse, a = .branch cond onTrue onFalse → cond ∈ k.operands) ∧
    (∀ value, a = .leave (some value) → value ∈ k.operands) ∧
    ∀ callee args, a = .invoke callee args → args = k.operands := by
  subst h
  cases k <;> simp [OpKind.action, OpKind.operands]

/-- An operation with other operands of the same values has the same effect, up to the names of
blocks and the bodies of functions. -/
theorem effect_map (hkind : o'.kind = (o.kind.mapOperands f).mapBlocks g) (hty : o'.ty = o.ty)
    (heval : ∀ y ∈ o.operands, ∀ x, y.eval I env = some x → (f y).eval I env' = some x)
    (hfunctions : ∀ c fn, m.function? c = some fn →
      m'.function? c = some (image fn) ∧ (image fn).hasBody = fn.hasBody)
    (h : effect m I env o world ≠ .stuck) :
    effect m' I env' o' world = (effect m I env o world).map g image := by
  have haction : o'.kind.action = o.kind.action.map f g := by rw [hkind, OpKind.action_map]
  have hoperands : o'.operands = o.operands.map f := by simp [Op.operands, hkind]
  unfold effect at h ⊢
  rw [haction]
  cases ha : o.kind.action with
  | skip => rfl
  | goto dest => rfl
  | join => simp [ha] at h
  | branch cond onTrue onFalse =>
    simp only [ha, Action.map] at h ⊢
    cases hcond : cond.eval I env with
    | none => simp [hcond] at h
    | some x =>
      rw [heval cond ((Action.operands_subset ha).1 _ _ _ rfl) x hcond]
      simp only [Effect.map]
      split <;> rfl
  | leave value =>
    cases value with
    | none => rfl
    | some value =>
      simp only [ha, Action.map, Option.map_some] at h ⊢
      cases hvalue : value.eval I env with
      | none => simp [hvalue] at h
      | some x =>
        rw [heval value ((Action.operands_subset ha).2.1 _ rfl) x hvalue]
        rfl
  | invoke callee args =>
    have hargs := (Action.operands_subset ha).2.2 _ _ rfl
    have hshape : o'.kind.shape = o.kind.shape := by
      rw [hkind, OpKind.shape_map _ _ _ (.inr ⟨_, _, ha⟩)]
    simp only [ha, Action.map] at h ⊢
    cases hf : m.function? callee with
    | none => simp [hf] at h
    | some fn =>
      obtain ⟨hf', hbody⟩ := hfunctions callee fn hf
      simp only [hf, hf', hbody] at h ⊢
      split
      · next hb =>
        rw [if_pos hb] at h
        cases hxs : args.mapM (Operand.eval I env) with
        | none => simp [hxs] at h
        | some xs =>
          rw [mapM_map_of_imp (φ := f) (hargs ▸ heval) hxs]
          rfl
      · -- A declaration stays one, so the oracle is asked on both sides.
        next hb =>
        rw [if_neg hb] at h
        have hsame := performed_map hshape hty hoperands heval h
        rw [hsame, map_performed]
  | perform =>
    have hshape : o'.kind.shape = o.kind.shape := by rw [hkind, OpKind.shape_map _ _ _ (.inl ha)]
    simp only [ha, Action.map] at h ⊢
    rw [performed_map hshape hty hoperands heval h, map_performed]

end Map

/-- All that can happen: only a terminator jumps, only a call of a body puts a function on top, and
only a return ends one, with the value that it names. -/
theorem effect_cases (m : Module) (I : Interpretation V W) (env : Env V) (o : Op) (world : W) :
    effect m I env o world = .stuck ∨
    (∃ x world', effect m I env o world = .next x world' ∧ ∀ value, o.kind ≠ .ret value) ∨
    (∃ dest, effect m I env o world = .jump dest ∧ dest ∈ o.successors) ∨
    (∃ f xs callee args known, effect m I env o world = .push f xs ∧
      o.kind = .call callee args known ∧ m.function? callee = some f ∧ f.hasBody = true ∧
      args.mapM (Operand.eval I env) = some xs) ∨
    ∃ x value, effect m I env o world = .pop x ∧ o.kind = .ret value ∧
      (value.getD .undef).eval I env = some x := by
  have hperformed := performed_cases I env o world
  unfold effect
  cases hk : o.kind with
  | br dest => exact .inr (.inr (.inl ⟨dest, rfl, by simp [Op.successors, hk, OpKind.successors]⟩))
  | condBr cond onTrue onFalse =>
    simp only [OpKind.action]
    split
    · exact .inl rfl
    · refine .inr (.inr (.inl ⟨_, rfl, ?_⟩))
      simp only [Op.successors, hk, OpKind.successors]
      split <;> simp
  | ret value =>
    cases value with
    | none => exact .inr (.inr (.inr (.inr ⟨_, none, rfl, rfl, rfl⟩)))
    | some y =>
      simp only [OpKind.action]
      split
      · exact .inl rfl
      · next x hx => exact .inr (.inr (.inr (.inr ⟨x, some y, rfl, rfl, hx⟩)))
  | call callee args known =>
    simp only [OpKind.action]
    split
    · exact .inl rfl
    · next f hf =>
      split
      · next hbody =>
        split
        · exact .inl rfl
        · next xs hxs =>
          exact .inr (.inr (.inr (.inl ⟨f, xs, callee, args, known, rfl, rfl, hf, hbody, hxs⟩)))
      · rcases hperformed with h | ⟨x, world', h⟩
        · exact .inl h
        · exact .inr (.inl ⟨x, world', h, by simp⟩)
  | phi incoming => exact .inl rfl
  | debugLoc loc => exact .inr (.inl ⟨none, world, rfl, by simp⟩)
  | comment text => exact .inr (.inl ⟨none, world, rfl, by simp⟩)
  -- Everything else is left to the oracle.
  | _ =>
    rcases hperformed with h | ⟨x, world', h⟩
    · exact .inl h
    · exact .inr (.inl ⟨x, world', h, by simp⟩)

end PassEngine.Dialect
