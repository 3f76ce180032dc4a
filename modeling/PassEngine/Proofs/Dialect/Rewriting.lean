import PassEngine.Proofs.Dialect.Operands

namespace PassEngine.Dialect

/-- What an operation says besides the operands that it reads and the blocks that it names. -/
inductive Payload where
  | binary (op : Arith)
  | cmp (op : Compare)
  | unary (op : Negation)
  | convert (op : Convert)
  | load
  | store
  | elementPtr
  | alloca (allocated : Ty)
  | call (callee : String) (knownInlined : Bool)
  | callIndirect
  | intrinsic (name : String)
  | cast
  | select
  | phi
  | ret
  | br
  | condBr
  | debugLoc (loc : Location)
  | comment (text : String)
  deriving DecidableEq, Repr

/-- Puts operands and blocks into the places that the payload has for them, if their numbers fit. -/
def Payload.assemble? : Payload → List Operand → List BlockId → Option OpKind
  | binary op, [lhs, rhs], [] => some (.binary op lhs rhs)
  | cmp op, [lhs, rhs], [] => some (.cmp op lhs rhs)
  | unary op, [operand], [] => some (.unary op operand)
  | convert op, [operand], [] => some (.convert op operand)
  | load, [ptr], [] => some (.load ptr)
  | store, [value, ptr], [] => some (.store value ptr)
  | elementPtr, base :: indices, [] => some (.elementPtr base indices)
  | alloca allocated, [], [] => some (.alloca allocated none)
  | alloca allocated, [count], [] => some (.alloca allocated (some count))
  | call callee known, args, [] => some (.call callee args known)
  | callIndirect, target :: args, [] => some (.callIndirect target args)
  | intrinsic name, args, [] => some (.intrinsic name args)
  | cast, [operand], [] => some (.cast operand)
  | select, [cond, onTrue, onFalse], [] => some (.select cond onTrue onFalse)
  | phi, values, labels => some (.phi (values.zip labels))
  | ret, [], [] => some (.ret none)
  | ret, [value], [] => some (.ret (some value))
  | br, [], [dest] => some (.br dest)
  | condBr, [cond], [onTrue, onFalse] => some (.condBr cond onTrue onFalse)
  | debugLoc loc, [], [] => some (.debugLoc loc)
  | comment text, [], [] => some (.comment text)
  | _, _, _ => none

namespace OpKind

def payload : OpKind → Payload
  | binary op _ _ => .binary op
  | cmp op _ _ => .cmp op
  | unary op _ => .unary op
  | convert op _ => .convert op
  | load _ => .load
  | store _ _ => .store
  | elementPtr _ _ => .elementPtr
  | alloca allocated _ => .alloca allocated
  | call callee _ known => .call callee known
  | callIndirect _ _ => .callIndirect
  | intrinsic name _ => .intrinsic name
  | cast _ => .cast
  | select _ _ _ => .select
  | phi _ => .phi
  | ret _ => .ret
  | br _ => .br
  | condBr _ _ _ => .condBr
  | debugLoc loc => .debugLoc loc
  | comment text => .comment text

variable (s : Operand → Operand) (g : BlockId → BlockId) (k : OpKind)

@[simp]
theorem payload_mapOperands : (k.mapOperands s).payload = k.payload := by
  cases k <;> rfl

@[simp]
theorem payload_mapBlocks : (k.mapBlocks g).payload = k.payload := by
  cases k <;> rfl

/-- An operation is its payload with its operands and its blocks. -/
theorem assemble?_payload : k.payload.assemble? k.operands k.blocks = some k := by
  cases k with
  | alloca allocated count => cases count <;> rfl
  | ret value => cases value <;> rfl
  | phi incoming => simp [payload, operands, blocks, Payload.assemble?, List.zip_map']
  | _ => rfl

theorem eq_of_payload_eq {k k' : OpKind} (hpayload : k.payload = k'.payload)
    (hoperands : k.operands = k'.operands) (hblocks : k.blocks = k'.blocks) : k = k' := by
  apply Option.some.inj
  rw [← assemble?_payload k, ← assemble?_payload k', hpayload, hoperands, hblocks]

end OpKind

namespace Op

def payload (o : Op) : Payload := o.kind.payload

theorem eq_iff_parts {o o' : Op} : o' = o ↔ o'.result = o.result ∧ o'.ty = o.ty ∧
    o'.payload = o.payload ∧ o'.operands = o.operands ∧ o'.blocks = o.blocks := by
  constructor
  · rintro rfl
    exact ⟨rfl, rfl, rfl, rfl, rfl⟩
  · rintro ⟨hresult, hty, hpayload, hoperands, hblocks⟩
    cases o
    cases o'
    obtain rfl := OpKind.eq_of_payload_eq hpayload hoperands hblocks
    cases hresult
    cases hty
    rfl

/-- Rewriting the operands gives the one operation that reads what the operands become and is the
same in all other parts, and rewriting the blocks gives the one that names what the blocks become.
So both reach every place that reading finds and no other, and it does not matter which is first. -/
theorem rewriting_exact (o : Op) (s : Operand → Operand) (g : BlockId → BlockId) :
    (∀ o', o' = o.mapOperands s ↔ o'.result = o.result ∧ o'.ty = o.ty ∧ o'.payload = o.payload ∧
      o'.operands = o.operands.map s ∧ o'.blocks = o.blocks) ∧
    (o.mapOperands s).successors = o.successors ∧ (o.mapOperands s).callee? = o.callee? ∧
    (∀ o', o' = o.mapBlocks g ↔ o'.result = o.result ∧ o'.ty = o.ty ∧ o'.payload = o.payload ∧
      o'.operands = o.operands ∧ o'.blocks = o.blocks.map g) ∧
    (o.mapBlocks g).successors = o.successors.map g ∧ (o.mapBlocks g).callee? = o.callee? ∧
    (o.mapOperands s).mapBlocks g = (o.mapBlocks g).mapOperands s := by
  refine ⟨fun o' => ?_, successors_mapOperands s o, callee?_mapOperands s o, fun o' => ?_,
    OpKind.successors_mapBlocks g o.kind, callee?_mapBlocks g o, ?_⟩
  · have hpayload : (o.mapOperands s).payload = o.payload := OpKind.payload_mapOperands s o.kind
    rw [eq_iff_parts, hpayload, operands_mapOperands, blocks_mapOperands]
    rfl
  · have hpayload : (o.mapBlocks g).payload = o.payload := OpKind.payload_mapBlocks g o.kind
    rw [eq_iff_parts, hpayload, operands_mapBlocks, blocks_mapBlocks]
    rfl
  · rw [mapOperands, mapBlocks, mapBlocks, mapOperands, OpKind.mapOperands_mapBlocks]

end Op

end PassEngine.Dialect
