import PassEngine.Native.Snapshot
import PassEngine.Proofs.Dialect.Encoding

namespace PassEngine.Native

open Json (Lossless faithful_record faithful_tagged tagged readString readBool readUInt64 readInt64
  readList readPair readName readOption strictUnit)

namespace Ty

mutual

theorem faithful_toJson (t : Ty) : t.toJson.Faithful := by
  cases t with
  | void | i1 | i8 | i16 | i32 | i64 | label => exact .str _
  | ptr target => exact faithful_tagged "Ptr" (faithful_toJson target)
  | array size element =>
    exact faithful_tagged "Array" (faithful_record ["size", "element_type"] rfl (by decide)
      (by simp [Lossless.uint64.faithful, faithful_toJson element]))
  | func ret params vararg =>
    have hparams : (Json.arr (listJson params)).Faithful := .arr (faithful_listJson params)
    exact faithful_tagged "Function" (faithful_record ["return_type", "param_types", "is_vararg"]
      rfl (by decide) (by simp [faithful_toJson ret, hparams, Lossless.bool.faithful]))
  | struct name fields packed =>
    have hfields : (Json.arr (listJson fields)).Faithful := .arr (faithful_listJson fields)
    exact faithful_tagged "Struct" (faithful_record ["name", "fields", "packed"] rfl (by decide)
      (by simp [Lossless.str.faithful_ofOption, hfields, Lossless.bool.faithful]))

theorem faithful_listJson (ts : List Ty) : ∀ j ∈ listJson ts, j.Faithful := by
  cases ts with
  | nil => exact nofun
  | cons t ts => exact List.forall_mem_cons.2 ⟨faithful_toJson t, faithful_listJson ts⟩

end

mutual

theorem readUpTo_toJson (t : Ty) {n : Nat} (h : t.toJson.depth < n) :
    readUpTo n t.toJson = some t := by
  obtain _ | n := n
  · omega
  cases t with
  | void | i1 | i8 | i16 | i32 | i64 | label => rfl
  | ptr target =>
    have hread (j : Json) : readUpTo (n + 1) (tagged "Ptr" j) = (do
        return ptr (← readUpTo n j)) := rfl
    simp only [toJson, tagged, Json.depth, Json.depthMembers] at h
    have htarget := readUpTo_toJson target (show target.toJson.depth < n by omega)
    simp [toJson, hread, htarget]
  | array size element =>
    have hread (a b : Json) : readUpTo (n + 1)
        (tagged "Array" (.obj [("size", a), ("element_type", b)])) = (do
          return array (← readUInt64 a) (← readUpTo n b)) := rfl
    simp only [toJson, tagged, Json.depth, Json.depthMembers] at h
    have helement := readUpTo_toJson element (show element.toJson.depth < n by omega)
    simp [toJson, hread, Lossless.uint64.read_write, helement]
  | func ret params vararg =>
    have hread (a b c : Json) : readUpTo (n + 1)
        (tagged "Function" (.obj [("return_type", a), ("param_types", b), ("is_vararg", c)])) = (do
          return func (← readUpTo n a) (← readList (readUpTo n) b) (← readBool c)) := rfl
    simp only [toJson, tagged, Json.depth, Json.depthMembers] at h
    have hret := readUpTo_toJson ret (show ret.toJson.depth < n by omega)
    have hparams := mapM_readUpTo params (show Json.depthItems (listJson params) < n by omega)
    simp [toJson, hread, hret, readList, hparams, Lossless.bool.read_write]
  | struct name fields packed =>
    have hread (a b c : Json) : readUpTo (n + 1)
        (tagged "Struct" (.obj [("name", a), ("fields", b), ("packed", c)])) = (do
          return struct (← readOption readString a) (← readList (readUpTo n) b)
            (← readBool c)) := rfl
    simp only [toJson, tagged, Json.depth, Json.depthMembers] at h
    have hfields := mapM_readUpTo fields (show Json.depthItems (listJson fields) < n by omega)
    simp [toJson, hread, Lossless.str.readOption_ofOption, readList, hfields,
      Lossless.bool.read_write]

theorem mapM_readUpTo (ts : List Ty) {n : Nat} (h : Json.depthItems (listJson ts) < n) :
    (listJson ts).mapM (readUpTo n) = some ts := by
  cases ts with
  | nil => rfl
  | cons t ts =>
    simp only [listJson, Json.depthItems, Nat.max_lt] at h
    simp [listJson, readUpTo_toJson t h.1, mapM_readUpTo ts h.2]

end

theorem lossless : Lossless toJson read where
  faithful := faithful_toJson
  ne_null t := by cases t <;> exact nofun
  read_write t := readUpTo_toJson t (Nat.lt_succ_self _)

end Ty

theorem Value.lossless : Lossless toJson read where
  faithful v := by
    cases v with
    | temp id => exact faithful_tagged "Temp" (ValueId.lossless.faithful id)
    | const n => exact faithful_tagged "Constant" (Lossless.int64.faithful n)
    | global name => exact faithful_tagged "Global" (.str name)
    | function name => exact faithful_tagged "Function" (.str name)
    | constArray ns => exact faithful_tagged "ConstantArray" (Lossless.int64.list.faithful ns)
    | undef => exact .str "Undef"
  ne_null v := by cases v <;> exact nofun
  read_write v := by
    cases v with
    | temp id =>
      have hread (j : Json) : read (tagged "Temp" j) = (do return temp (← ValueId.read j)) := rfl
      simp [toJson, hread, ValueId.lossless.read_write]
    | const n =>
      have hread (j : Json) : read (tagged "Constant" j) = (do
          return const (← readInt64 j)) := rfl
      simp [toJson, hread, Lossless.int64.read_write]
    | constArray ns =>
      have hread (j : Json) : read (tagged "ConstantArray" j) = (do
          return constArray (← readList readInt64 j)) := rfl
      simp [toJson, hread, Lossless.int64.list.read_write]
    | _ => rfl

theorem AsmOperand.lossless : Lossless toJson read where
  faithful o := faithful_record ["constraint", "value", "tied_to"] rfl (by decide)
    (by simp [Lossless.str.faithful, Value.lossless.faithful, Lossless.uint64.faithful_ofOption])
  ne_null _ := nofun
  read_write o := by
    have hread (a b c : Json) :
        read (.obj [("constraint", a), ("value", b), ("tied_to", c)]) = (do
          return ⟨← readString a, ← Value.read b, ← readOption readUInt64 c⟩) := rfl
    simp [toJson, hread, Lossless.str.read_write, Value.lossless.read_write,
      Lossless.uint64.readOption_ofOption]

namespace Instruction

theorem edge_lossless : Lossless edgeJson (readPair Value.read BlockId.read) :=
  Value.lossless.pair BlockId.lossless

theorem faithful_toJson (i : Instruction) : i.toJson.Faithful := by
  have hid := ValueId.lossless.faithful
  have hid? := ValueId.lossless.faithful_ofOption
  have hvalue := Value.lossless.faithful
  have hvalues := Value.lossless.list.faithful
  have hvalue? := Value.lossless.faithful_ofOption
  have hblock := BlockId.lossless.faithful
  have hedges := edge_lossless.list.faithful
  have hty := Ty.lossless.faithful
  have hloc := Location.lossless.faithful
  have hasm := AsmOperand.lossless.list.faithful
  have hstrings := Lossless.str.list.faithful
  cases i with
  | ret value => exact faithful_tagged "Return" (hvalue? value)
  | br dest => exact faithful_tagged "Branch" (hblock dest)
  | comment text => exact faithful_tagged "Comment" (.str text)
  | _ =>
    refine faithful_tagged _ (.obj ?_ ?_)
    · simp only [List.map_cons, List.map_nil]
      decide
    · simp [hid, hid?, hvalue, hvalues, hvalue?, hblock, hedges, hty, hloc, hasm, hstrings,
        Lossless.str.faithful, Lossless.bool.faithful]

theorem read_toJson (i : Instruction) : read i.toJson = some i := by
  have hid := ValueId.lossless.read_write
  have hid? := ValueId.lossless.readOption_ofOption
  have hvalue := Value.lossless.read_write
  have hvalues := Value.lossless.list.read_write
  have hvalue? := Value.lossless.readOption_ofOption
  have hblock := BlockId.lossless.read_write
  have hty := Ty.lossless.read_write
  cases i with
  | binary result op lhs rhs ty =>
    have hread (a b c d e : Json) : read (tagged "Binary" (.obj [("result", a), ("op", b),
        ("lhs", c), ("rhs", d), ("result_type", e)])) = (do
          return binary (← ValueId.read a) (← readName strictUnit BinaryOp.names b)
            (← Value.read c) (← Value.read d) (← Ty.read e)) := rfl
    simp [toJson, hread, hid, (Lossless.name strictUnit BinaryOp.names).read_write, hvalue, hty]
  | unary result op operand ty =>
    have hread (a b c d : Json) : read (tagged "Unary" (.obj [("result", a), ("op", b),
        ("operand", c), ("result_type", d)])) = (do
          return unary (← ValueId.read a) (← readName strictUnit UnaryOp.names b)
            (← Value.read c) (← Ty.read d)) := rfl
    simp [toJson, hread, hid, (Lossless.name strictUnit UnaryOp.names).read_write, hvalue, hty]
  | load result ptr ty =>
    have hread (a b c : Json) : read (tagged "Load" (.obj [("result", a), ("ptr", b),
        ("result_type", c)])) = (do
          return load (← ValueId.read a) (← Value.read b) (← Ty.read c)) := rfl
    simp [toJson, hread, hid, hvalue, hty]
  | store value ptr =>
    have hread (a b : Json) : read (tagged "Store" (.obj [("value", a), ("ptr", b)])) = (do
        return store (← Value.read a) (← Value.read b)) := rfl
    simp [toJson, hread, hvalue]
  | elementPtr result ptr indices ty =>
    have hread (a b c d : Json) : read (tagged "GetElementPtr" (.obj [("result", a), ("ptr", b),
        ("indices", c), ("result_type", d)])) = (do
          return elementPtr (← ValueId.read a) (← Value.read b) (← readList Value.read c)
            (← Ty.read d)) := rfl
    simp [toJson, hread, hid, hvalue, hvalues, hty]
  | alloca result allocated count ty =>
    have hread (a b c d : Json) : read (tagged "Alloca" (.obj [("result", a), ("alloc_type", b),
        ("count", c), ("result_type", d)])) = (do
          return alloca (← ValueId.read a) (← Ty.read b) (← readOption Value.read c)
            (← Ty.read d)) := rfl
    simp [toJson, hread, hid, hvalue?, hty]
  | call result target args ty knownInlined =>
    have hread (a b c d e : Json) : read (tagged "Call" (.obj [("result", a), ("function", b),
        ("args", c), ("result_type", d), ("known_inlined", e)])) = (do
          return call (← readOption ValueId.read a) (← Value.read b) (← readList Value.read c)
            (← Ty.read d) (← readBool e)) := rfl
    simp [toJson, hread, hid?, hvalue, hvalues, hty, Lossless.bool.read_write]
  | ret value =>
    have hread (a : Json) : read (tagged "Return" a) = (do
        return ret (← readOption Value.read a)) := rfl
    simp [toJson, hread, hvalue?]
  | br dest =>
    have hread (a : Json) : read (tagged "Branch" a) = (do return br (← BlockId.read a)) := rfl
    simp [toJson, hread, hblock]
  | condBr cond onTrue onFalse =>
    have hread (a b c : Json) : read (tagged "BranchCond" (.obj [("condition", a),
        ("true_label", b), ("false_label", c)])) = (do
          return condBr (← Value.read a) (← BlockId.read b) (← BlockId.read c)) := rfl
    simp [toJson, hread, hvalue, hblock]
  | phi result incoming ty =>
    have hread (a b c : Json) : read (tagged "Phi" (.obj [("result", a), ("incoming", b),
        ("result_type", c)])) = (do
          return phi (← ValueId.read a) (← readList (readPair Value.read BlockId.read) b)
            (← Ty.read c)) := rfl
    simp [toJson, hread, hid, edge_lossless.list.read_write, hty]
  | cast result value ty =>
    have hread (a b c : Json) : read (tagged "Cast" (.obj [("result", a), ("value", b),
        ("target_type", c)])) = (do
          return cast (← ValueId.read a) (← Value.read b) (← Ty.read c)) := rfl
    simp [toJson, hread, hid, hvalue, hty]
  | select result cond onTrue onFalse ty =>
    have hread (a b c d e : Json) : read (tagged "Select" (.obj [("result", a), ("condition", b),
        ("true_value", c), ("false_value", d), ("result_type", e)])) = (do
          return select (← ValueId.read a) (← Value.read b) (← Value.read c) (← Value.read d)
            (← Ty.read e)) := rfl
    simp [toJson, hread, hid, hvalue, hty]
  | intrinsic result name args ty =>
    have hread (a b c d : Json) : read (tagged "Intrinsic" (.obj [("result", a), ("intrinsic", b),
        ("args", c), ("result_type", d)])) = (do
          return intrinsic (← readOption ValueId.read a) (← readString b)
            (← readList Value.read c) (← Ty.read d)) := rfl
    simp [toJson, hread, hid?, Lossless.str.read_write, hvalues, hty]
  | debugLoc loc =>
    have hread (a : Json) : read (tagged "DebugLoc" (.obj [("location", a)])) = (do
        return debugLoc (← Location.read a)) := rfl
    simp [toJson, hread, Location.lossless.read_write]
  | inlineAsm assembly outputs inputs clobbers =>
    have hread (a b c d : Json) : read (tagged "InlineAsm" (.obj [("assembly", a), ("outputs", b),
        ("inputs", c), ("clobbers", d)])) = (do
          return inlineAsm (← readString a) (← readList AsmOperand.read b)
            (← readList AsmOperand.read c) (← readList readString d)) := rfl
    simp [toJson, hread, Lossless.str.read_write, AsmOperand.lossless.list.read_write,
      Lossless.str.list.read_write]
  | comment text =>
    have hread (a : Json) : read (tagged "Comment" a) = (do
        return comment (← readString a)) := rfl
    simp [toJson, hread, Lossless.str.read_write]

theorem lossless : Lossless toJson read where
  faithful := faithful_toJson
  ne_null i := by cases i <;> exact nofun
  read_write := read_toJson

end Instruction

theorem Block.lossless : Lossless toJson read where
  faithful b := faithful_record ["id", "instructions", "predecessors", "successors"] rfl
    (by decide) (by simp [BlockId.lossless.faithful, Instruction.lossless.list.faithful,
      BlockId.lossless.list.faithful])
  ne_null _ := nofun
  read_write b := by
    have hread (a b c d : Json) : read (.obj [("id", a), ("instructions", b), ("predecessors", c),
        ("successors", d)]) = (do
          return ⟨← BlockId.read a, ← readList Instruction.read b, ← readList BlockId.read c,
            ← readList BlockId.read d⟩) := rfl
    simp [toJson, hread, BlockId.lossless.read_write, Instruction.lossless.list.read_write,
      BlockId.lossless.list.read_write]

namespace Function

theorem param_lossless : Lossless paramJson (readPair ValueId.read Ty.read) :=
  ValueId.lossless.pair Ty.lossless

theorem lossless : Lossless toJson read where
  faithful f := faithful_record ["name", "return_type", "parameters", "blocks", "is_external",
    "is_vararg", "inline_hint", "source_location"] rfl (by decide)
    (by simp [Lossless.str.faithful, Ty.lossless.faithful, param_lossless.list.faithful,
      Block.lossless.list.faithful, Lossless.bool.faithful, Location.lossless.faithful_ofOption])
  ne_null _ := nofun
  read_write f := by
    have hread (a b c d e g i k : Json) : read (.obj [("name", a), ("return_type", b),
        ("parameters", c), ("blocks", d), ("is_external", e), ("is_vararg", g),
        ("inline_hint", i), ("source_location", k)]) = (do
          return ⟨← readString a, ← Ty.read b, ← readList (readPair ValueId.read Ty.read) c,
            ← readList Block.read d, ← readBool e, ← readBool g,
            ← readName strictUnit InlineHint.names i, ← readOption Location.read k⟩) := rfl
    simp [toJson, hread, Lossless.str.read_write, Ty.lossless.read_write,
      param_lossless.list.read_write, Block.lossless.list.read_write, Lossless.bool.read_write,
      (Lossless.name strictUnit InlineHint.names).read_write,
      Location.lossless.readOption_ofOption]

end Function

theorem Global.lossless : Lossless toJson read where
  faithful g := faithful_record ["name", "var_type", "is_constant", "initializer", "linkage"] rfl
    (by decide) (by simp [Lossless.str.faithful, Ty.lossless.faithful, Lossless.bool.faithful,
      Value.lossless.faithful_ofOption])
  ne_null _ := nofun
  read_write g := by
    have hread (a b c d e : Json) : read (.obj [("name", a), ("var_type", b), ("is_constant", c),
        ("initializer", d), ("linkage", e)]) = (do
          return ⟨← readString a, ← Ty.read b, ← readBool c, ← readOption Value.read d,
            ← readName strictUnit Linkage.names e⟩) := rfl
    simp [toJson, hread, Lossless.str.read_write, Ty.lossless.read_write,
      Lossless.bool.read_write, Value.lossless.readOption_ofOption,
      (Lossless.name strictUnit Linkage.names).read_write]

namespace Module

theorem lossless : Lossless toJson read where
  faithful m := faithful_record ["name", "functions", "globals", "type_definitions"] rfl
    (by decide) (by simp [Lossless.str.faithful, Function.lossless.list.faithful,
      Global.lossless.list.faithful, Ty.lossless.table.faithful])
  ne_null _ := nofun
  read_write m := by
    have hread (a b c d : Json) : read (.obj [("name", a), ("functions", b), ("globals", c),
        ("type_definitions", d)]) = (do
          return ⟨← readString a, ← readList Function.read b, ← readList Global.read c,
            ← NameTable.read Ty.read d⟩) := rfl
    simp [toJson, hread, Lossless.str.read_write, Function.lossless.list.read_write,
      Global.lossless.list.read_write, Ty.lossless.table.read_write]

/-- A module that does not nest too deeply is loaded from its own text. -/
theorem load_toCompact {m : Module} (h : m.toJson.depth ≤ Json.maxDepth) :
    load m.toJson.toCompact = some m := by
  rw [load, Json.read_toCompact (lossless.faithful m) h, Option.bind_eq_bind, Option.bind_some,
    lossless.read_write]

end Module

end PassEngine.Native
